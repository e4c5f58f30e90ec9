import Sbctl.Lib.Text
import Sbctl.Lib.Zone

/-!
# The deployment configuration

The record an administrator edits and every other part of the program reads,
with the values its fields range over. Ports are 16 bits wide and byte limits
64 bits, as they are stored.
-/

namespace Sbctl

inductive SubscriptionMode where
  | direct
  | externalProxy
  | ipFallback
  deriving DecidableEq, Repr

/-- `natural` months begin on day one, `anchored` months on a chosen day. -/
inductive AccountingPolicy where
  | naturalMonth
  | anchoredMonth
  deriving DecidableEq, Repr

inductive CertificateMode where
  | domain
  | selfSigned
  deriving DecidableEq, Repr

inductive ManagedProtocol where
  | vlessReality
  | vmessWebsocket
  | hysteria2
  | tuic
  | anytls
  deriving DecidableEq, Repr

inductive ClientDnsMode where
  | fakeIp
  | redirHost
  deriving DecidableEq, Repr

inductive ClientDnsPreset where
  | cnDirect
  | privacy
  deriving DecidableEq, Repr

inductive ClientRuleProfile where
  | standard
  | minimal
  deriving DecidableEq, Repr

inductive ClientTemplate where
  | standard
  | global
  | split
  | compact
  deriving DecidableEq, Repr

inductive RuleSetBehavior where
  | domain
  | ipcidr
  deriving DecidableEq, Repr

structure ExtraRuleSet where
  name : String
  url : String
  outbound : String
  behavior : RuleSetBehavior
  deriving DecidableEq, Repr

/-- The loopback endpoint through which the running data plane is observed. -/
structure ServerClashApi where
  port : UInt16
  secret : String
  deriving DecidableEq, Repr

/-- One named subscription credential. It serves until `revokedAt`. -/
structure NamedCredential where
  name : String
  credential : String
  revokedAt : Option Int
  deriving DecidableEq

structure PortHopping where
  start : UInt16
  «end» : UInt16
  intervalSeconds : UInt16
  deriving DecidableEq, Repr

structure VlessRealityCredentials where
  listenPort : UInt16
  uuid : String
  privateKey : String
  publicKey : String
  shortId : String
  deriving DecidableEq, Repr

structure VmessWebsocketCredentials where
  listenPort : UInt16
  uuid : String
  path : String
  deriving DecidableEq, Repr

structure Hysteria2Credentials where
  listenPort : UInt16
  password : String
  deriving DecidableEq, Repr

structure TuicCredentials where
  listenPort : UInt16
  uuid : String
  password : String
  deriving DecidableEq, Repr

structure AnytlsCredentials where
  listenPort : UInt16
  password : String
  deriving DecidableEq, Repr

structure DeploymentConfig where
  subscriptionMode : SubscriptionMode
  subscriptionHost : String
  proxyHost : Option String
  httpPort : Option UInt16
  subscriptionListenPort : Option UInt16
  certbotEmail : Option String
  certificateMode : CertificateMode
  hysteria2PortHopping : Option PortHopping
  interface : String
  ipv4Only : Bool
  enabledProtocols : List ManagedProtocol
  realityDecoySni : Option String
  protocolSni : Option String
  subscriptionCredential : String
  clientClashApiSecret : Option String
  serverClashApi : Option ServerClashApi
  subscriptionCredentials : List NamedCredential
  monthlyTrafficLimit : UInt64
  accountingPolicy : AccountingPolicy
  accountingTimezone : String
  clientDisplayTimezone : String
  anchoredResetAt : Option String
  clientDnsMode : ClientDnsMode
  clientDnsPreset : ClientDnsPreset
  clientRuleProfile : ClientRuleProfile
  clientTemplate : ClientTemplate
  clientRuleSetBaseUrl : String
  clientExtraRuleSets : List ExtraRuleSet
  clientRuleSetUpdateInterval : String
  clientLatencyProbeUrl : String
  vlessReality : Option VlessRealityCredentials
  vmessWebsocket : Option VmessWebsocketCredentials
  hysteria2 : Option Hysteria2Credentials
  tuic : Option TuicCredentials
  anytls : Option AnytlsCredentials
  deriving DecidableEq

inductive ConfigError where
  | invalidValue (message : String)
  | missing
  | alreadyExists
  | parse
  | serialize
  | randomness (message : String)
  | portInUse (port : UInt16) (holder : String)
  | storage (message : String)
  | stateContent (message : String)
  | stateCorrupt (message : String)
  | stateSchemaMismatch (version : UInt32)
  deriving DecidableEq, Repr

/-- A date and a time of day without a zone. -/
structure NaiveDateTime where
  year : Int
  month : Nat
  dayOfMonth : Nat
  hour : Nat
  minute : Nat
  deriving DecidableEq, Repr

structure Url where
  scheme : String
  hostStr : Option String
  path : String
  query : Option String
  fragment : Option String
  deriving DecidableEq, Repr

/-- The parsers and tables the program takes from its libraries. -/
structure Libraries where
  isIpAddr : String → Bool
  isAlphanumeric : Char → Bool
  parseUrl : String → Option Url
  parseTz : String → Option Clock.Zone
  /-- Reads `YYYY-MM-DDTHH:MM`. -/
  parseNaiveDateTime : String → Option NaiveDateTime
  /-- Prints a local time and its offset. -/
  toRfc3339 : Int → Int → String
  /-- Prints a text in quotes. -/
  debugString : String → String

namespace DeploymentConfig

def vlessPort (config : DeploymentConfig) : Option UInt16 :=
  config.vlessReality.map (·.listenPort)

def vmessPort (config : DeploymentConfig) : Option UInt16 :=
  config.vmessWebsocket.map (·.listenPort)

def hysteria2Port (config : DeploymentConfig) : Option UInt16 :=
  config.hysteria2.map (·.listenPort)

def tuicPort (config : DeploymentConfig) : Option UInt16 := config.tuic.map (·.listenPort)

def anytlsPort (config : DeploymentConfig) : Option UInt16 := config.anytls.map (·.listenPort)

def clashApiPort (config : DeploymentConfig) : Option UInt16 :=
  config.serverClashApi.map (·.port)

def protocolListenerPorts (config : DeploymentConfig) : List UInt16 :=
  config.vlessPort.toList ++ config.vmessPort.toList ++ config.hysteria2Port.toList ++
    config.tuicPort.toList ++ config.anytlsPort.toList

def defaultProtocolSni : String := "www.bing.com"

/-- The TLS server name the certificate-based protocols present. -/
def protocolServerName (lib : Libraries) (config : DeploymentConfig) : String :=
  match config.protocolSni with
  | some sni => sni
  | none =>
    if lib.isIpAddr config.subscriptionHost then defaultProtocolSni else config.subscriptionHost

/-- The configuration as it is loaded, with its host names in lower case. -/
def lowered (config : DeploymentConfig) : DeploymentConfig :=
  { config with
    subscriptionHost := Text.toAsciiLowercase config.subscriptionHost
    proxyHost := config.proxyHost.map Text.toAsciiLowercase }

end DeploymentConfig

end Sbctl
