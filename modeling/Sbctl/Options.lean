import Sbctl.Ports

/-!
# Rebuilding a deployment from its options

An edit of the deployment starts from a complete set of chosen options. Protocols
that stay enabled keep their credentials, newly enabled ones receive fresh
credentials and, unless one is requested, a random listener port.

* `applyOptions_keeps`: an edit changes what the options name and nothing else.
-/

namespace Sbctl

open Text

/-- The listener ports an administrator asks for. -/
structure ProtocolPorts where
  vlessReality : Option UInt16
  vmessWebsocket : Option UInt16
  hysteria2 : Option UInt16
  tuic : Option UInt16
  anytls : Option UInt16
  deriving DecidableEq

/-- The choices a deployment is rebuilt from. -/
structure DeploymentOptions where
  subscriptionMode : SubscriptionMode
  subscriptionHost : String
  proxyHost : Option String
  certbotEmail : Option String
  httpPort : Option UInt16
  subscriptionListenPort : Option UInt16
  certificateMode : CertificateMode
  interface : String
  enabledProtocols : List ManagedProtocol
  realityDecoySni : Option String
  protocolSni : Option String
  monthlyTrafficLimit : UInt64
  accountingPolicy : AccountingPolicy
  accountingTimezone : String
  clientDisplayTimezone : String
  anchoredResetAt : Option String
  ports : ProtocolPorts

def ProtocolPorts.requested (ports : ProtocolPorts) : ManagedProtocol → Option UInt16
  | .vlessReality => ports.vlessReality
  | .vmessWebsocket => ports.vmessWebsocket
  | .hysteria2 => ports.hysteria2
  | .tuic => ports.tuic
  | .anytls => ports.anytls

/-- The order in which protocols are given their ports. -/
def protocolOrder : List ManagedProtocol := [.vlessReality, .vmessWebsocket, .hysteria2, .tuic, .anytls]

/-- The requested ports, against the values of those before. -/
def validateRequestedPorts (enabled : List ManagedProtocol) (ports : ProtocolPorts)
    (values : List UInt16) : List ManagedProtocol → Except ConfigError Unit
  | [] => .ok ()
  | protocol :: protocols =>
    match ports.requested protocol with
    | none => validateRequestedPorts enabled ports values protocols
    | some port => do
      rejectIf (protocol ∉ enabled) "cannot specify a port for a disabled Managed protocol"
      rejectIf (¬ (minProtocolPort ≤ port ∧ port ≤ maxProtocolPort))
        "Managed protocol ports must be in 10000-65535"
      rejectIf (port ∈ values) "Managed protocol ports must be unique across TCP and UDP"
      validateRequestedPorts enabled ports (port :: values) protocols

/-! ## The random source and the ports of the host -/

/-- The random texts of fresh credentials. -/
inductive Secret where
  | vlessPrivateKey
  | vlessShortId
  | vlessUuid
  | vmessPath
  | vmessUuid
  | hysteria2Password
  | tuicPassword
  | tuicUuid
  | anytlsPassword
  | subscription
  deriving DecidableEq

/-- What the random source yields and what the host says of a port. Draws and
probes are told apart by the protocol they serve and the attempts still left. -/
structure Chance where
  secret : Secret → Except String String
  draw : ManagedProtocol → Nat → Except String UInt32
  /-- Who holds the port, when it cannot be bound. -/
  holder : ManagedProtocol → Nat → UInt16 → Option String
  /-- The X25519 public key of a private key. -/
  publicKey : String → String

namespace Chance

def text (chance : Chance) (secret : Secret) : Except ConfigError String :=
  (chance.secret secret).mapError .randomness

def randomProtocolPort (chance : Chance) (protocol : ManagedProtocol) (left : Nat) :
    Except ConfigError UInt16 :=
  let span := (maxProtocolPort - minProtocolPort).toUInt32 + 1
  ((chance.draw protocol left).map fun drawn =>
    minProtocolPort + (drawn % span).toUInt16).mapError .randomness

def ensureProtocolPortAvailable (chance : Chance) (protocol : ManagedProtocol) (left : Nat)
    (port : UInt16) : Except ConfigError Unit :=
  match chance.holder protocol left port with
  | some holder => .error (.portInUse port holder)
  | none => .ok ()

def maxRandomPortAttempts : Nat := 256

/-- The first port drawn that is neither allocated nor held. -/
def drawPort (chance : Chance) (protocol : ManagedProtocol) (allocated : List UInt16) :
    Nat → Except ConfigError UInt16
  | 0 => .error (.stateContent "尝试了 256 个随机端口（10000-65535）仍未找到 TCP/UDP 同时可用的端口；请检查系统端口占用（ss -tulpn）或改用 --*-port 手动指定")
  | left + 1 => do
    let port ← chance.randomProtocolPort protocol left
    if port ∉ allocated ∧ (chance.ensureProtocolPortAvailable protocol left port).isOk then
      .ok port
    else chance.drawPort protocol allocated left

/-- The port of new credentials, and the ports allocated with it. -/
def allocatePort (chance : Chance) (protocol : ManagedProtocol) (allocated : List UInt16) :
    Option UInt16 → Except ConfigError (UInt16 × List UInt16)
  | some port => do
    rejectIf (port ∈ allocated) "Managed protocol ports must be unique"
    chance.ensureProtocolPortAvailable protocol 0 port
    return (port, port :: allocated)
  | none => do
    let port ← chance.drawPort protocol allocated maxRandomPortAttempts
    return (port, port :: allocated)

def probeIfMoved (chance : Chance) (protocol : ManagedProtocol) (current port : UInt16) :
    Except ConfigError Unit :=
  if port ≠ current then chance.ensureProtocolPortAvailable protocol 0 port else .ok ()

/-- The requested port of credentials that are kept, or else the port they have. -/
def existingPort (current : UInt16) : Option UInt16 → UInt16
  | some requested => if requested ≠ current then requested else current
  | none => current

theorem existingPort_eq (current : UInt16) (requested : Option UInt16) :
    existingPort current requested = requested.getD current := by
  cases requested with
  | none => rfl
  | some requested =>
    dsimp only [existingPort, Option.getD_some]
    by_cases hc : requested = current
    · rw [if_neg (not_not_intro hc), hc]
    · rw [if_pos hc]

/-- The port of credentials that are kept, and the ports allocated with it. -/
def applyExistingPort (chance : Chance) (protocol : ManagedProtocol) (current : UInt16)
    (requested : Option UInt16) (allocated : List UInt16) :
    Except ConfigError (UInt16 × List UInt16) := do
  let port := existingPort current requested
  rejectIf (port ∈ allocated) "Managed protocol ports must be unique across TCP and UDP"
  chance.probeIfMoved protocol current port
  return (port, port :: allocated)

end Chance

/-! ## Credentials -/

/-- Credentials with a listener port that can be changed alone. -/
class Listening (α : Type) where
  port : α → UInt16
  setPort : α → UInt16 → α
  port_setPort : ∀ credentials p, port (setPort credentials p) = p
  setPort_port : ∀ credentials, setPort credentials (port credentials) = credentials

instance : Listening VlessRealityCredentials where
  port credentials := credentials.listenPort
  setPort credentials port := { credentials with listenPort := port }
  port_setPort _ _ := rfl
  setPort_port _ := rfl

instance : Listening VmessWebsocketCredentials where
  port credentials := credentials.listenPort
  setPort credentials port := { credentials with listenPort := port }
  port_setPort _ _ := rfl
  setPort_port _ := rfl

instance : Listening Hysteria2Credentials where
  port credentials := credentials.listenPort
  setPort credentials port := { credentials with listenPort := port }
  port_setPort _ _ := rfl
  setPort_port _ := rfl

instance : Listening TuicCredentials where
  port credentials := credentials.listenPort
  setPort credentials port := { credentials with listenPort := port }
  port_setPort _ _ := rfl
  setPort_port _ := rfl

instance : Listening AnytlsCredentials where
  port credentials := credentials.listenPort
  setPort credentials port := { credentials with listenPort := port }
  port_setPort _ _ := rfl
  setPort_port _ := rfl

attribute [simp] Listening.port_setPort Listening.setPort_port

/-- Fresh credentials from the texts drawn before and after their port. -/
structure Recipe (α : Type) [Listening α] where
  Before : Type
  After : Type
  before : Except ConfigError Before
  after : Except ConfigError After
  make : Before → UInt16 → After → α
  port_make : ∀ b port a, Listening.port (make b port a) = port

def Recipe.generate {α : Type} [Listening α] (recipe : Recipe α) (chance : Chance)
    (protocol : ManagedProtocol) (allocated : List UInt16) (requested : Option UInt16) :
    Except ConfigError (α × List UInt16) := do
  let b ← recipe.before
  let (port, allocated) ← chance.allocatePort protocol allocated requested
  let a ← recipe.after
  return (recipe.make b port a, allocated)

namespace Chance

def generateVlessRealityCredentials (chance : Chance) : Recipe VlessRealityCredentials where
  Before := String × String
  After := String
  before := do
    let privateKey ← chance.text .vlessPrivateKey
    let shortId ← chance.text .vlessShortId
    return (privateKey, shortId)
  after := chance.text .vlessUuid
  make := fun (privateKey, shortId) listenPort uuid =>
    { listenPort, uuid, privateKey, publicKey := chance.publicKey privateKey, shortId }
  port_make _ _ _ := rfl

def generateVmessWebsocketCredentials (chance : Chance) : Recipe VmessWebsocketCredentials where
  Before := String
  After := String
  before := chance.text .vmessPath
  after := chance.text .vmessUuid
  make path listenPort uuid := { listenPort, uuid, path := "/" ++ path }
  port_make _ _ _ := rfl

def generateHysteria2Credentials (chance : Chance) : Recipe Hysteria2Credentials where
  Before := String
  After := Unit
  before := chance.text .hysteria2Password
  after := .ok ()
  make password listenPort _ := { listenPort, password }
  port_make _ _ _ := rfl

def generateTuicCredentials (chance : Chance) : Recipe TuicCredentials where
  Before := String
  After := String
  before := chance.text .tuicPassword
  after := chance.text .tuicUuid
  make password listenPort uuid := { listenPort, uuid, password }
  port_make _ _ _ := rfl

def generateAnytlsCredentials (chance : Chance) : Recipe AnytlsCredentials where
  Before := String
  After := Unit
  before := chance.text .anytlsPassword
  after := .ok ()
  make password listenPort _ := { listenPort, password }
  port_make _ _ _ := rfl

/-- Keeps the credentials of a protocol that stays enabled, or makes fresh ones. -/
def buildProtocolCredentials {α : Type} [Listening α] (chance : Chance) (recipe : Recipe α)
    (protocol : ManagedProtocol) (existing : Option α) (options : DeploymentOptions)
    (allocated : List UInt16) : Except ConfigError (Option α × List UInt16) :=
  if protocol ∉ options.enabledProtocols then .ok (none, allocated)
  else match existing with
    | some current => do
      let (port, allocated) ← chance.applyExistingPort protocol (Listening.port current)
        (options.ports.requested protocol) allocated
      return (some (Listening.setPort current port), allocated)
    | none => do
      let (credentials, allocated) ← recipe.generate chance protocol allocated
        (options.ports.requested protocol)
      return (some credentials, allocated)

end Chance

structure ProtocolCredentials where
  vlessReality : Option VlessRealityCredentials
  vmessWebsocket : Option VmessWebsocketCredentials
  hysteria2 : Option Hysteria2Credentials
  tuic : Option TuicCredentials
  anytls : Option AnytlsCredentials

def Chance.buildCredentials (chance : Chance) (existing : Option DeploymentConfig)
    (options : DeploymentOptions) : Except ConfigError ProtocolCredentials := do
  let (vlessReality, allocated) ← chance.buildProtocolCredentials chance.generateVlessRealityCredentials
    .vlessReality (existing.bind (·.vlessReality)) options []
  let (vmessWebsocket, allocated) ← chance.buildProtocolCredentials
    chance.generateVmessWebsocketCredentials .vmessWebsocket (existing.bind (·.vmessWebsocket)) options
    allocated
  let (hysteria2, allocated) ← chance.buildProtocolCredentials chance.generateHysteria2Credentials
    .hysteria2 (existing.bind (·.hysteria2)) options allocated
  let (tuic, allocated) ← chance.buildProtocolCredentials chance.generateTuicCredentials .tuic
    (existing.bind (·.tuic)) options allocated
  let (anytls, _) ← chance.buildProtocolCredentials chance.generateAnytlsCredentials .anytls
    (existing.bind (·.anytls)) options allocated
  return { vlessReality, vmessWebsocket, hysteria2, tuic, anytls }

/-! ## The rebuilt configuration -/

def defaultClientRuleSetBaseUrl : String := "https://cdn.jsdelivr.net/gh/MetaCubeX/meta-rules-dat"
def defaultRuleSetUpdateInterval : String := "1d"
def defaultClientLatencyProbeUrl : String := "https://www.gstatic.com/generate_204"

/-- The configuration the options name, with what an existing deployment keeps. -/
def rebuilt (existing : Option DeploymentConfig) (options : DeploymentOptions)
    (subscriptionCredential : String) (credentials : ProtocolCredentials) : DeploymentConfig where
  subscriptionMode := options.subscriptionMode
  subscriptionHost := toAsciiLowercase options.subscriptionHost
  proxyHost := options.proxyHost.map toAsciiLowercase
  httpPort := options.httpPort
  subscriptionListenPort := options.subscriptionListenPort
  certificateMode := options.certificateMode
  interface := options.interface
  hysteria2PortHopping := (existing.bind (·.hysteria2PortHopping)).filter
    fun _ => .hysteria2 ∈ options.enabledProtocols
  ipv4Only := existing.any (·.ipv4Only)
  enabledProtocols := options.enabledProtocols
  realityDecoySni := options.realityDecoySni
  protocolSni := options.protocolSni
  subscriptionCredential := subscriptionCredential
  serverClashApi := existing.bind (·.serverClashApi)
  clientClashApiSecret := existing.bind (·.clientClashApiSecret)
  subscriptionCredentials := (existing.map (·.subscriptionCredentials)).getD []
  monthlyTrafficLimit := options.monthlyTrafficLimit
  accountingPolicy := options.accountingPolicy
  accountingTimezone := options.accountingTimezone
  clientDisplayTimezone := options.clientDisplayTimezone
  anchoredResetAt := options.anchoredResetAt
  certbotEmail := options.certbotEmail
  clientDnsMode := (existing.map (·.clientDnsMode)).getD .fakeIp
  clientDnsPreset := (existing.map (·.clientDnsPreset)).getD .cnDirect
  clientRuleProfile := (existing.map (·.clientRuleProfile)).getD .standard
  clientTemplate := (existing.map (·.clientTemplate)).getD .standard
  clientRuleSetBaseUrl := (existing.map (·.clientRuleSetBaseUrl)).getD defaultClientRuleSetBaseUrl
  clientExtraRuleSets := (existing.map (·.clientExtraRuleSets)).getD []
  clientRuleSetUpdateInterval :=
    (existing.map (·.clientRuleSetUpdateInterval)).getD defaultRuleSetUpdateInterval
  clientLatencyProbeUrl :=
    (existing.map (·.clientLatencyProbeUrl)).getD defaultClientLatencyProbeUrl
  vlessReality := credentials.vlessReality
  vmessWebsocket := credentials.vmessWebsocket
  hysteria2 := credentials.hysteria2
  tuic := credentials.tuic
  anytls := credentials.anytls

def Chance.defaultCredential (chance : Chance) : Option DeploymentConfig → Except ConfigError String
  | some config => .ok config.subscriptionCredential
  | none => chance.text .subscription

/-- Rebuilds the deployment, or makes a fresh one. -/
def applyOptions (lib : Libraries) (chance : Chance) (existing : Option DeploymentConfig)
    (options : DeploymentOptions) : Except ConfigError DeploymentConfig := do
  validateRequestedPorts options.enabledProtocols options.ports [] protocolOrder
  let credentials ← chance.buildCredentials existing options
  let subscriptionCredential ← chance.defaultCredential existing
  let config := rebuilt existing options subscriptionCredential credentials
  validate lib config
  return config

/-! ## What an edit keeps -/

section
variable {α : Type} [Listening α] {chance : Chance} {recipe : Recipe α}
  {protocol : ManagedProtocol} {options : DeploymentOptions}

namespace Chance

theorem applyExistingPort_ok {current port : UInt16} {requested : Option UInt16}
    {allocated after : List UInt16}
    (h : chance.applyExistingPort protocol current requested allocated = .ok (port, after)) :
    port = requested.getD current ∧ port ∉ allocated ∧ after = port :: allocated := by
  simp only [applyExistingPort] at h
  obtain ⟨_, hnew, h⟩ := bind_ok.mp h
  obtain ⟨_, _, h⟩ := bind_ok.mp h
  cases h
  exact ⟨existingPort_eq current requested, rejectIf_ok.mp hnew, rfl⟩

theorem buildProtocolCredentials_isSome {existing built : Option α} {allocated after : List UInt16}
    (h : chance.buildProtocolCredentials recipe protocol existing options allocated =
      .ok (built, after)) : built.isSome ↔ protocol ∈ options.enabledProtocols := by
  unfold buildProtocolCredentials at h
  by_cases henabled : protocol ∈ options.enabledProtocols
  · rw [if_neg (not_not_intro henabled)] at h
    refine iff_of_true ?_ henabled
    cases existing with
    | some current =>
      obtain ⟨_, _, h⟩ := bind_ok.mp h
      cases h
      rfl
    | none =>
      obtain ⟨_, _, h⟩ := bind_ok.mp h
      cases h
      rfl
  · rw [if_pos henabled] at h
    cases h
    simpa using henabled

theorem buildProtocolCredentials_kept {current : α} {built : Option α}
    {allocated after : List UInt16} (henabled : protocol ∈ options.enabledProtocols)
    (h : chance.buildProtocolCredentials recipe protocol (some current) options allocated =
      .ok (built, after)) :
    built = some (Listening.setPort current
      ((options.ports.requested protocol).getD (Listening.port current))) := by
  unfold buildProtocolCredentials at h
  rw [if_neg (not_not_intro henabled)] at h
  obtain ⟨_, hport, h⟩ := bind_ok.mp h
  cases h
  rw [(applyExistingPort_ok hport).1]

end Chance
end

/-- The credentials of one protocol through an edit: there afterwards exactly
when the protocol is, and but for the port those of before. -/
structure CredentialsKept {α : Type} [Listening α] (protocol : ManagedProtocol)
    (existing : DeploymentConfig) (options : DeploymentOptions) (before after : Option α) : Prop where
  exactly_enabled : after.isSome ↔ protocol ∈ options.enabledProtocols
  reused : protocol ∈ existing.enabledProtocols → protocol ∈ options.enabledProtocols →
    ∃ credentials, before = some credentials ∧
      after = some (Listening.setPort credentials
        ((options.ports.requested protocol).getD (Listening.port credentials)))

/-- What an edit of `existing` leaves alone. -/
structure Kept (existing : DeploymentConfig) (options : DeploymentOptions)
    (config : DeploymentConfig) : Prop where
  enabledProtocols : config.enabledProtocols = options.enabledProtocols
  vlessReality : CredentialsKept .vlessReality existing options existing.vlessReality
    config.vlessReality
  vmessWebsocket : CredentialsKept .vmessWebsocket existing options existing.vmessWebsocket
    config.vmessWebsocket
  hysteria2 : CredentialsKept .hysteria2 existing options existing.hysteria2 config.hysteria2
  tuic : CredentialsKept .tuic existing options existing.tuic config.tuic
  anytls : CredentialsKept .anytls existing options existing.anytls config.anytls
  subscriptionCredential : config.subscriptionCredential = existing.subscriptionCredential
  subscriptionCredentials : config.subscriptionCredentials = existing.subscriptionCredentials
  serverClashApi : config.serverClashApi = existing.serverClashApi
  clientClashApiSecret : config.clientClashApiSecret = existing.clientClashApiSecret
  clientTemplate : config.clientTemplate = existing.clientTemplate
  clientDnsMode : config.clientDnsMode = existing.clientDnsMode
  clientDnsPreset : config.clientDnsPreset = existing.clientDnsPreset
  clientRuleProfile : config.clientRuleProfile = existing.clientRuleProfile
  clientRuleSetBaseUrl : config.clientRuleSetBaseUrl = existing.clientRuleSetBaseUrl
  clientExtraRuleSets : config.clientExtraRuleSets = existing.clientExtraRuleSets
  clientRuleSetUpdateInterval :
    config.clientRuleSetUpdateInterval = existing.clientRuleSetUpdateInterval
  clientLatencyProbeUrl : config.clientLatencyProbeUrl = existing.clientLatencyProbeUrl
  ipv4Only : config.ipv4Only = existing.ipv4Only
  hysteria2PortHopping : config.hysteria2PortHopping =
    if .hysteria2 ∈ options.enabledProtocols then existing.hysteria2PortHopping else none

def DeploymentConfig.hasCredentials (config : DeploymentConfig) : ManagedProtocol → Bool
  | .vlessReality => config.vlessReality.isSome
  | .vmessWebsocket => config.vmessWebsocket.isSome
  | .hysteria2 => config.hysteria2.isSome
  | .tuic => config.tuic.isSome
  | .anytls => config.anytls.isSome

theorem hasCredentials_iff {config : DeploymentConfig} {protocol : ManagedProtocol} :
    config.hasCredentials protocol ↔ ∃ port, config.protocolListenerPort protocol = some port := by
  cases protocol <;>
    simp [DeploymentConfig.hasCredentials, DeploymentConfig.protocolListenerPort,
      DeploymentConfig.vlessPort, DeploymentConfig.vmessPort, DeploymentConfig.hysteria2Port,
      DeploymentConfig.tuicPort, DeploymentConfig.anytlsPort, Option.isSome_iff_exists]

section
variable {lib : Libraries} {existing : DeploymentConfig} {options : DeploymentOptions}
  {chance : Chance}

theorem validateProtocols_credentials {config : DeploymentConfig}
    (h : validateProtocols lib config = .ok ()) {protocol : ManagedProtocol}
    (henabled : protocol ∈ config.enabledProtocols) : config.hasCredentials protocol := by
  simp only [validateProtocols, validateEnabledCredentials, check_ok, rejectIf_ok, not_and,
    Bool.not_eq_true, Bool.not_eq_false, Option.ne_none_iff_isSome] at h
  obtain ⟨-, -, -, -, hvmess, hhysteria2, htuic, hanytls, hvless, -⟩ := h
  cases protocol with
  | vlessReality => exact hvless henabled
  | vmessWebsocket => exact hvmess henabled
  | hysteria2 => exact hhysteria2 henabled
  | tuic => exact htuic henabled
  | anytls => exact hanytls henabled

theorem credentialsKept {α : Type} [Listening α] {recipe : Recipe α} {protocol : ManagedProtocol}
    {before after : Option α} {allocated allocated' : List UInt16}
    (hbefore : protocol ∈ existing.enabledProtocols → before.isSome)
    (h : chance.buildProtocolCredentials recipe protocol before options allocated =
      .ok (after, allocated')) : CredentialsKept protocol existing options before after := by
  refine ⟨Chance.buildProtocolCredentials_isSome h, ?_⟩
  intro hold hnew
  obtain ⟨credentials, hc⟩ := Option.isSome_iff_exists.mp (hbefore hold)
  subst hc
  exact ⟨credentials, rfl, Chance.buildProtocolCredentials_kept hnew h⟩

/-- The five protocols in their order, each with the ports allocated before it. -/
theorem Chance.buildCredentials_ok {existing : Option DeploymentConfig}
    {credentials : ProtocolCredentials}
    (h : chance.buildCredentials existing options = .ok credentials) :
    ∃ l₁ l₂ l₃ l₄ l₅,
      chance.buildProtocolCredentials chance.generateVlessRealityCredentials .vlessReality
        (existing.bind (·.vlessReality)) options [] = .ok (credentials.vlessReality, l₁) ∧
      chance.buildProtocolCredentials chance.generateVmessWebsocketCredentials .vmessWebsocket
        (existing.bind (·.vmessWebsocket)) options l₁ = .ok (credentials.vmessWebsocket, l₂) ∧
      chance.buildProtocolCredentials chance.generateHysteria2Credentials .hysteria2
        (existing.bind (·.hysteria2)) options l₂ = .ok (credentials.hysteria2, l₃) ∧
      chance.buildProtocolCredentials chance.generateTuicCredentials .tuic
        (existing.bind (·.tuic)) options l₃ = .ok (credentials.tuic, l₄) ∧
      chance.buildProtocolCredentials chance.generateAnytlsCredentials .anytls
        (existing.bind (·.anytls)) options l₄ = .ok (credentials.anytls, l₅) := by
  obtain ⟨⟨_, l₁⟩, hvless, h⟩ := bind_ok.mp h
  obtain ⟨⟨_, l₂⟩, hvmess, h⟩ := bind_ok.mp h
  obtain ⟨⟨_, l₃⟩, hhysteria2, h⟩ := bind_ok.mp h
  obtain ⟨⟨_, l₄⟩, htuic, h⟩ := bind_ok.mp h
  obtain ⟨⟨_, l₅⟩, hanytls, h⟩ := bind_ok.mp h
  cases h
  exact ⟨l₁, l₂, l₃, l₄, l₅, hvless, hvmess, hhysteria2, htuic, hanytls⟩

theorem applyOptions_ok {config : DeploymentConfig}
    (h : applyOptions lib chance (some existing) options = .ok config) :
    ∃ credentials, chance.buildCredentials (some existing) options = .ok credentials ∧
      config = rebuilt (some existing) options existing.subscriptionCredential credentials ∧
      Accepted lib config := by
  obtain ⟨_, -, h⟩ := bind_ok.mp h
  obtain ⟨credentials, hbuild, h⟩ := bind_ok.mp h
  obtain ⟨_, hdefault, h⟩ := bind_ok.mp h
  obtain ⟨_, hvalid, h⟩ := bind_ok.mp h
  cases h
  cases hdefault
  exact ⟨credentials, hbuild, rfl, hvalid⟩

theorem kept_of_applyOptions (h : Accepted lib existing) {config : DeploymentConfig}
    (happly : applyOptions lib chance (some existing) options = .ok config) :
    Kept existing options config := by
  have hcredentials := fun protocol =>
    @validateProtocols_credentials lib existing (accepted_iff.mp h).2.2.1 protocol
  obtain ⟨credentials, hbuild, hconfig, -⟩ := applyOptions_ok happly
  subst hconfig
  obtain ⟨_, _, _, _, _, hvless, hvmess, hhysteria2, htuic, hanytls⟩ :=
    Chance.buildCredentials_ok hbuild
  constructor
  case vlessReality => exact credentialsKept (hcredentials .vlessReality) hvless
  case vmessWebsocket => exact credentialsKept (hcredentials .vmessWebsocket) hvmess
  case hysteria2 => exact credentialsKept (hcredentials .hysteria2) hhysteria2
  case tuic => exact credentialsKept (hcredentials .tuic) htuic
  case anytls => exact credentialsKept (hcredentials .anytls) hanytls
  case hysteria2PortHopping =>
    by_cases hmem : .hysteria2 ∈ options.enabledProtocols
    · cases hhop : existing.hysteria2PortHopping <;> simp [rebuilt, hmem, hhop]
    · simp [rebuilt, hmem]
  all_goals rfl

/-! ## Options read back -/

/-- Options that name what the deployment already has. A port may be left out. -/
structure ReadBack (existing : DeploymentConfig) (options : DeploymentOptions) : Prop where
  subscriptionMode : options.subscriptionMode = existing.subscriptionMode
  subscriptionHost : options.subscriptionHost = existing.subscriptionHost
  proxyHost : options.proxyHost = existing.proxyHost
  certbotEmail : options.certbotEmail = existing.certbotEmail
  httpPort : options.httpPort = existing.httpPort
  subscriptionListenPort : options.subscriptionListenPort = existing.subscriptionListenPort
  certificateMode : options.certificateMode = existing.certificateMode
  interface : options.interface = existing.interface
  enabledProtocols : options.enabledProtocols = existing.enabledProtocols
  realityDecoySni : options.realityDecoySni = existing.realityDecoySni
  protocolSni : options.protocolSni = existing.protocolSni
  monthlyTrafficLimit : options.monthlyTrafficLimit = existing.monthlyTrafficLimit
  accountingPolicy : options.accountingPolicy = existing.accountingPolicy
  accountingTimezone : options.accountingTimezone = existing.accountingTimezone
  clientDisplayTimezone : options.clientDisplayTimezone = existing.clientDisplayTimezone
  anchoredResetAt : options.anchoredResetAt = existing.anchoredResetAt
  ports : ∀ protocol, options.ports.requested protocol = none ∨
    options.ports.requested protocol = existing.protocolListenerPort protocol

/-- The credentials of a deployment are those of its enabled protocols. -/
def DeploymentConfig.CredentialsExact (config : DeploymentConfig) : Prop :=
  ∀ protocol, config.hasCredentials protocol ↔ protocol ∈ config.enabledProtocols

theorem validateListenerPorts_range {before ports : List UInt16}
    (h : validateListenerPorts before ports = .ok ()) :
    ∀ port ∈ ports, minProtocolPort ≤ port ∧ port ≤ maxProtocolPort := by
  induction ports generalizing before with
  | nil => simp
  | cons port ports ih =>
    simp only [validateListenerPorts, check_ok, rejectIf_ok, not_not] at h
    intro p hp
    rcases List.mem_cons.mp hp with rfl | hp
    · exact h.1
    · exact ih h.2.2 p hp

theorem validateProtocols_ports {config : DeploymentConfig}
    (h : validateProtocols lib config = .ok ()) :
    validateListenerPorts [] config.protocolListenerPorts = .ok () := by
  simp only [validateProtocols, check_ok] at h
  exact h.2.1

theorem validateRequestedPorts_readBack (h : validateProtocols lib existing = .ok ())
    (hexact : existing.CredentialsExact) (hread : ReadBack existing options)
    {protocols : List ManagedProtocol} (hnodup : protocols.Nodup) {values : List UInt16}
    (hvalues : ∀ value ∈ values, ∃ protocol, protocol ∉ protocols ∧
      existing.protocolListenerPort protocol = some value) :
    validateRequestedPorts options.enabledProtocols options.ports values protocols = .ok () := by
  have hports := validateProtocols_ports h
  induction protocols generalizing values with
  | nil => rfl
  | cons protocol protocols ih =>
    obtain ⟨hfirst, hrest⟩ := List.nodup_cons.mp hnodup
    unfold validateRequestedPorts
    cases hp : options.ports.requested protocol with
    | none =>
      refine ih hrest fun value hv => ?_
      obtain ⟨other, hother, hport⟩ := hvalues value hv
      exact ⟨other, fun hc => hother (List.mem_cons_of_mem _ hc), hport⟩
    | some port =>
      have hcurrent : existing.protocolListenerPort protocol = some port := by
        rcases hread.ports protocol with hnone | hsome
        · rw [hnone] at hp
          cases hp
        · rw [← hsome, hp]
      simp only [check_ok, rejectIf_ok, not_not]
      refine ⟨?_, ?_, ?_, ih hrest ?_⟩
      · rw [hread.enabledProtocols]
        exact (hexact protocol).mp (hasCredentials_iff.mpr ⟨port, hcurrent⟩)
      · exact validateListenerPorts_range hports port
          (DeploymentConfig.mem_protocolListenerPorts.mpr ⟨protocol, hcurrent⟩)
      · intro hmem
        obtain ⟨other, hother, hport⟩ := hvalues port hmem
        apply hother
        rw [DeploymentConfig.protocolListenerPort_injective (validateListenerPorts_ok hports).1
          hport hcurrent]
        exact List.mem_cons_self
      · intro value hv
        rcases List.mem_cons.mp hv with rfl | hv
        · exact ⟨protocol, hfirst, hcurrent⟩
        · obtain ⟨other, hother, hport⟩ := hvalues value hv
          exact ⟨other, fun hc => hother (List.mem_cons_of_mem _ hc), hport⟩

/-- The ports a deployment listens on for some of its protocols. -/
def DeploymentConfig.portsFor (config : DeploymentConfig) (protocols : List ManagedProtocol) :
    List UInt16 :=
  protocols.flatMap fun protocol => (config.protocolListenerPort protocol).toList

theorem buildProtocolCredentials_readBack {α : Type} [Listening α] (recipe : Recipe α)
    (h : validateProtocols lib existing = .ok ()) (hread : ReadBack existing options)
    {protocol : ManagedProtocol} {credentials : Option α} {earlier : List ManagedProtocol}
    (hexact : credentials.isSome ↔ protocol ∈ existing.enabledProtocols)
    (hport : existing.protocolListenerPort protocol = credentials.map Listening.port)
    (hnew : protocol ∉ earlier) :
    chance.buildProtocolCredentials recipe protocol credentials options
      (existing.portsFor earlier) = .ok (credentials, existing.portsFor (protocol :: earlier)) := by
  have hrequested := hread.ports protocol
  rw [← hread.enabledProtocols] at hexact
  unfold Chance.buildProtocolCredentials
  cases credentials with
  | none =>
    rw [if_pos fun hc => Bool.false_ne_true (hexact.mpr hc)]
    simp [DeploymentConfig.portsFor, hport]
  | some current =>
    rw [if_neg (not_not_intro (hexact.mp rfl))]
    have hfree : Listening.port current ∉ existing.portsFor earlier := by
      intro hmem
      obtain ⟨other, hother, hp⟩ := List.mem_flatMap.mp hmem
      apply hnew
      rw [← DeploymentConfig.protocolListenerPort_injective (validateProtocols_nodup h)
        (Option.mem_toList.mp hp) hport]
      exact hother
    have hcons : existing.portsFor (protocol :: earlier) =
        Listening.port current :: existing.portsFor earlier := by
      simp [DeploymentConfig.portsFor, hport]
    have happly : chance.applyExistingPort protocol (Listening.port current)
        (options.ports.requested protocol) (existing.portsFor earlier) =
        .ok (Listening.port current, existing.portsFor (protocol :: earlier)) := by
      rcases hrequested with hr | hr <;>
        simp [hr, hport, hcons, Chance.applyExistingPort, Chance.existingPort_eq, rejectIf, hfree, Chance.probeIfMoved, bind,
          Except.bind, pure, Except.pure]
    simp [happly, bind, Except.bind, pure, Except.pure]

theorem buildCredentials_readBack (h : validateProtocols lib existing = .ok ())
    (hexact : existing.CredentialsExact) (hread : ReadBack existing options) :
    chance.buildCredentials (some existing) options = .ok
      { vlessReality := existing.vlessReality, vmessWebsocket := existing.vmessWebsocket,
        hysteria2 := existing.hysteria2, tuic := existing.tuic, anytls := existing.anytls } := by
  apply bind_ok.mpr
  refine ⟨_, buildProtocolCredentials_readBack _ h hread (hexact .vlessReality) rfl
    (List.not_mem_nil), bind_ok.mpr ⟨_, buildProtocolCredentials_readBack _ h hread
    (hexact .vmessWebsocket) rfl (by decide), bind_ok.mpr ⟨_, buildProtocolCredentials_readBack _ h
    hread (hexact .hysteria2) rfl (by decide), bind_ok.mpr ⟨_, buildProtocolCredentials_readBack _ h
    hread (hexact .tuic) rfl (by decide), bind_ok.mpr ⟨_, buildProtocolCredentials_readBack _ h
    hread (hexact .anytls) rfl (by decide), rfl⟩⟩⟩⟩⟩

theorem rebuilt_readBack (h : Accepted lib existing) (hread : ReadBack existing options) :
    rebuilt (some existing) options existing.subscriptionCredential
      { vlessReality := existing.vlessReality, vmessWebsocket := existing.vmessWebsocket,
        hysteria2 := existing.hysteria2, tuic := existing.tuic, anytls := existing.anytls } =
      existing.lowered := by
  have hhop : ∀ hop, existing.hysteria2PortHopping = some hop →
      .hysteria2 ∈ existing.enabledProtocols := by
    intro hop hh
    have hvalid := (accepted_iff.mp h).1
    simp only [PortHopping.validate, hh, check_ok, rejectIf_ok, not_or, not_not] at hvalid
    exact hvalid.1.1
  have hfilter : existing.hysteria2PortHopping.filter
      (fun _ => .hysteria2 ∈ existing.enabledProtocols) = existing.hysteria2PortHopping := by
    cases hh : existing.hysteria2PortHopping with
    | none => rfl
    | some hop => simp [hhop hop hh]
  obtain ⟨h₁, h₂, h₃, h₄, h₅, h₆, h₇, h₈, h₉, h₁₀, h₁₁, h₁₂, h₁₃, h₁₄, h₁₅, h₁₆, -⟩ := hread
  simp only [rebuilt, DeploymentConfig.lowered, Option.bind_some, Option.map_some, Option.getD_some,
    Option.any_some, hfilter, h₁, h₂, h₃, h₄, h₅, h₆, h₇, h₈, h₉, h₁₀, h₁₁, h₁₂, h₁₃, h₁₄, h₁₅, h₁₆]

/-- An edit with the options read back only puts the host names in lower case. -/
theorem applyOptions_readBack (h : Accepted lib existing) (hexact : existing.CredentialsExact)
    (hread : ReadBack existing options) :
    applyOptions lib chance (some existing) options =
      (validate lib existing.lowered).map fun () => existing.lowered := by
  have hprotocols := (accepted_iff.mp h).2.2.1
  have hrequested : validateRequestedPorts options.enabledProtocols options.ports [] protocolOrder =
      .ok () := validateRequestedPorts_readBack hprotocols hexact hread (by decide) (by simp)
  unfold applyOptions
  rw [hrequested, buildCredentials_readBack hprotocols hexact hread]
  simp only [Chance.defaultCredential, bind, Except.bind, rebuilt_readBack h hread]
  cases validate lib existing.lowered <;> rfl

end

/-- An edit changes what the options name and nothing else; with the options
read back from the deployment it at most puts the host names in lower case. -/
theorem applyOptions_keeps {lib : Libraries} {existing : DeploymentConfig}
    (h : Accepted lib existing) :
    (∀ chance options config,
      applyOptions lib chance (some existing) options = .ok config →
        Kept existing options config) ∧
    (existing.CredentialsExact → ∀ chance options, ReadBack existing options →
      (∀ config, applyOptions lib chance (some existing) options = .ok config →
        config = existing.lowered) ∧
      ((∀ host, lib.isIpAddr (toAsciiLowercase host) = lib.isIpAddr host) →
        applyOptions lib chance (some existing) options = .ok existing.lowered)) := by
  refine ⟨fun chance options config => kept_of_applyOptions h, ?_⟩
  intro hexact chance options hread
  rw [applyOptions_readBack h hexact hread]
  refine ⟨?_, fun hip => ?_⟩
  · intro config hconfig
    obtain ⟨_, -, hconfig⟩ := map_ok.mp hconfig
    exact hconfig.symm
  · rw [show validate lib existing.lowered = .ok () from (accepted_lowered hip).mpr h]
    rfl

/-- The options of a deployment, with the ports it has. -/
def DeploymentConfig.options (config : DeploymentConfig) : DeploymentOptions where
  subscriptionMode := config.subscriptionMode
  subscriptionHost := config.subscriptionHost
  proxyHost := config.proxyHost
  certbotEmail := config.certbotEmail
  httpPort := config.httpPort
  subscriptionListenPort := config.subscriptionListenPort
  certificateMode := config.certificateMode
  interface := config.interface
  enabledProtocols := config.enabledProtocols
  realityDecoySni := config.realityDecoySni
  protocolSni := config.protocolSni
  monthlyTrafficLimit := config.monthlyTrafficLimit
  accountingPolicy := config.accountingPolicy
  accountingTimezone := config.accountingTimezone
  clientDisplayTimezone := config.clientDisplayTimezone
  anchoredResetAt := config.anchoredResetAt
  ports :=
    { vlessReality := config.vlessPort, vmessWebsocket := config.vmessPort,
      hysteria2 := config.hysteria2Port, tuic := config.tuicPort, anytls := config.anytlsPort }

theorem readBack_options (config : DeploymentConfig) : ReadBack config config.options := by
  constructor
  case ports =>
    intro protocol
    right
    cases protocol <;> rfl
  all_goals rfl

/-- The sample deployment with a capital letter in its host name. -/
def capitalConfig : DeploymentConfig := { sampleConfig with subscriptionHost := "Sub.example.com" }

theorem capitalConfig_accepted : Accepted sampleLibraries capitalConfig := by
  unfold Accepted
  decide

theorem capitalConfig_exact : capitalConfig.CredentialsExact := by
  intro protocol
  cases protocol <;> decide

/-- A random source and a host that refuse nothing. -/
def sampleChance : Chance where
  secret := fun _ => .ok "s"
  draw := fun _ left => .ok (UInt32.ofNat left)
  holder := fun _ _ _ => none
  publicKey := id

/-- The options read back do not reproduce a host name in capitals. -/
theorem edit_lowers_host : Accepted sampleLibraries capitalConfig ∧
    capitalConfig.CredentialsExact ∧ ReadBack capitalConfig capitalConfig.options ∧
    applyOptions sampleLibraries sampleChance (some capitalConfig) capitalConfig.options =
      .ok capitalConfig.lowered ∧ capitalConfig.lowered ≠ capitalConfig := by
  refine ⟨capitalConfig_accepted, capitalConfig_exact, readBack_options _, ?_, by decide +kernel⟩
  rw [applyOptions_readBack capitalConfig_accepted capitalConfig_exact (readBack_options _),
    show validate sampleLibraries capitalConfig.lowered = .ok () from
      (accepted_lowered fun _ => rfl).mpr capitalConfig_accepted]
  rfl

theorem applyOptions_keeps_capital :
    applyOptions sampleLibraries sampleChance (some capitalConfig) capitalConfig.options =
        .ok capitalConfig.lowered ∧
      Kept capitalConfig capitalConfig.options capitalConfig.lowered := by
  have h := applyOptions_keeps capitalConfig_accepted
  have hrun := (h.2 capitalConfig_exact sampleChance _ (readBack_options _)).2 fun _ => rfl
  exact ⟨hrun, h.1 _ _ _ hrun⟩

end Sbctl
