import Sbctl.Options
import Sbctl.ShareLinks
import Sbctl.Lib.Dialog

/-!
# The configuration wizard

The wizard asks for each field with the current value as the default and offers
the configuration the answers make. An empty answer keeps the current value.
Reports to the administrator are not part of a dialogue.
-/

namespace Sbctl

def SubscriptionMode.display : SubscriptionMode → String
  | .direct => "direct"
  | .externalProxy => "external-proxy"
  | .ipFallback => "ip-fallback"

def CertificateMode.display : CertificateMode → String
  | .domain => "domain"
  | .selfSigned => "self-signed"

def AccountingPolicy.display : AccountingPolicy → String
  | .naturalMonth => "natural-month"
  | .anchoredMonth => "anchored-month"

def ClientDnsMode.display : ClientDnsMode → String
  | .fakeIp => "fake-ip"
  | .redirHost => "redir-host"

def ClientDnsPreset.display : ClientDnsPreset → String
  | .cnDirect => "cn-direct"
  | .privacy => "privacy"

def ClientRuleProfile.display : ClientRuleProfile → String
  | .standard => "standard"
  | .minimal => "minimal"

def ClientTemplate.display : ClientTemplate → String
  | .standard => "standard"
  | .global => "global"
  | .split => "split"
  | .compact => "compact"

/-- The listener port of one protocol, asked for or left to the program. -/
def ProtocolPorts.set (ports : ProtocolPorts) (protocol : ManagedProtocol) (port : Option UInt16) :
    ProtocolPorts :=
  match protocol with
  | .vlessReality => { ports with vlessReality := port }
  | .vmessWebsocket => { ports with vmessWebsocket := port }
  | .hysteria2 => { ports with hysteria2 := port }
  | .tuic => { ports with tuic := port }
  | .anytls => { ports with anytls := port }

def ProtocolPorts.none : ProtocolPorts := ⟨.none, .none, .none, .none, .none⟩

namespace Wizard

open Dialog Text

inductive WizardError where
  | config (error : ConfigError)
  | invalid (message : String)
  deriving DecidableEq, Repr

inductive WizardOutcome where
  | cancelled
  | unchanged
  | changed (config : DeploymentConfig)
  deriving DecidableEq

inductive ConfigurationTopic where
  | subscription
  | protocols
  | traffic
  | clientTemplate
  | portHopping
  deriving DecidableEq, Repr

abbrev Asking := Session WizardError

/-- What the wizard has from outside: the random source, the reader of amounts
such as `100.5GB`, and how often a question is put again. -/
structure Env where
  chance : Chance
  parseTrafficAmount : String → Except String UInt64
  patience : Nat

def Env.fuel (env : Env) : Nat := env.patience + 1

/-! ## Reading an answer -/

def strip (value : String) : String := String.ofList (trim value.toList)

/-- A word read without regard to case. -/
def parseKeyword {α : Type} (table : List (String × α)) (message value : String) :
    Except String α :=
  match table.lookup (toAsciiLowercase (strip value)) with
  | some a => .ok a
  | none => .error message

def parseCertificateMode : String → Except String CertificateMode :=
  parseKeyword [("domain", .domain), ("1", .domain), ("self-signed", .selfSigned),
    ("2", .selfSigned)] "证书模式必须是 domain 或 self-signed"

def parseMode : String → Except String SubscriptionMode :=
  parseKeyword [("direct", .direct), ("1", .direct), ("external-proxy", .externalProxy),
    ("2", .externalProxy), ("ip-fallback", .ipFallback), ("3", .ipFallback)]
    "订阅模式必须是 direct、external-proxy 或 ip-fallback"

def parsePolicy : String → Except String AccountingPolicy :=
  parseKeyword [("natural-month", .naturalMonth), ("natural", .naturalMonth),
    ("1", .naturalMonth), ("anchored-month", .anchoredMonth), ("anchored", .anchoredMonth),
    ("2", .anchoredMonth)] "账期策略必须是 natural-month 或 anchored-month"

def parseDnsPreset : String → Except String ClientDnsPreset :=
  parseKeyword [("cn-direct", .cnDirect), ("1", .cnDirect), ("privacy", .privacy),
    ("2", .privacy)] "DNS 档位必须是 cn-direct 或 privacy"

def parseYesNo : String → Except String Bool :=
  parseKeyword [("yes", true), ("y", true), ("1", true), ("no", false), ("n", false),
    ("2", false), ("", false)] "请选择 yes 或 no"

def parseDnsMode : String → Except String ClientDnsMode :=
  parseKeyword [("fake-ip", .fakeIp), ("1", .fakeIp), ("redir-host", .redirHost),
    ("2", .redirHost)] "DNS 模式必须是 fake-ip 或 redir-host"

def parseRuleProfile : String → Except String ClientRuleProfile :=
  parseKeyword [("standard", .standard), ("1", .standard), ("minimal", .minimal),
    ("2", .minimal)] "规则档位必须是 standard 或 minimal"

/-- The two legacy templates are read but not offered. -/
def parseClientTemplate : String → Except String ClientTemplate :=
  parseKeyword [("compact", .compact), ("1", .compact), ("standard", .standard),
    ("2", .standard), ("global", .global), ("split", .split)]
    "内容模板必须是 compact 或 standard"

/-- A text that holds after white space is dropped around it. -/
def parseStripped (holds : String → Bool) (message value : String) : Except String String :=
  if holds (strip value) then .ok (strip value) else .error message

def hostIsValid (lib : Libraries) (value : String) : Bool := (validateHost lib "host" value).isOk

def hostnameIsValid (value : String) : Bool := (validateHostname "hostname" value).isOk

def parseHost (lib : Libraries) : String → Except String String :=
  parseStripped (hostIsValid lib) "Subscription host 必须是合法主机名或 IP 地址"

def parseOptionalHost (lib : Libraries) : String → Except String String :=
  parseStripped (hostIsValid lib) "Proxy host 必须是合法主机名或 IP 地址；不需要请直接回车"

def parseHostname : String → Except String String :=
  parseStripped hostnameIsValid "Reality decoy SNI 必须是合法主机名"

/-- A leading dot is left to the validation of the whole configuration. -/
def parseInterface : String → Except String String :=
  parseStripped
    (fun value => value ≠ "" ∧ value.utf8ByteSize ≤ 15 ∧
      value.toList.all fun c => isAsciiAlphanumeric c || c == '_' || c == '-' || c == '.')
    "网卡必须是有效的 Linux interface 名称"

def parseTimezone (lib : Libraries) : String → Except String String :=
  parseStripped (fun value => (lib.parseTz value).isSome)
    "必须是有效 IANA 时区，例如 Asia/Shanghai 或 America/Los_Angeles"

def parseResetAt (lib : Libraries) : String → Except String String :=
  parseStripped (fun value => (lib.parseNaiveDateTime value).isSome)
    "必须使用 YYYY-MM-DDTHH:MM 格式"

def parseAccountingTimezone (lib : Libraries) (value : String) : Except String String :=
  match strip value with
  | "1" => .ok "America/Los_Angeles"
  | "2" => .ok "America/New_York"
  | "3" => .ok "Asia/Shanghai"
  | _ => parseTimezone lib value

def parsePort (cs : List Char) : Option UInt16 := (parseUnsigned 65535 cs).map UInt16.ofNat

/-- A port between the bounds. -/
def parsePortIn (low high : UInt16) (message value : String) : Except String UInt16 :=
  match parsePort (trim value.toList) with
  | none => .error "端口必须是数字"
  | some port => if low ≤ port ∧ port ≤ high then .ok port else .error message

def parseHighPort : String → Except String UInt16 :=
  parsePortIn 1025 65535 "端口必须大于 1024"

def parseProtocolPort : String → Except String UInt16 :=
  parsePortIn 10000 65535 "Managed protocol 端口必须在 10000-65535"

/-- A local part and a valid domain with one `@` between them. -/
def emailValid (lib : Libraries) (value : String) : Bool :=
  let domainValid := (splitOnce '@' value.toList).any fun (localPart, domain) =>
    !localPart.isEmpty && !domain.isEmpty && hostIsValid lib (String.ofList domain)
  !value.toList.any isWhitespace && value.toList.count '@' == 1 && domainValid

/-- An empty address skips the registration. -/
def parseCertbotEmail (lib : Libraries) : String → Except String String :=
  parseStripped (fun value => value = "" || emailValid lib value)
    "邮箱格式无效（示例 admin@example.com）；该邮箱仅用于证书到期通知，可留空跳过"

def trimEndSlashes (cs : List Char) : List Char := (cs.reverse.dropWhile (· == '/')).reverse

def parseHttpUrlAnswer (value : String) : Except String String :=
  let cs := trim value.toList
  if startsWith cs "http://".toList || startsWith cs "https://".toList then
    .ok (String.ofList (trimEndSlashes cs))
  else .error "必须是 http:// 或 https:// 开头的 URL"

/-- One word; four words are read as no secret or a random one, and so is `1`. -/
def parseClashApiSecret (value : String) : Except String String :=
  let trimmed := trim value.toList
  if trimmed = [] ∨ 1 < (words trimmed).length then
    .error "secret 只能是单个不含空格的词，或留空 / random"
  else match toAsciiLowercase (String.ofList trimmed) with
    | "none" | "off" | "0" => .ok "none"
    | "random" | "1" => .ok "random"
    | _ => .ok (String.ofList trimmed)

/-! ## Questions -/

def unreadable (message : String) : WizardError :=
  .invalid ("当前保存的值无法解析（" ++ message ++ "）；请重新输入一个合法值")

def require {α : Type} (env : Env) (current : Option String) (parse : String → Except String α) :
    Asking α :=
  askRequired unreadable parse current env.fuel

def askOptional {α : Type} (env : Env) (current : Option String)
    (parse : String → Except String α) : Asking (Option α) :=
  askValue unreadable parse current env.fuel

def liftConfig {α : Type} : Except ConfigError α → Asking α
  | .ok a => return a
  | .error e => throw (.config e)

/-- The exact limit is kept on an empty answer, not the one displayed. -/
def askTrafficLimit (env : Env) (current : UInt64) : Nat → Asking UInt64
  | 0 => goesOn
  | fuel + 1 => do
    let answer ← ask
    if strip answer = "" then return current
    else match env.parseTrafficAmount answer with
      | .ok value => return value
      | .error _ => askTrafficLimit env current fuel

def askYesNo (default : Bool) : Nat → Asking Bool
  | 0 => goesOn
  | fuel + 1 => do
    let answer ← ask
    match toAsciiLowercase (strip answer) with
    | "" => return default
    | "1" | "y" | "yes" => return true
    | "2" | "n" | "no" => return false
    | _ => askYesNo default fuel

/-- The stored name is kept as it is; `1` drops it. -/
def askProtocolSni (current : Option String) : Nat → Asking (Option String)
  | 0 => goesOn
  | fuel + 1 => do
    let answer ← ask
    match strip answer with
    | "1" => return none
    | "" => return current
    | value =>
      match parseHostname value with
      | .ok host => return some host
      | .error _ => askProtocolSni current fuel

/-- Without an address the registration goes on only when that is confirmed. -/
def askCertbotEmail (lib : Libraries) (env : Env) (current : Option String) :
    Nat → Asking (Option String)
  | 0 => goesOn
  | fuel + 1 => do
    let email ← askOptional env current (parseCertbotEmail lib)
    match email.filter fun email => strip email ≠ "" with
    | some email => return some email
    | none =>
      if ← confirm false then return none
      else askCertbotEmail lib env none fuel

/-- Only a mode with certificates asks for the address. -/
def emailFor (lib : Libraries) (env : Env) (mode : SubscriptionMode) (current : Option String) :
    Asking (Option String) :=
  if mode = .direct then askCertbotEmail lib env current env.fuel else return none

def certificateProtocols (protocols : List ManagedProtocol) : Bool :=
  protocols.any protocolNeedsCertificate

/-- Protocols that stay enabled keep their place, new ones are put at the end. -/
def mergeProtocolOrder (existing : Option (List ManagedProtocol)) (selected : List ManagedProtocol) :
    List ManagedProtocol :=
  let merged := (existing.getD []).filter (· ∈ selected)
  selected.foldl (fun merged protocol => if protocol ∈ merged then merged else merged ++ [protocol])
    merged

def clearPortsForDisabled (ports : ProtocolPorts) (enabled : List ManagedProtocol) :
    ProtocolPorts :=
  protocolOrder.foldl
    (fun ports protocol => if protocol ∈ enabled then ports else ports.set protocol none) ports

/-- The protocols that are chosen, in the fixed order. -/
def askProtocols (env : Env) (enabled : ManagedProtocol → Bool) :
    List ManagedProtocol → Asking (List ManagedProtocol)
  | [] => return []
  | protocol :: protocols => do
    let chosen ← askYesNo (enabled protocol) env.fuel
    let selected ← askProtocols env enabled protocols
    return if chosen then protocol :: selected else selected

def portText (port : UInt16) : String := String.ofList (decimal port.toNat)

def askPorts (env : Env) (current : ManagedProtocol → Option UInt16) (ports : ProtocolPorts) :
    List ManagedProtocol → Asking ProtocolPorts
  | [] => return ports
  | protocol :: protocols => do
    let port ← askOptional env ((current protocol).map portText) parseProtocolPort
    askPorts env current (ports.set protocol port) protocols

def askWhen {α : Type} (asked : Bool) (question : Asking α) : Asking (Option α) :=
  if asked then return some (← question) else return none

/-! ## The client template -/

def panelSecret (env : Env) : String → Asking (Option String)
  | "" | "none" | "off" | "0" => return none
  | "random" | "1" => return some (← liftConfig (env.chance.text .subscription))
  | explicit => return some explicit

def askClientTemplateFields (env : Env) (config : DeploymentConfig) : Asking DeploymentConfig := do
  let clientTemplate ← require env (some config.clientTemplate.display) parseClientTemplate
  let clientDnsMode ← require env (some config.clientDnsMode.display) parseDnsMode
  let clientDnsPreset ← require env (some config.clientDnsPreset.display) parseDnsPreset
  let ipv4Only ← require env (some (if config.ipv4Only then "yes" else "no")) parseYesNo
  let clientRuleProfile ← require env (some config.clientRuleProfile.display) parseRuleProfile
  let clientRuleSetBaseUrl ← require env (some config.clientRuleSetBaseUrl) parseHttpUrlAnswer
  let clientLatencyProbeUrl ← require env (some config.clientLatencyProbeUrl) parseHttpUrlAnswer
  let secret ← require env (some (config.clientClashApiSecret.getD "none")) parseClashApiSecret
  let clientClashApiSecret ← panelSecret env secret
  return { config with
    clientTemplate, clientDnsMode, clientDnsPreset, ipv4Only, clientRuleProfile,
    clientRuleSetBaseUrl, clientLatencyProbeUrl, clientClashApiSecret }

def askClientTemplatePreset (env : Env) (config : DeploymentConfig) : Asking ClientTemplate :=
  require env (some config.clientTemplate.display) parseClientTemplate

/-! ## The accounting schedule -/

structure Schedule where
  monthlyTrafficLimit : UInt64
  accountingTimezone : String
  clientDisplayTimezone : String
  accountingPolicy : AccountingPolicy
  anchoredResetAt : Option String

def scheduleOf (config : DeploymentConfig) : Schedule where
  monthlyTrafficLimit := config.monthlyTrafficLimit
  accountingTimezone := config.accountingTimezone
  clientDisplayTimezone := config.clientDisplayTimezone
  accountingPolicy := config.accountingPolicy
  anchoredResetAt := config.anchoredResetAt

def askSchedule (lib : Libraries) (env : Env) (current : Schedule) : Asking Schedule := do
  let monthlyTrafficLimit ← askTrafficLimit env current.monthlyTrafficLimit env.fuel
  let accountingTimezone ←
    require env (some current.accountingTimezone) (parseAccountingTimezone lib)
  let clientDisplayTimezone ←
    require env (some current.clientDisplayTimezone) (parseTimezone lib)
  let accountingPolicy ← require env (some current.accountingPolicy.display) parsePolicy
  let anchoredResetAt ← askWhen (accountingPolicy = .anchoredMonth)
    (require env current.anchoredResetAt (parseResetAt lib))
  return Schedule.mk monthlyTrafficLimit accountingTimezone clientDisplayTimezone accountingPolicy
    anchoredResetAt

def freshSchedule : Schedule where
  monthlyTrafficLimit := 0
  accountingTimezone := "America/Los_Angeles"
  clientDisplayTimezone := "Asia/Shanghai"
  accountingPolicy := .naturalMonth
  anchoredResetAt := none

/-- A first installation is not asked for its schedule here. -/
def scheduleFor (lib : Libraries) (env : Env) : Option DeploymentConfig → Asking Schedule
  | some config => askSchedule lib env (scheduleOf config)
  | none => return freshSchedule

/-- The optional questions of a first installation. -/
def askInitialCustomization (lib : Libraries) (env : Env) (config : DeploymentConfig) :
    Asking DeploymentConfig := do
  let config ←
    if ← confirm false then
      let clientTemplate ← askClientTemplatePreset env config
      pure { config with clientTemplate }
    else pure config
  let config ←
    if ← confirm false then
      let schedule ← askSchedule lib env (scheduleOf config)
      pure { config with
        monthlyTrafficLimit := schedule.monthlyTrafficLimit
        accountingTimezone := schedule.accountingTimezone
        clientDisplayTimezone := schedule.clientDisplayTimezone
        accountingPolicy := schedule.accountingPolicy
        anchoredResetAt := schedule.anchoredResetAt }
    else pure config
  liftConfig (validate lib config)
  return config

/-! ## Port hopping -/

inductive HoppingChoice where
  | cancel
  | off
  | on
  deriving DecidableEq, Repr

def askHopping (enabled : Bool) : Nat → Asking HoppingChoice
  | 0 => goesOn
  | fuel + 1 => do
    let answer ← ask
    match answer with
    | "0" => return .cancel
    | "2" => return .off
    | "1" => return .on
    | "" => return if enabled then .on else .off
    | _ => askHopping enabled fuel

def defaultHopping : PortHopping := { start := 20000, «end» := 30000, intervalSeconds := 30 }

def hoppingRange (current : PortHopping) : String → List Char
  | "" => current.range
  | "1" => "20000-30000".toList
  | "2" => "40000-50000".toList
  | range => range.toList

def parseRange (range : List Char) : Option (UInt16 × UInt16) := do
  let (first, last) ← splitOnce '-' range
  return (← parsePort first, ← parsePort last)

def hoppingInterval (current : PortHopping) : String → Option UInt16
  | "" => some current.intervalSeconds
  | "1" => some 30
  | "2" => some 60
  | interval => parsePort interval.toList

/-- Asks for a range and an interval until the configuration may have them. -/
def askHoppingRange (config : DeploymentConfig) : Nat → Asking DeploymentConfig
  | 0 => goesOn
  | fuel + 1 => do
    let current := config.hysteria2PortHopping.getD defaultHopping
    let range ← ask
    match parseRange (hoppingRange current range) with
    | none => askHoppingRange config fuel
    | some (start, last) => do
      let interval ← ask
      match hoppingInterval current interval with
      | none => askHoppingRange config fuel
      | some intervalSeconds =>
        let hopping : PortHopping := { start, «end» := last, intervalSeconds }
        let edited := { config with hysteria2PortHopping := some hopping }
        match PortHopping.validate edited with
        | .ok () => return edited
        | .error _ => askHoppingRange config fuel

def configureHopping (env : Env) (config : DeploymentConfig) : Asking DeploymentConfig :=
  if .hysteria2 ∉ config.enabledProtocols then throw (.invalid "请先在协议设置中启用 Hysteria2")
  else do
    match ← askHopping config.hysteria2PortHopping.isSome env.fuel with
    | .cancel => return config
    | .off => return { config with hysteria2PortHopping := none }
    | .on => askHoppingRange config env.fuel

/-! ## The dialogues -/

/-- Nothing is offered when nothing changed. -/
def conclude (existing : Option DeploymentConfig) (new : DeploymentConfig) :
    Asking WizardOutcome :=
  if existing = some new then return .unchanged
  else do
    if ← confirm false then return .changed new else return .cancelled

def protocolSniOf (env : Env) (enabled : List ManagedProtocol)
    (current : Option String) : Asking (Option String) :=
  if certificateProtocols enabled then askProtocolSni current env.fuel else return none

/-- The whole wizard, for a deployment or for a first one. -/
def run (lib : Libraries) (env : Env) (existing : Option DeploymentConfig)
    (defaultInterface : Option String) : Asking WizardOutcome := do
  let subscriptionMode ← require env
    ((existing.map fun config => config.subscriptionMode.display).getD
      SubscriptionMode.direct.display) parseMode
  let subscriptionHost ← require env (existing.map (·.subscriptionHost)) (parseHost lib)
  let proxyHost ← askOptional env (existing.bind (·.proxyHost)) (parseOptionalHost lib)
  let certbotEmail ← emailFor lib env subscriptionMode (existing.bind (·.certbotEmail))
  let httpPort ← askWhen (subscriptionMode = .ipFallback)
    (require env ((existing.bind (·.httpPort)).map portText) parseHighPort)
  let subscriptionListenPort ← askWhen (subscriptionMode = .externalProxy)
    (require env ((existing.bind (·.subscriptionListenPort)).map portText) parseHighPort)
  let interface ← require env ((existing.map (·.interface)).or defaultInterface) parseInterface
  let certificateMode ← require env
    ((existing.map fun config => config.certificateMode.display).getD
      CertificateMode.selfSigned.display) parseCertificateMode
  let selected ← askProtocols env
    (fun protocol => existing.all fun config => protocol ∈ config.enabledProtocols) protocolOrder
  let enabledProtocols := mergeProtocolOrder (existing.map (·.enabledProtocols)) selected
  let ports ← askPorts env (fun protocol => existing.bind (·.protocolListenerPort protocol))
    ProtocolPorts.none enabledProtocols
  let realityDecoySni ← askWhen (.vlessReality ∈ enabledProtocols)
    (require env (existing.bind (·.realityDecoySni)) parseHostname)
  let protocolSni ← protocolSniOf env enabledProtocols (existing.bind (·.protocolSni))
  let schedule ← scheduleFor lib env existing
  let new ← liftConfig (applyOptions lib env.chance existing
    { subscriptionMode, subscriptionHost, proxyHost, certbotEmail, httpPort,
      subscriptionListenPort, certificateMode, interface, enabledProtocols, realityDecoySni,
      protocolSni, ports
      monthlyTrafficLimit := schedule.monthlyTrafficLimit
      accountingPolicy := schedule.accountingPolicy
      accountingTimezone := schedule.accountingTimezone
      clientDisplayTimezone := schedule.clientDisplayTimezone
      anchoredResetAt := schedule.anchoredResetAt })
  match existing with
  | some _ => conclude existing new
  | none => do
    let new ← askInitialCustomization lib env new
    conclude existing new

def runTemplateSelection (env : Env) (existing : DeploymentConfig) : Asking WizardOutcome := do
  let clientTemplate ← askClientTemplatePreset env existing
  conclude (some existing) { existing with clientTemplate }

/-- The topics that edit the options of a deployment. -/
def editOptions (lib : Libraries) (env : Env) (existing : DeploymentConfig)
    (options : DeploymentOptions) : Asking WizardOutcome := do
  let new ← liftConfig (applyOptions lib env.chance (some existing) options)
  conclude (some existing) new

def runSubscription (lib : Libraries) (env : Env) (existing : DeploymentConfig) :
    Asking WizardOutcome := do
  let subscriptionMode ← require env (some existing.subscriptionMode.display) parseMode
  let subscriptionHost ← require env (some existing.subscriptionHost) (parseHost lib)
  let proxyHost ← askOptional env existing.proxyHost (parseOptionalHost lib)
  let certbotEmail ← emailFor lib env subscriptionMode existing.certbotEmail
  let httpPort ← askWhen (subscriptionMode = .ipFallback)
    (require env (some (portText (existing.httpPort.getD 2080))) parseHighPort)
  let subscriptionListenPort ← askWhen (subscriptionMode = .externalProxy)
    (require env (some (portText (existing.subscriptionListenPort.getD 2080))) parseHighPort)
  editOptions lib env existing { existing.options with
    subscriptionMode, subscriptionHost, proxyHost, certbotEmail, httpPort, subscriptionListenPort }

def runProtocols (lib : Libraries) (env : Env) (existing : DeploymentConfig) :
    Asking WizardOutcome := do
  let selected ← askProtocols env (fun protocol => protocol ∈ existing.enabledProtocols)
    protocolOrder
  if selected = [] then return .cancelled
  else do
    let enabledProtocols := mergeProtocolOrder (some existing.enabledProtocols) selected
    let kept := clearPortsForDisabled existing.options.ports enabledProtocols
    let certificateMode ←
      require env (some existing.certificateMode.display) parseCertificateMode
    let ports ← askPorts env existing.protocolListenerPort kept enabledProtocols
    let realityDecoySni ← askWhen (.vlessReality ∈ enabledProtocols)
      (require env existing.realityDecoySni parseHostname)
    let protocolSni ← protocolSniOf env enabledProtocols existing.protocolSni
    editOptions lib env existing { existing.options with
      enabledProtocols, certificateMode, ports, realityDecoySni, protocolSni }

def runTraffic (lib : Libraries) (env : Env) (existing : DeploymentConfig) :
    Asking WizardOutcome := do
  let schedule ← askSchedule lib env (scheduleOf existing)
  let interface ← require env (some existing.interface) parseInterface
  editOptions lib env existing { existing.options with
    interface
    monthlyTrafficLimit := schedule.monthlyTrafficLimit
    accountingPolicy := schedule.accountingPolicy
    accountingTimezone := schedule.accountingTimezone
    clientDisplayTimezone := schedule.clientDisplayTimezone
    anchoredResetAt := schedule.anchoredResetAt }

def runPortHopping (lib : Libraries) (env : Env) (existing : DeploymentConfig) :
    Asking WizardOutcome := do
  let new ← configureHopping env existing
  liftConfig (validate lib new)
  conclude (some existing) new

/-- The template's fields do not pass through the options. -/
def runClientTemplate (lib : Libraries) (env : Env) (existing : DeploymentConfig) :
    Asking WizardOutcome := do
  let new ← askClientTemplateFields env existing
  liftConfig (validate lib new)
  conclude (some existing) new

def runTopic (lib : Libraries) (env : Env) (existing : DeploymentConfig) :
    ConfigurationTopic → Asking WizardOutcome
  | .subscription => runSubscription lib env existing
  | .protocols => runProtocols lib env existing
  | .traffic => runTraffic lib env existing
  | .clientTemplate => runClientTemplate lib env existing
  | .portHopping => runPortHopping lib env existing

end Wizard

end Sbctl
