import Sbctl.Config
import Sbctl.Lib.Machine

/-!
# Accepting a deployment configuration

Every configuration is validated before it is stored. The validators run in a
fixed order and stop at the first value they refuse, with its message.
-/

namespace Sbctl

/-- Refuses a value for one reason. -/
def rejectIf (bad : Prop) [Decidable bad] (message : String) : Except ConfigError Unit :=
  if bad then .error (.invalidValue message) else .ok ()

@[simp] theorem rejectIf_ok {bad : Prop} [Decidable bad] {message : String} :
    rejectIf bad message = .ok () ↔ ¬ bad := by
  unfold rejectIf
  split <;> simp_all

theorem rejectIf_error {bad : Prop} [Decidable bad] {message : String} {e : ConfigError} :
    rejectIf bad message = .error e ↔ bad ∧ e = .invalidValue message := by
  unfold rejectIf
  split <;> simp_all [eq_comm]

theorem bind_ok {ε α β : Type} {x : Except ε α} {f : α → Except ε β} {b : β} :
    x >>= f = .ok b ↔ ∃ a, x = .ok a ∧ f a = .ok b := by
  cases x <;> simp [bind, Except.bind]

theorem bind_error {ε α β : Type} {x : Except ε α} {f : α → Except ε β} {e : ε} :
    x >>= f = .error e ↔ x = .error e ∨ ∃ a, x = .ok a ∧ f a = .error e := by
  cases x <;> simp [bind, Except.bind]

theorem map_ok {ε α β : Type} {x : Except ε α} {f : α → β} {b : β} :
    x.map f = .ok b ↔ ∃ a, x = .ok a ∧ f a = b := by
  cases x <;> simp [Except.map]

/-- One check after another accepts what both accept. -/
@[simp] theorem check_ok {ε : Type} {x : Except ε Unit} {f : Unit → Except ε Unit} :
    x >>= f = .ok () ↔ x = .ok () ∧ f () = .ok () := by
  rw [bind_ok]
  exact ⟨fun ⟨_, hx, hf⟩ => ⟨hx, hf⟩, fun ⟨hx, hf⟩ => ⟨(), hx, hf⟩⟩

/-- Checks a value that may be missing. -/
def ifSome {α : Type} (value : Option α) (check : α → Except ConfigError Unit) :
    Except ConfigError Unit :=
  match value with
  | some v => check v
  | none => .ok ()

namespace PortHopping

def Contains (hop : PortHopping) (port : UInt16) : Prop := hop.start ≤ port ∧ port ≤ hop.«end»

instance (hop : PortHopping) (port : UInt16) : Decidable (hop.Contains port) := by
  unfold Contains; infer_instance

/-- The listeners a hopping range must leave alone. -/
def otherPorts (config : DeploymentConfig) : List (Option UInt16) :=
  [config.vlessPort, config.vmessPort, config.tuicPort, config.anytlsPort, config.httpPort,
    config.subscriptionListenPort, config.clashApiPort]

def validate (config : DeploymentConfig) : Except ConfigError Unit :=
  match config.hysteria2PortHopping with
  | none => .ok ()
  | some hop => do
    rejectIf (.hysteria2 ∉ config.enabledProtocols ∨ config.hysteria2 = none)
      "端口跳跃需要先启用 Hysteria2"
    rejectIf (hop.start < 10000 ∨ hop.«end» ≤ hop.start ∨
        ¬ (5 ≤ hop.intervalSeconds ∧ hop.intervalSeconds ≤ 3600))
      "跳跃范围必须为 10000–65535 内至少两个端口，间隔为 5–3600 秒"
    rejectIf (((otherPorts config).filterMap id).any fun port => decide (hop.Contains port))
      "跳跃范围不能覆盖其他协议、订阅或 API 监听端口"

end PortHopping

def hostnameLabelValid (label : List Char) : Prop :=
  label ≠ [] ∧ label.length ≤ 63 ∧ label.head? ≠ some '-' ∧ label.getLast? ≠ some '-' ∧
    label.all fun c => Text.isAsciiAlphanumeric c || c == '-'

instance (label : List Char) : Decidable (hostnameLabelValid label) := by
  unfold hostnameLabelValid; infer_instance

def validateHostname (label value : String) : Except ConfigError Unit :=
  rejectIf (¬ (value ≠ "" ∧ value.utf8ByteSize ≤ 253 ∧
      ∀ part ∈ Text.splitChar '.' value.toList, hostnameLabelValid part))
    (match label with
      | "subscription host" => "subscription host must be a valid hostname or IP address"
      | "proxy host" => "proxy host must be a valid hostname or IP address"
      | "protocol SNI" => "protocol SNI must be a valid hostname"
      | _ => "Reality decoy SNI must be a valid hostname")

def validateHost (lib : Libraries) (label value : String) : Except ConfigError Unit :=
  if lib.isIpAddr value then .ok () else validateHostname label value

/-- Reads a URL whose text is exactly the endpoint it names. -/
def parseHttpUrl (lib : Libraries) (value : String) : Option Url := do
  let cs := value.toList
  let afterScheme ← Text.stripPrefix "http://".toList cs <|> Text.stripPrefix "https://".toList cs
  if afterScheme = [] ∨ afterScheme.head? = some '/' ∨ '\\' ∈ cs ∨
      cs.any fun c => Text.isWhitespace c || Text.isControl c then none
  else
    (lib.parseUrl value).filter fun url => url.hostStr.any (· ≠ "")

def validateExtraRuleSetUrl (lib : Libraries) (value : String) : Except ConfigError Unit :=
  match (parseHttpUrl lib value).filter (·.scheme = "https") with
  | none => .error (.invalidValue "extra rule-set url must be an absolute https:// URL without whitespace; clients fetch it themselves and plain HTTP can be replaced in flight")
  | some parsed =>
    rejectIf (¬ Text.endsWith parsed.path.toList ".srs".toList ∧
        ¬ Text.endsWith parsed.path.toList ".mrs".toList)
      "extra rule-set URL path must end in .srs (sing-box) or .mrs (mihomo); import a plain-text list with sbctl rule-set import-list instead"

/-- The tags of the rule sets a client template brings along. -/
def builtinRuleSets : ClientTemplate → List String
  | .standard | .compact => ["geosite-private", "geoip-private", "geosite-cn", "geoip-cn"]
  | .global =>
    ["geosite-private", "geoip-private", "geosite-ads", "geosite-proxy", "geosite-openai",
      "geosite-netflix", "geosite-telegram", "geosite-cn"]
  | .split =>
    ["geosite-private", "geoip-private", "geosite-ads", "geosite-openai", "geosite-netflix",
      "geosite-telegram", "geosite-proxy", "geosite-cn", "geoip-cn"]

def reviewRuleSets : List String :=
  ["review-private-domain", "review-private-ip", "review-cn-domain", "review-cn-ip"]

/-- The extra rule sets, against the names already taken by those before. -/
def validateExtraRuleSets (lib : Libraries) (builtin : List String) (taken : List String) :
    List ExtraRuleSet → Except ConfigError Unit
  | [] => .ok ()
  | set :: sets => do
    rejectIf (set.name = "" ∨ set.name ∈ taken ∨ set.name = "." ∨ set.name = ".." ∨
        ¬ set.name.toList.all fun c => lib.isAlphanumeric c || c == '_' || c == '-' || c == '.')
      "each extra rule-set needs a distinct filename-safe name using letters, digits, _, - or . (not . or ..)"
    rejectIf (set.name ∈ builtin ∨ set.name ∈ reviewRuleSets)
      "extra rule-set name conflicts with a built-in rule-set; choose another name"
    validateExtraRuleSetUrl lib set.url
    rejectIf (set.outbound = "" ∨ set.outbound.toList.any Text.isWhitespace)
      "extra rule-set outbound must be direct, proxy, reject or a group tag"
    validateExtraRuleSets lib builtin (set.name :: taken) sets

def unitSeconds : Char → Option Nat
  | 's' => some 1
  | 'm' => some 60
  | 'h' => some 3600
  | 'd' => some 86400
  | _ => none

/-- The seconds in a text such as `30m` or `1d`. -/
def ruleSetIntervalSeconds (text : String) : Option Nat := do
  let cs := text.toList
  if cs = [] ∨ cs.any Text.isWhitespace then none
  else
    let unit ← cs.getLast?
    let amount ← Text.parseUnsigned Machine.maxU64 cs.dropLast
    let multiplier ← unitSeconds unit
    (some (amount * multiplier)).filter fun seconds =>
      seconds ≤ Machine.maxU64 ∧ 0 < seconds ∧ (seconds : Int) ≤ Machine.maxI64 / 1000000000

def interfaceNameValid (interface : String) : Prop :=
  interface ≠ "" ∧ interface.utf8ByteSize ≤ 15 ∧ interface.toList.head? ≠ some '.' ∧
    interface.toList.all fun c => Text.isAsciiAlphanumeric c || c == '_' || c == '-' || c == '.'

instance (interface : String) : Decidable (interfaceNameValid interface) := by
  unfold interfaceNameValid; infer_instance

def validateDeploymentIdentity (lib : Libraries) (config : DeploymentConfig) :
    Except ConfigError Unit := do
  validateHost lib "subscription host" config.subscriptionHost
  ifSome config.proxyHost (validateHost lib "proxy host")
  rejectIf (¬ interfaceNameValid config.interface) "interface must be a Linux interface name"
  rejectIf (config.clashApiPort = some 0) "server clash api port must not be zero"
  rejectIf (parseHttpUrl lib config.clientRuleSetBaseUrl = none)
    "client_rule_set_base_url must be an absolute http(s) URL without whitespace"
  rejectIf (parseHttpUrl lib config.clientLatencyProbeUrl = none)
    "client_latency_probe_url must be an absolute http(s) URL without whitespace"
  rejectIf ((parseHttpUrl lib config.clientRuleSetBaseUrl).any fun url =>
      url.query.isSome || url.fragment.isSome)
    "client_rule_set_base_url must not contain a query or fragment; use a repository base URL"
  validateExtraRuleSets lib (builtinRuleSets config.clientTemplate) [] config.clientExtraRuleSets
  rejectIf (ruleSetIntervalSeconds config.clientRuleSetUpdateInterval = none)
    "client_rule_set_update_interval must be a positive duration like 1d or 12h within the Go duration range"

def minProtocolPort : UInt16 := 10000
def maxProtocolPort : UInt16 := 65535

/-- The listener ports, against those before them in the list. -/
def validateListenerPorts (before : List UInt16) : List UInt16 → Except ConfigError Unit
  | [] => .ok ()
  | port :: ports => do
    rejectIf (¬ (minProtocolPort ≤ port ∧ port ≤ maxProtocolPort))
      "Managed protocol ports must be in 10000-65535"
    rejectIf (port ∈ before) "Managed protocol ports must be unique across TCP and UDP"
    validateListenerPorts (port :: before) ports

def validateEnabledCredentials (enabled : List ManagedProtocol) (protocol : ManagedProtocol)
    (hasCredentials : Bool) (message : String) : Except ConfigError Unit :=
  rejectIf (protocol ∈ enabled ∧ ¬ hasCredentials) message

def validateProtocols (lib : Libraries) (config : DeploymentConfig) :
    Except ConfigError Unit := do
  rejectIf (config.enabledProtocols = []) "at least one Managed protocol must be enabled"
  validateListenerPorts [] config.protocolListenerPorts
  rejectIf (¬ config.enabledProtocols.Nodup) "enabled protocols must not contain duplicates"
  rejectIf (.vlessReality ∈ config.enabledProtocols ∧ config.realityDecoySni.all (· = ""))
    "VLESS Reality requires a Reality decoy SNI"
  validateEnabledCredentials config.enabledProtocols .vmessWebsocket config.vmessWebsocket.isSome
    "VMess WebSocket requires generated node credentials"
  validateEnabledCredentials config.enabledProtocols .hysteria2 config.hysteria2.isSome
    "Hysteria2 requires generated node credentials"
  validateEnabledCredentials config.enabledProtocols .tuic config.tuic.isSome
    "TUIC requires generated node credentials"
  validateEnabledCredentials config.enabledProtocols .anytls config.anytls.isSome
    "AnyTLS requires generated node credentials"
  rejectIf (.vlessReality ∈ config.enabledProtocols ∧ config.vlessReality = none)
    "VLESS Reality requires generated node credentials"
  ifSome config.realityDecoySni (validateHostname "Reality decoy SNI")
  ifSome config.protocolSni (validateHostname "protocol SNI")
  rejectIf (config.certificateMode = .domain ∧ config.subscriptionMode ≠ .ipFallback ∧
      ¬ Text.eqIgnoreAsciiCase (config.protocolServerName lib) config.subscriptionHost)
    "域名证书模式的协议 SNI 必须与订阅域名一致；伪装 SNI 请使用自签证书模式"

/-- At least 256 bits in the URL-safe alphabet. -/
def secretValid (secret : String) : Prop :=
  43 ≤ secret.utf8ByteSize ∧
    secret.toList.all fun c => Text.isAsciiAlphanumeric c || c == '-' || c == '_'

instance (secret : String) : Decidable (secretValid secret) := by
  unfold secretValid; infer_instance

/-- The named credentials, against the names of the live records before. -/
def validateNamedCredentials (liveNames : List String) :
    List NamedCredential → Except ConfigError Unit
  | [] => .ok ()
  | entry :: entries => do
    rejectIf (entry.name.toList.all Text.isWhitespace)
      "a named subscription credential needs a name"
    rejectIf (entry.revokedAt = none ∧ entry.name ∈ liveNames)
      "named subscription credentials must have one live record per name"
    rejectIf (¬ secretValid entry.credential)
      "every named subscription credential must be a URL-safe 256-bit secret (sbctl credential list shows the names)"
    validateNamedCredentials
      (if entry.revokedAt = none then entry.name :: liveNames else liveNames) entries

/-- What a zone makes of a date and time; nothing when there is no such date. -/
def withYmdAndHms (zone : Clock.Zone) (t : NaiveDateTime) : Clock.LocalResult :=
  match (Clock.fromYmdOpt t.year t.month t.dayOfMonth).bind (Clock.andHmsOpt · t.hour t.minute) with
  | none => .none
  | some l => zone.fromLocal l

def validateAnchoredResetLocalTime (zone : Clock.Zone) (reset : NaiveDateTime) :
    Except ConfigError Unit :=
  match withYmdAndHms zone reset with
  | .single _ => .ok ()
  | .ambiguous _ _ =>
    .error (.invalidValue "anchored reset time is ambiguous in the accounting timezone")
  | .none =>
    .error (.invalidValue "anchored reset time does not exist in the accounting timezone")

def validateAccountingPolicy (lib : Libraries) (config : DeploymentConfig) (zone : Clock.Zone) :
    Except ConfigError Unit :=
  match config.accountingPolicy with
  | .naturalMonth =>
    rejectIf (config.anchoredResetAt.isSome)
      "Natural-month reset must not configure an anchored reset time"
  | .anchoredMonth =>
    match config.anchoredResetAt with
    | none =>
      .error (.invalidValue "Anchored-month reset requires an anchored reset date and time")
    | some resetAt =>
      match lib.parseNaiveDateTime resetAt with
      | none => .error (.invalidValue "anchored reset time must use YYYY-MM-DDTHH:MM")
      | some reset => validateAnchoredResetLocalTime zone reset

def validateSecretAndAccounting (lib : Libraries) (config : DeploymentConfig) :
    Except ConfigError Unit := do
  rejectIf (¬ secretValid config.subscriptionCredential)
    "subscription credential must be a URL-safe 256-bit secret"
  validateNamedCredentials [] config.subscriptionCredentials
  match lib.parseTz config.accountingTimezone with
  | none => .error (.invalidValue "accounting timezone must be a named IANA timezone")
  | some zone => do
    rejectIf (lib.parseTz config.clientDisplayTimezone).isNone
      "client display timezone must be a named IANA timezone"
    validateAccountingPolicy lib config zone

def protocolNeedsCertificate : ManagedProtocol → Bool
  | .vlessReality => false
  | .vmessWebsocket | .hysteria2 | .tuic | .anytls => true

def validateSubscriptionMode (lib : Libraries) (config : DeploymentConfig) :
    Except ConfigError Unit :=
  match config.subscriptionMode with
  | .ipFallback => do
    rejectIf config.subscriptionListenPort.isSome
      "only external reverse-proxy subscription configures a listener port"
    rejectIf (¬ lib.isIpAddr config.subscriptionHost)
      "IP fallback subscription requires an IP address as the subscription host"
    match config.httpPort with
    | none => .error (.invalidValue "IP fallback subscription requires an HTTP port")
    | some port => do
      rejectIf (port ≤ 1024) "IP fallback HTTP port must be higher than 1024"
      rejectIf (port ∈ config.protocolListenerPorts)
        "IP fallback HTTP port must not conflict with a Managed protocol port"
      rejectIf (config.enabledProtocols.any protocolNeedsCertificate ∧
          config.certificateMode ≠ .selfSigned)
        "VMess WebSocket, Hysteria2, TUIC, and AnyTLS in IP fallback mode require self-signed certificates"
  | .direct => do
    rejectIf (lib.isIpAddr config.subscriptionHost) "domain subscription modes require a hostname"
    rejectIf config.httpPort.isSome "only IP fallback subscription configures an HTTP port"
    rejectIf config.subscriptionListenPort.isSome
      "only external reverse-proxy subscription configures a listener port"
  | .externalProxy => do
    rejectIf (lib.isIpAddr config.subscriptionHost) "domain subscription modes require a hostname"
    rejectIf config.httpPort.isSome "only IP fallback subscription configures an HTTP port"
    match config.subscriptionListenPort with
    | none =>
      .error (.invalidValue
        "external reverse-proxy subscription requires a loopback listener port")
    | some port => do
      rejectIf (port ≤ 1024) "external reverse-proxy listener port must be higher than 1024"
      rejectIf (port ∈ config.protocolListenerPorts)
        "external reverse-proxy listener port must not conflict with a Managed protocol port"

def validate (lib : Libraries) (config : DeploymentConfig) : Except ConfigError Unit := do
  PortHopping.validate config
  validateDeploymentIdentity lib config
  validateProtocols lib config
  validateSecretAndAccounting lib config
  validateSubscriptionMode lib config

/-- A configuration that may be stored. -/
def Accepted (lib : Libraries) (config : DeploymentConfig) : Prop :=
  validate lib config = .ok ()

/-- What acceptance says of a whole configuration, validator by validator. -/
theorem accepted_iff {lib : Libraries} {config : DeploymentConfig} :
    Accepted lib config ↔ PortHopping.validate config = .ok () ∧
      validateDeploymentIdentity lib config = .ok () ∧ validateProtocols lib config = .ok () ∧
      validateSecretAndAccounting lib config = .ok () ∧
      validateSubscriptionMode lib config = .ok () := by
  simp only [Accepted, validate, check_ok]

/-! ## Host names in lower case -/

section
open Text

theorem hostnameLabelValid_lower (label : List Char) :
    hostnameLabelValid (label.map Char.toLower) ↔ hostnameLabelValid label := by
  have hdash : ∀ c : Char, c.toLower = '-' ↔ c = '-' := fun c => toLower_eq_iff rfl
  unfold hostnameLabelValid
  simp only [ne_eq, List.map_eq_nil_iff, List.length_map, List.head?_map, Option.map_eq_some_iff,
    hdash, exists_eq_right, List.getLast?_map, List.all_map, Function.comp_def,
    isAsciiAlphanumeric_toLower]
  have hbeq : ∀ c : Char, (c.toLower == '-') = (c == '-') := fun c => by
    rw [Bool.eq_iff_iff, beq_iff_eq, beq_iff_eq, hdash]
  simp only [hbeq]

theorem validateHostname_lower (label host : String) :
    validateHostname label (toAsciiLowercase host) = validateHostname label host := by
  unfold validateHostname
  simp only [ne_eq, toAsciiLowercase_eq_empty, toAsciiLowercase_utf8ByteSize,
    toAsciiLowercase_toList, @splitChar_toLower '.' rfl, List.forall_mem_map,
    hostnameLabelValid_lower]

variable {lib : Libraries} {config : DeploymentConfig}
variable (hip : ∀ host, lib.isIpAddr (toAsciiLowercase host) = lib.isIpAddr host)
include hip

theorem validateHost_lower (label host : String) :
    validateHost lib label (toAsciiLowercase host) = validateHost lib label host := by
  rw [validateHost, validateHost, hip, validateHostname_lower]

theorem validateDeploymentIdentity_lowered :
    validateDeploymentIdentity lib config.lowered = validateDeploymentIdentity lib config := by
  have hproxy : ifSome config.lowered.proxyHost (validateHost lib "proxy host") =
      ifSome config.proxyHost (validateHost lib "proxy host") := by
    unfold DeploymentConfig.lowered
    cases config.proxyHost with
    | none => rfl
    | some host => exact validateHost_lower hip _ host
  have hhost : validateHost lib "subscription host" config.lowered.subscriptionHost =
      validateHost lib "subscription host" config.subscriptionHost := validateHost_lower hip _ _
  unfold validateDeploymentIdentity
  rw [hproxy, hhost]
  rfl

theorem protocolServerName_lowered :
    eqIgnoreAsciiCase (config.lowered.protocolServerName lib) config.lowered.subscriptionHost =
      eqIgnoreAsciiCase (config.protocolServerName lib) config.subscriptionHost := by
  unfold DeploymentConfig.protocolServerName DeploymentConfig.lowered
  rw [eqIgnoreAsciiCase_lower]
  cases config.protocolSni with
  | some sni => rfl
  | none =>
    dsimp only
    rw [hip]
    by_cases h : lib.isIpAddr config.subscriptionHost = true
    · rw [if_pos h, if_pos h]
    · rw [if_neg h, if_neg h]
      rw [eqIgnoreAsciiCase, eqIgnoreAsciiCase, toAsciiLowercase, String.toList_ofList,
        map_toLower_map_toLower]

theorem validateProtocols_lowered :
    validateProtocols lib config.lowered = validateProtocols lib config := by
  unfold validateProtocols
  rw [protocolServerName_lowered hip]
  rfl

theorem validateSubscriptionMode_lowered :
    validateSubscriptionMode lib config.lowered = validateSubscriptionMode lib config := by
  have h : lib.isIpAddr config.lowered.subscriptionHost = lib.isIpAddr config.subscriptionHost :=
    hip _
  unfold validateSubscriptionMode
  rw [h]
  rfl

/-- Lower-case host names change no verdict. -/
theorem accepted_lowered : Accepted lib config.lowered ↔ Accepted lib config := by
  rw [accepted_iff, accepted_iff, validateDeploymentIdentity_lowered hip,
    validateProtocols_lowered hip, validateSubscriptionMode_lowered hip]
  rfl


end

/-! ## A sample deployment -/

/-- A deployment with one protocol, accounted by natural months in UTC. -/
def sampleConfig : DeploymentConfig where
  subscriptionMode := .direct
  subscriptionHost := "sub.example.com"
  proxyHost := none
  httpPort := none
  subscriptionListenPort := none
  certbotEmail := none
  certificateMode := .domain
  hysteria2PortHopping := none
  interface := "eth0"
  ipv4Only := false
  enabledProtocols := [.hysteria2]
  realityDecoySni := none
  protocolSni := none
  subscriptionCredential := "AAAAAAAAAAAAAAAAAAAAAAAAAAAAAAAAAAAAAAAAAAA"
  clientClashApiSecret := none
  serverClashApi := none
  subscriptionCredentials := []
  monthlyTrafficLimit := 0
  accountingPolicy := .naturalMonth
  accountingTimezone := "UTC"
  clientDisplayTimezone := "UTC"
  anchoredResetAt := none
  clientDnsMode := .fakeIp
  clientDnsPreset := .cnDirect
  clientRuleProfile := .standard
  clientTemplate := .standard
  clientRuleSetBaseUrl := "https://cdn.example.com"
  clientExtraRuleSets := []
  clientRuleSetUpdateInterval := "1d"
  clientLatencyProbeUrl := "https://cdn.example.com"
  vlessReality := none
  vmessWebsocket := none
  hysteria2 := some { listenPort := 20000, password := "p" }
  tuic := none
  anytls := none

/-- A file that reads as `sampleConfig`. Keys that are missing have their defaults. -/
def sampleConfigText : String :=
  "subscription_mode = \"direct\"\n" ++
  "subscription_host = \"sub.example.com\"\n" ++
  "interface = \"eth0\"\n" ++
  "enabled_protocols = [\"hysteria2\"]\n" ++
  "subscription_credential = \"AAAAAAAAAAAAAAAAAAAAAAAAAAAAAAAAAAAAAAAAAAA\"\n" ++
  "accounting_timezone = \"UTC\"\n" ++
  "client_display_timezone = \"UTC\"\n" ++
  "client_rule_set_base_url = \"https://cdn.example.com\"\n" ++
  "client_latency_probe_url = \"https://cdn.example.com\"\n\n" ++
  "[hysteria2]\nlisten_port = 20000\npassword = \"p\"\n"

/-- What the TOML library makes of that file. It reads no other. -/
def sampleFromStr (text : String) : Option DeploymentConfig :=
  if text = sampleConfigText then some sampleConfig else none

theorem sampleFromStr_text : sampleFromStr sampleConfigText = some sampleConfig := if_pos rfl

/-- The libraries' results on the texts of `sampleConfig` and on the first
instant of 1970. -/
def sampleLibraries : Libraries where
  isIpAddr := fun _ => false
  isAlphanumeric := Text.isAsciiAlphanumeric
  parseUrl := fun _ => some
    { scheme := "https", hostStr := some "cdn.example.com", path := "/", query := none,
      fragment := none }
  parseTz := fun _ => some Clock.Zone.utc
  parseNaiveDateTime := fun _ => none
  toRfc3339 := fun l o =>
    if l = 0 ∧ o = 0 then "1970-01-01T00:00:00+00:00"
    else String.ofList ((if l < 0 then '-' else '+') :: List.replicate l.natAbs '0')
  debugString := String.quote

theorem sampleConfig_accepted : Accepted sampleLibraries sampleConfig := by
  unfold Accepted
  decide

end Sbctl
