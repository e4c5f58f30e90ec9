import Sbctl.WizardEnter

/-!
# The wizard with empty answers

An administrator who presses Enter through the wizard means to keep the
deployment. Each dialogue then rebuilds it from the values it displayed.

* `enter_keeps_iff`: the deployment is kept when the values that are normalised
  on the way, or not asked for, are stored in that form already.
-/

namespace Sbctl

namespace Wizard

open Dialog Text

/-! ## What an accepted deployment stores -/

/-- The values the dialogues display. -/
structure Stored (lib : Libraries) (config : DeploymentConfig) : Prop where
  subscriptionHost : validateHost lib "subscription host" config.subscriptionHost = .ok ()
  proxyHost : ∀ host, config.proxyHost = some host → validateHost lib "proxy host" host = .ok ()
  interface : interfaceNameValid config.interface
  ruleSetBaseUrl : parseHttpUrl lib config.clientRuleSetBaseUrl ≠ none
  latencyProbeUrl : parseHttpUrl lib config.clientLatencyProbeUrl ≠ none
  ports : ∀ protocol port, config.protocolListenerPort protocol = some port →
    minProtocolPort ≤ port ∧ port ≤ maxProtocolPort
  enabledProtocols : config.enabledProtocols ≠ []
  realityDecoySni : .vlessReality ∈ config.enabledProtocols → ∃ sni,
    config.realityDecoySni = some sni ∧ validateHostname "Reality decoy SNI" sni = .ok ()
  accountingTimezone : (lib.parseTz config.accountingTimezone).isSome = true
  clientDisplayTimezone : (lib.parseTz config.clientDisplayTimezone).isSome = true
  natural : config.accountingPolicy = .naturalMonth → config.anchoredResetAt = none
  anchored : config.accountingPolicy = .anchoredMonth → ∃ reset,
    config.anchoredResetAt = some reset ∧ (lib.parseNaiveDateTime reset).isSome = true
  httpPort : config.subscriptionMode = .ipFallback → ∃ port,
    config.httpPort = some port ∧ ¬ port ≤ 1024
  no_httpPort : config.subscriptionMode ≠ .ipFallback → config.httpPort = none
  listenPort : config.subscriptionMode = .externalProxy → ∃ port,
    config.subscriptionListenPort = some port ∧ ¬ port ≤ 1024
  no_listenPort : config.subscriptionMode ≠ .externalProxy → config.subscriptionListenPort = none

section
variable {lib : Libraries} {config : DeploymentConfig}

theorem ifSome_ok {α : Type} {value : Option α} {check : α → Except ConfigError Unit} :
    ifSome value check = .ok () ↔ ∀ a, value = some a → check a = .ok () := by
  cases value <;> simp [ifSome]

theorem schedule_stored (h : validateSecretAndAccounting lib config = .ok ()) :
    (lib.parseTz config.accountingTimezone).isSome = true ∧
      (lib.parseTz config.clientDisplayTimezone).isSome = true ∧
      (config.accountingPolicy = .naturalMonth → config.anchoredResetAt = none) ∧
      (config.accountingPolicy = .anchoredMonth → ∃ reset, config.anchoredResetAt = some reset ∧
        (lib.parseNaiveDateTime reset).isSome = true) := by
  simp only [validateSecretAndAccounting, check_ok] at h
  obtain ⟨-, -, h⟩ := h
  cases hzone : lib.parseTz config.accountingTimezone with
  | none => simp [hzone] at h
  | some zone =>
    simp only [hzone, check_ok, rejectIf_ok] at h
    obtain ⟨hdisplay, hpolicy⟩ := h
    refine ⟨rfl, by simpa [Option.isSome_iff_ne_none] using hdisplay, fun hnatural => ?_, fun hanchored => ?_⟩
    · simpa [validateAccountingPolicy, hnatural] using hpolicy
    · simp only [validateAccountingPolicy, hanchored] at hpolicy
      cases hreset : config.anchoredResetAt with
      | none => simp [hreset] at hpolicy
      | some reset =>
        refine ⟨reset, rfl, ?_⟩
        cases htime : lib.parseNaiveDateTime reset with
        | none => simp [hreset, htime] at hpolicy
        | some time => rfl

theorem ports_stored (h : validateSubscriptionMode lib config = .ok ()) :
    (config.subscriptionMode = .ipFallback → ∃ port, config.httpPort = some port ∧ ¬ port ≤ 1024) ∧
      (config.subscriptionMode ≠ .ipFallback → config.httpPort = none) ∧
      (config.subscriptionMode = .externalProxy → ∃ port,
        config.subscriptionListenPort = some port ∧ ¬ port ≤ 1024) ∧
      (config.subscriptionMode ≠ .externalProxy → config.subscriptionListenPort = none) := by
  unfold validateSubscriptionMode at h
  cases hmode : config.subscriptionMode with
  | direct =>
    simp only [hmode, check_ok, rejectIf_ok] at h
    simpa using h.2
  | externalProxy =>
    simp only [hmode, check_ok, rejectIf_ok] at h
    cases hport : config.subscriptionListenPort with
    | none => simp [hport] at h
    | some port =>
      simp only [hport, check_ok, rejectIf_ok] at h
      have hnone := Option.not_isSome_iff_eq_none.mp h.2.1
      exact ⟨by simp, fun _ => hnone, fun _ => ⟨port, rfl, h.2.2.1⟩, by simp⟩
  | ipFallback =>
    simp only [hmode, check_ok, rejectIf_ok] at h
    cases hport : config.httpPort with
    | none => simp [hport] at h
    | some port =>
      simp only [hport, check_ok, rejectIf_ok] at h
      have hnone := Option.not_isSome_iff_eq_none.mp h.1
      exact ⟨fun _ => ⟨port, rfl, h.2.2.1⟩, by simp, by simp, fun _ => hnone⟩

theorem stored_of_accepted (h : Accepted lib config) : Stored lib config := by
  obtain ⟨-, hidentity, hprotocols, haccounting, hmode⟩ := accepted_iff.mp h
  obtain ⟨hzone, hdisplay, hnatural, hanchored⟩ := schedule_stored haccounting
  obtain ⟨hhttp, hnoHttp, hlisten, hnoListen⟩ := ports_stored hmode
  simp only [validateDeploymentIdentity, check_ok, rejectIf_ok, not_not, ifSome_ok] at hidentity
  obtain ⟨hhost, hproxy, hinterface, -, hbase, hprobe, -⟩ := hidentity
  have hrange := validateListenerPorts_range (validateProtocols_ports hprotocols)
  simp only [validateProtocols, check_ok, rejectIf_ok, ifSome_ok] at hprotocols
  obtain ⟨henabled, -, -, hdecoy, -, -, -, -, -, hsni, -⟩ := hprotocols
  constructor
  case ports =>
    intro protocol port hport
    exact hrange port (DeploymentConfig.mem_protocolListenerPorts.mpr ⟨protocol, hport⟩)
  case realityDecoySni =>
    intro hmem
    cases hname : config.realityDecoySni with
    | none => simp [hmem, hname] at hdecoy
    | some sni => exact ⟨sni, rfl, hsni sni hname⟩
  all_goals assumption

/-! ## Questions about a stored deployment -/

/-- An accepted deployment with the credentials of its protocols, and with the email
address its mode asks for. -/
structure Installed (lib : Libraries) (config : DeploymentConfig) : Prop where
  accepted : Accepted lib config
  exact : config.CredentialsExact
  email : config.subscriptionMode = .direct → ∃ email,
    config.certbotEmail = some email ∧ WellFormedEmail lib email
  no_email : config.subscriptionMode ≠ .direct → config.certbotEmail = none

variable {env : Env}

theorem Installed.stored (h : Installed lib config) : Stored lib config :=
  stored_of_accepted h.accepted

theorem gives_proxyHost (names : Names lib) (h : Stored lib config) :
    Gives (askOptional env config.proxyHost (parseOptionalHost lib)) config.proxyHost := by
  apply gives_askOptional
  cases hproxy : config.proxyHost with
  | none => rfl
  | some host =>
    rw [Option.mapM_some, parseOptionalHost_self names (h.proxyHost host hproxy)]
    rfl

theorem gives_email (h : Installed lib config) :
    Gives (emailFor lib env config.subscriptionMode config.certbotEmail) config.certbotEmail := by
  unfold emailFor
  by_cases hmode : config.subscriptionMode = .direct
  · obtain ⟨email, hemail, hwell⟩ := h.email hmode
    rw [if_pos hmode, hemail]
    exact gives_askCertbotEmail hwell
  · rw [if_neg hmode, h.no_email hmode]
    exact gives_pure none

theorem gives_port {mode : SubscriptionMode} {stored : Option UInt16} {current : Option String}
    (hsome : config.subscriptionMode = mode → ∃ port, stored = some port ∧ ¬ port ≤ 1024)
    (hnone : config.subscriptionMode ≠ mode → stored = none)
    (hcurrent : ∀ port, stored = some port → current = some (portText port)) :
    Gives (askWhen (config.subscriptionMode = mode) (require env current parseHighPort)) stored := by
  refine gives_askWhen (fun hasked => ?_) fun hnot => hnone (of_decide_eq_false hnot)
  obtain ⟨port, hport, hhigh⟩ := hsome (of_decide_eq_true hasked)
  rw [hcurrent port hport]
  exact ⟨port, hport, gives_require (parseHighPort_self hhigh)⟩

theorem gives_decoySni (h : Stored lib config) :
    Gives (askWhen (.vlessReality ∈ config.enabledProtocols)
        (require env config.realityDecoySni parseHostname))
      (if .vlessReality ∈ config.enabledProtocols then config.realityDecoySni else none) := by
  apply gives_askWhen
  · intro hasked
    have hmem := of_decide_eq_true hasked
    obtain ⟨sni, hsni, hvalid⟩ := h.realityDecoySni hmem
    rw [if_pos hmem, hsni]
    exact ⟨sni, rfl, gives_require (parseHostname_self hvalid)⟩
  · intro hnot
    exact if_neg (of_decide_eq_false hnot)

theorem gives_protocolSni (enabled : List ManagedProtocol) (current : Option String) :
    Gives (protocolSniOf env enabled current)
      (if certificateProtocols enabled then current else none) := by
  unfold protocolSniOf
  by_cases hneeds : certificateProtocols enabled = true
  · rw [if_pos hneeds, if_pos hneeds]
    exact gives_askProtocolSni current
  · rw [if_neg hneeds, if_neg hneeds]
    exact gives_pure none

theorem gives_selected (config : DeploymentConfig) :
    Gives (askProtocols env (fun protocol => protocol ∈ config.enabledProtocols) protocolOrder)
      (protocolOrder.filter (· ∈ config.enabledProtocols)) := gives_askProtocols _ _

theorem gives_ports (h : Installed lib config) (ports : ProtocolPorts)
    (hother : ∀ protocol, protocol ∉ config.enabledProtocols → ports.requested protocol = none) :
    Gives (askPorts env config.protocolListenerPort ports config.enabledProtocols)
      config.options.ports := by
  obtain ⟨asked, hasked, hrequested⟩ :=
    @gives_askPorts env _ h.stored.ports config.enabledProtocols ports
  have hports : asked = config.options.ports := by
    apply ports_ext
    intro protocol
    have hcurrent : config.options.ports.requested protocol =
        config.protocolListenerPort protocol := by
      cases protocol <;> rfl
    rw [hrequested protocol, hcurrent]
    by_cases hmem : protocol ∈ config.enabledProtocols
    · rw [if_pos hmem]
    · rw [if_neg hmem, hother protocol hmem]
      cases hport : config.protocolListenerPort protocol with
      | none => rfl
      | some port =>
        exact absurd ((h.exact protocol).mp (hasCredentials_iff.mpr ⟨port, hport⟩)) hmem
  rwa [hports] at hasked

theorem gives_schedule (names : Names lib) (h : Stored lib config)
    (hreset : ∀ reset, config.anchoredResetAt = some reset → strip reset = reset) :
    Gives (askSchedule lib env (scheduleOf config)) (scheduleOf config) := by
  refine (gives_askTrafficLimit _).bind ?_
  refine (gives_require (parseAccountingTimezone_self names h.accountingTimezone)).bind ?_
  refine (gives_require (parseTimezone_self names h.clientDisplayTimezone)).bind ?_
  refine (gives_require (parsePolicy_display _)).bind ?_
  refine Gives.bind (a := config.anchoredResetAt) ?_ (gives_pure _)
  apply gives_askWhen
  · intro hasked
    obtain ⟨reset, hsome, htime⟩ := h.anchored (of_decide_eq_true hasked)
    refine ⟨reset, hsome, ?_⟩
    change Gives (require env config.anchoredResetAt (parseResetAt lib)) reset
    rw [hsome]
    exact gives_require (parseStripped_self (hreset reset hsome) htime)
  · intro hnot
    have hpolicy := of_decide_eq_false hnot
    cases hstored : config.accountingPolicy with
    | naturalMonth => exact h.natural hstored
    | anchoredMonth => exact absurd hstored hpolicy

/-! ## Dialogues that edit the options -/

/-- The options a run with empty answers makes: the names of protocols that are off
are not asked for. -/
def askedOptions (config : DeploymentConfig) : DeploymentOptions :=
  { config.options with
    realityDecoySni :=
      if .vlessReality ∈ config.enabledProtocols then config.realityDecoySni else none
    protocolSni :=
      if certificateProtocols config.enabledProtocols then config.protocolSni else none }

theorem outcome_conclude {new : DeploymentConfig} :
    outcome (conclude (some config) new) = some (.ok .unchanged) ↔ new = config := by
  unfold conclude
  by_cases hsame : new = config
  · rw [hsame, if_pos rfl]
    exact iff_of_true (gives_pure _).outcome rfl
  · rw [if_neg fun hc => hsame (Option.some.inj hc).symm, outcome_bind (gives_confirm false)]
    refine iff_of_false ?_ hsame
    rw [if_neg Bool.false_ne_true, (gives_pure _).outcome]
    intro hc
    cases hc

/-- An edit changes nothing when the options rebuild the deployment. -/
theorem outcome_editOptions {options : DeploymentOptions} :
    outcome (editOptions lib env config options) = some (.ok .unchanged) ↔
      applyOptions lib env.chance (some config) options = .ok config := by
  unfold editOptions
  cases happly : applyOptions lib env.chance (some config) options with
  | error e =>
    have hfails : Fails (liftConfig (Except.error e : Except ConfigError DeploymentConfig))
        (.config e) := fails_throw _
    rw [(hfails.bind _).outcome]
    refine iff_of_false (fun hc => ?_) fun hc => ?_ <;> cases hc
  | ok new =>
    have hgives : Gives (liftConfig (Except.ok new)) new := gives_pure new
    rw [outcome_bind hgives, outcome_conclude, Except.ok.injEq]

theorem runSubscription_enter (names : Names lib) (h : Installed lib config) :
    outcome (runSubscription lib env config) =
      outcome (editOptions lib env config config.options) := by
  have hstored := h.stored
  have hhost := parseHost_self names hstored.subscriptionHost
  have hhttp : Gives (askWhen (config.subscriptionMode = .ipFallback)
      (require env (some (portText (config.httpPort.getD 2080))) parseHighPort)) config.httpPort :=
    gives_port hstored.httpPort hstored.no_httpPort fun port hport => by rw [hport]; rfl
  have hlisten : Gives (askWhen (config.subscriptionMode = .externalProxy)
      (require env (some (portText (config.subscriptionListenPort.getD 2080))) parseHighPort))
      config.subscriptionListenPort :=
    gives_port hstored.listenPort hstored.no_listenPort fun port hport => by rw [hport]; rfl
  unfold runSubscription
  rw [outcome_bind (gives_require (parseMode_display _)), outcome_bind (gives_require hhost),
    outcome_bind (gives_proxyHost names hstored), outcome_bind (gives_email h),
    outcome_bind hhttp, outcome_bind hlisten]
  rfl

theorem selected_ne_nil (h : Stored lib config) :
    protocolOrder.filter (· ∈ config.enabledProtocols) ≠ [] := by
  obtain ⟨protocol, hmem⟩ := List.exists_mem_of_ne_nil _ h.enabledProtocols
  apply List.ne_nil_of_mem (a := protocol)
  refine List.mem_filter.mpr ⟨?_, decide_eq_true hmem⟩
  cases protocol <;> decide

theorem clearPorts_requested (ports : ProtocolPorts) (enabled : List ManagedProtocol)
    {protocol : ManagedProtocol} (h : protocol ∉ enabled) :
    (clearPortsForDisabled ports enabled).requested protocol = none := by
  have hfold : ∀ (protocols : List ManagedProtocol) (ports : ProtocolPorts),
      protocol ∈ protocols ∨ ports.requested protocol = none →
      (protocols.foldl (fun ports protocol =>
        if protocol ∈ enabled then ports else ports.set protocol none) ports).requested protocol =
        none := by
    intro protocols
    induction protocols with
    | nil =>
      intro ports hcase
      exact hcase.resolve_left List.not_mem_nil
    | cons first protocols ih =>
      intro ports hcase
      rw [List.foldl_cons]
      apply ih
      by_cases heq : protocol = first
      · right
        rw [← heq, if_neg h, requested_set, if_pos rfl]
      · rcases hcase with hmem | hnone
        · exact .inl ((List.mem_cons.mp hmem).resolve_left heq)
        · right
          split
          · exact hnone
          · rw [requested_set, if_neg heq, hnone]
  refine hfold protocolOrder ports (.inl ?_)
  cases protocol <;> decide

theorem runProtocols_enter (h : Installed lib config) :
    outcome (runProtocols lib env config) =
      outcome (editOptions lib env config (askedOptions config)) := by
  have hstored := h.stored
  have hports := @gives_ports _ _ env h
    (clearPortsForDisabled config.options.ports config.enabledProtocols)
    fun protocol hoff => clearPorts_requested _ _ hoff
  unfold runProtocols
  rw [outcome_bind (gives_selected config), if_neg (selected_ne_nil hstored)]
  dsimp only
  rw [mergeProtocolOrder_same, outcome_bind (gives_require (parseCertificateMode_display _)),
    outcome_bind hports, outcome_bind (gives_decoySni hstored), outcome_bind (gives_protocolSni _ _)]
  rfl

theorem runTraffic_enter (names : Names lib) (h : Stored lib config)
    (hreset : ∀ reset, config.anchoredResetAt = some reset → strip reset = reset) :
    outcome (runTraffic lib env config) =
      outcome (editOptions lib env config config.options) := by
  unfold runTraffic
  rw [outcome_bind (gives_schedule names h hreset),
    outcome_bind (gives_require (parseInterface_self h.interface))]
  rfl

theorem run_enter (names : Names lib) (h : Installed lib config)
    (hreset : ∀ reset, config.anchoredResetAt = some reset → strip reset = reset)
    (defaultInterface : Option String) :
    outcome (run lib env (some config) defaultInterface) =
      outcome (editOptions lib env config (askedOptions config)) := by
  have hstored := h.stored
  have hhost := parseHost_self names hstored.subscriptionHost
  have hhttp : Gives (askWhen (config.subscriptionMode = .ipFallback)
      (require env (config.httpPort.map portText) parseHighPort)) config.httpPort :=
    gives_port hstored.httpPort hstored.no_httpPort fun port hport => by rw [hport]; rfl
  have hlisten : Gives (askWhen (config.subscriptionMode = .externalProxy)
      (require env (config.subscriptionListenPort.map portText) parseHighPort))
      config.subscriptionListenPort :=
    gives_port hstored.listenPort hstored.no_listenPort fun port hport => by rw [hport]; rfl
  have hports := @gives_ports _ _ env h ProtocolPorts.none fun protocol _ => by
    cases protocol <;> rfl
  have hmerge : mergeProtocolOrder ((some config).map (·.enabledProtocols))
      (protocolOrder.filter (· ∈ config.enabledProtocols)) = config.enabledProtocols :=
    mergeProtocolOrder_same _
  unfold run
  refine (outcome_bind (gives_require (parseMode_display config.subscriptionMode)) _).trans ?_
  refine (outcome_bind (gives_require hhost) _).trans ?_
  refine (outcome_bind (gives_proxyHost names hstored) _).trans ?_
  refine (outcome_bind (gives_email h) _).trans ?_
  refine (outcome_bind hhttp _).trans ?_
  refine (outcome_bind hlisten _).trans ?_
  refine (outcome_bind (gives_require (parseInterface_self hstored.interface)) _).trans ?_
  refine (outcome_bind (gives_require
    (parseCertificateMode_display config.certificateMode)) _).trans ?_
  refine (outcome_bind (gives_selected config) _).trans ?_
  rw [hmerge]
  refine (outcome_bind hports _).trans ?_
  refine (outcome_bind (gives_decoySni hstored) _).trans ?_
  refine (outcome_bind (gives_protocolSni config.enabledProtocols config.protocolSni) _).trans ?_
  refine (outcome_bind (gives_schedule names hstored hreset) _).trans ?_
  rfl

/-! ## The other dialogues -/

theorem runTemplateSelection_enter :
    outcome (runTemplateSelection env config) = some (.ok .unchanged) := by
  unfold runTemplateSelection askClientTemplatePreset
  rw [outcome_bind (gives_require (parseClientTemplate_display _)), outcome_conclude]

theorem gives_liftConfig {α : Type} {x : Except ConfigError α} {a : α} (h : x = .ok a) :
    Gives (liftConfig x) a := by
  rw [h]
  exact gives_pure a

theorem gives_askHopping (enabled : Bool) :
    Gives (askHopping enabled env.fuel) (if enabled then .on else .off) := by
  rw [Env.fuel, askHopping]
  exact gives_ask.bind (gives_pure _)

theorem parseRange_range (hop : PortHopping) :
    parseRange hop.range = some (hop.start, hop.«end») := by
  have hfirst : '-' ∉ decimal hop.start.toNat := notMem_toDigits (by decide)
  unfold parseRange PortHopping.range
  simp only [splitOnce_append hfirst, Option.bind_eq_bind, Option.bind_some, parsePort_decimal,
    Option.pure_def]

/-- A stored range is read back and may be kept. -/
theorem gives_askHoppingRange (h : PortHopping.validate config = .ok ()) {hop : PortHopping}
    (hhop : config.hysteria2PortHopping = some hop) :
    Gives (askHoppingRange config env.fuel) config := by
  have hsame : { config with hysteria2PortHopping := some hop } = config := by
    rw [← hhop]
  rw [Env.fuel, askHoppingRange]
  refine gives_ask.bind ?_
  have hrange : hoppingRange (config.hysteria2PortHopping.getD defaultHopping) "" = hop.range := by
    rw [hhop]
    rfl
  rw [hrange, parseRange_range]
  refine gives_ask.bind ?_
  have hinterval : hoppingInterval (config.hysteria2PortHopping.getD defaultHopping) "" =
      some hop.intervalSeconds := by
    rw [hhop]
    rfl
  rw [hinterval]
  dsimp only
  rw [hsame, h]
  exact gives_pure config

theorem gives_configureHopping (h : PortHopping.validate config = .ok ())
    (hon : .hysteria2 ∈ config.enabledProtocols) : Gives (configureHopping env config) config := by
  rw [configureHopping, if_neg (not_not_intro hon)]
  refine (gives_askHopping _).bind ?_
  cases hhop : config.hysteria2PortHopping with
  | none =>
    have hsame : { config with hysteria2PortHopping := none } = config := by
      rw [← hhop]
    rw [Option.isSome_none, if_neg Bool.false_ne_true]
    dsimp only
    rw [hsame]
    exact gives_pure config
  | some hop => exact gives_askHoppingRange h hhop

theorem runPortHopping_enter (h : Accepted lib config)
    (hon : .hysteria2 ∈ config.enabledProtocols) :
    outcome (runPortHopping lib env config) = some (.ok .unchanged) := by
  unfold runPortHopping
  rw [outcome_bind (gives_configureHopping (accepted_iff.mp h).1 hon),
    outcome_bind (gives_liftConfig h), outcome_conclude]

/-- What the template's questions make of the stored values. -/
def askedTemplate (config : DeploymentConfig) (secret : Option String) : DeploymentConfig :=
  { config with
    clientRuleSetBaseUrl := String.ofList (trimEndSlashes config.clientRuleSetBaseUrl.toList)
    clientLatencyProbeUrl := String.ofList (trimEndSlashes config.clientLatencyProbeUrl.toList)
    clientClashApiSecret := secret }

section
variable {text : String} {secret : Option String} {e : WizardError}

theorem gives_askClientTemplateFields (h : Stored lib config)
    (hread : parseClashApiSecret (config.clientClashApiSecret.getD "none") = .ok text)
    (hsecret : Gives (panelSecret env text) secret) :
    Gives (askClientTemplateFields env config) (askedTemplate config secret) := by
  refine (gives_require (parseClientTemplate_display _)).bind ?_
  refine (gives_require (parseDnsMode_display _)).bind ?_
  refine (gives_require (parseDnsPreset_display _)).bind ?_
  refine (gives_require (parseYesNo_display _)).bind ?_
  refine (gives_require (parseRuleProfile_display _)).bind ?_
  refine (gives_require (parseHttpUrlAnswer_stored h.ruleSetBaseUrl)).bind ?_
  refine (gives_require (parseHttpUrlAnswer_stored h.latencyProbeUrl)).bind ?_
  refine (gives_require hread).bind ?_
  exact hsecret.bind (gives_pure _)

theorem fails_askClientTemplateFields (h : Stored lib config)
    (hsecret : (∃ message,
        parseClashApiSecret (config.clientClashApiSecret.getD "none") = .error message ∧
          e = unreadable message) ∨
      parseClashApiSecret (config.clientClashApiSecret.getD "none") = .ok text ∧
        Fails (panelSecret env text) e) :
    Fails (askClientTemplateFields env config) e := by
  refine (gives_require (parseClientTemplate_display _)).fails_bind ?_
  refine (gives_require (parseDnsMode_display _)).fails_bind ?_
  refine (gives_require (parseDnsPreset_display _)).fails_bind ?_
  refine (gives_require (parseYesNo_display _)).fails_bind ?_
  refine (gives_require (parseRuleProfile_display _)).fails_bind ?_
  refine (gives_require (parseHttpUrlAnswer_stored h.ruleSetBaseUrl)).fails_bind ?_
  refine (gives_require (parseHttpUrlAnswer_stored h.latencyProbeUrl)).fails_bind ?_
  rcases hsecret with ⟨message, hread, rfl⟩ | ⟨hread, hfails⟩
  · exact (fails_require hread).bind _
  · refine (gives_require hread).fails_bind ?_
    exact hfails.bind _

end

theorem trimEndSlashes_stored {url : String} :
    String.ofList (trimEndSlashes url.toList) = url ↔ ¬ EndsInSlash url := by
  rw [EndsInSlash, ← ne_eq, ← trimEndSlashes_eq_self]
  constructor
  · intro h
    have := congrArg String.toList h
    rwa [String.toList_ofList] at this
  · intro h
    rw [h, String.ofList_toList]

theorem askedTemplate_eq_self {secret : Option String} :
    askedTemplate config secret = config ↔ ¬ EndsInSlash config.clientRuleSetBaseUrl ∧
      ¬ EndsInSlash config.clientLatencyProbeUrl ∧ secret = config.clientClashApiSecret := by
  rw [← trimEndSlashes_stored, ← trimEndSlashes_stored]
  constructor
  · intro h
    exact ⟨congrArg DeploymentConfig.clientRuleSetBaseUrl h,
      congrArg DeploymentConfig.clientLatencyProbeUrl h,
      congrArg DeploymentConfig.clientClashApiSecret h⟩
  · rintro ⟨hbase, hprobe, rfl⟩
    unfold askedTemplate
    rw [hbase, hprobe]

/-! ## When the deployment is kept -/

/-- The values that are not put in another form on the way through a dialogue. -/
structure Reproducible (config : DeploymentConfig) : Prop where
  hosts : config.lowered = config
  realityDecoySni : .vlessReality ∉ config.enabledProtocols → config.realityDecoySni = none
  protocolSni : certificateProtocols config.enabledProtocols = false → config.protocolSni = none
  anchoredResetAt : ∀ reset, config.anchoredResetAt = some reset → strip reset = reset
  ruleSetBaseUrl : ¬ EndsInSlash config.clientRuleSetBaseUrl
  latencyProbeUrl : ¬ EndsInSlash config.clientLatencyProbeUrl
  secret : ∀ secret, config.clientClashApiSecret = some secret → PlainSecret secret

/-- Empty answers change nothing, in any dialogue that can be opened. -/
structure EnterKeeps (lib : Libraries) (env : Env) (config : DeploymentConfig) : Prop where
  run : ∀ defaultInterface,
    outcome (run lib env (some config) defaultInterface) = some (.ok .unchanged)
  templateSelection : outcome (runTemplateSelection env config) = some (.ok .unchanged)
  topic : ∀ topic, (topic = .portHopping → .hysteria2 ∈ config.enabledProtocols) →
    outcome (runTopic lib env config topic) = some (.ok .unchanged)

theorem askedOptions_readBack (h : Reproducible config) : askedOptions config = config.options := by
  have hdecoy : (if .vlessReality ∈ config.enabledProtocols then config.realityDecoySni else none) =
      config.realityDecoySni := by
    by_cases hon : .vlessReality ∈ config.enabledProtocols
    · rw [if_pos hon]
    · rw [if_neg hon, h.realityDecoySni hon]
  have hsni : (if certificateProtocols config.enabledProtocols then config.protocolSni else none) =
      config.protocolSni := by
    by_cases hon : certificateProtocols config.enabledProtocols = true
    · rw [if_pos hon]
    · rw [if_neg hon, h.protocolSni (Bool.not_eq_true _ ▸ hon)]
  unfold askedOptions
  rw [hdecoy, hsni]
  rfl

theorem enterKeeps_of_reproducible (names : Names lib) (h : Installed lib config)
    (hsame : Reproducible config) : EnterKeeps lib env config := by
  have hedit : outcome (editOptions lib env config config.options) = some (.ok .unchanged) := by
    rw [outcome_editOptions, applyOptions_readBack h.accepted h.exact (readBack_options config),
      hsame.hosts, show validate lib config = .ok () from h.accepted]
    rfl
  constructor
  case run =>
    intro defaultInterface
    rw [run_enter names h hsame.anchoredResetAt, askedOptions_readBack hsame, hedit]
  case templateSelection => exact runTemplateSelection_enter
  case topic =>
    intro topic hopen
    cases topic with
    | subscription => exact (runSubscription_enter names h).trans hedit
    | protocols =>
      refine (runProtocols_enter h).trans ?_
      rw [askedOptions_readBack hsame, hedit]
    | traffic => exact (runTraffic_enter names h.stored hsame.anchoredResetAt).trans hedit
    | portHopping => exact runPortHopping_enter h.accepted (hopen rfl)
    | clientTemplate =>
      have hsecret : Gives (askClientTemplateFields env config)
          (askedTemplate config config.clientClashApiSecret) := by
        cases hstored : config.clientClashApiSecret with
        | none =>
          have hpanel : Gives (panelSecret env "none") none := gives_pure none
          apply gives_askClientTemplateFields h.stored _ hpanel
          rw [hstored]
          rfl
        | some secret =>
          have hplain := hsame.secret secret hstored
          have hpanel : Gives (panelSecret env secret) (some secret) := by
            rw [panelSecret_self env hplain]
            exact gives_pure _
          apply gives_askClientTemplateFields h.stored _ hpanel
          rw [hstored]
          exact parseClashApiSecret_self hplain
      rw [askedTemplate_eq_self.mpr ⟨hsame.ruleSetBaseUrl, hsame.latencyProbeUrl, rfl⟩] at hsecret
      change outcome (runClientTemplate lib env config) = _
      unfold runClientTemplate
      rw [outcome_bind hsecret, outcome_bind (gives_liftConfig h.accepted), outcome_conclude]

/-! ## What a kept deployment stores -/

/-- A random source that yields nothing. -/
def silentEnv : Env where
  chance :=
    { secret := fun _ => .error "", draw := fun _ _ => .error "", holder := fun _ _ _ => none,
      publicKey := id }
  parseTrafficAmount := fun _ => .error ""
  patience := 0

theorem rebuilt_of_unchanged {options : DeploymentOptions}
    (h : outcome (editOptions lib env config options) = some (.ok .unchanged)) :
    ∃ credentials, config =
      rebuilt (some config) options config.subscriptionCredential credentials := by
  rw [outcome_editOptions] at h
  obtain ⟨credentials, -, hconfig, -⟩ := applyOptions_ok h
  exact ⟨credentials, hconfig⟩

theorem lowered_of_unchanged
    (h : outcome (editOptions lib env config config.options) = some (.ok .unchanged)) :
    config.lowered = config := by
  obtain ⟨credentials, hconfig⟩ := rebuilt_of_unchanged h
  have hhost : config.subscriptionHost = toAsciiLowercase config.subscriptionHost :=
    congrArg DeploymentConfig.subscriptionHost hconfig
  have hproxy : config.proxyHost = config.proxyHost.map toAsciiLowercase :=
    congrArg DeploymentConfig.proxyHost hconfig
  unfold DeploymentConfig.lowered
  rw [← hhost, ← hproxy]

theorem decoySni_of_unchanged
    (h : outcome (editOptions lib env config (askedOptions config)) = some (.ok .unchanged)) :
    (.vlessReality ∉ config.enabledProtocols → config.realityDecoySni = none) ∧
      (certificateProtocols config.enabledProtocols = false → config.protocolSni = none) := by
  obtain ⟨credentials, hconfig⟩ := rebuilt_of_unchanged h
  have hdecoy : config.realityDecoySni =
      if .vlessReality ∈ config.enabledProtocols then config.realityDecoySni else none :=
    congrArg DeploymentConfig.realityDecoySni hconfig
  have hsni : config.protocolSni =
      if certificateProtocols config.enabledProtocols then config.protocolSni else none :=
    congrArg DeploymentConfig.protocolSni hconfig
  constructor
  · intro hoff
    rw [hdecoy, if_neg hoff]
  · intro hoff
    rw [hsni, if_neg (by rw [hoff]; exact Bool.false_ne_true)]

/-- The first reset is read back without the white space around it. -/
theorem reset_of_unchanged (names : Names lib) (hstored : Stored lib config)
    (h : outcome (runTraffic lib env config) = some (.ok .unchanged)) {reset : String}
    (hreset : config.anchoredResetAt = some reset) : strip reset = reset := by
  have hpolicy : config.accountingPolicy = .anchoredMonth := by
    cases hp : config.accountingPolicy with
    | naturalMonth =>
      rw [hstored.natural hp] at hreset
      cases hreset
    | anchoredMonth => rfl
  have hlimit := @gives_askTrafficLimit env config.monthlyTrafficLimit
  have hzone := @gives_require env _ _ _ _
    (parseAccountingTimezone_self names hstored.accountingTimezone)
  have hdisplay := @gives_require env _ _ _ _
    (parseTimezone_self names hstored.clientDisplayTimezone)
  have hread := @gives_require env _ _ _ _ (parsePolicy_display config.accountingPolicy)
  cases hparse : parseResetAt lib reset with
  | error message =>
    have hfails : Fails (askSchedule lib env (scheduleOf config)) (unreadable message) := by
      refine hlimit.fails_bind (hzone.fails_bind (hdisplay.fails_bind (hread.fails_bind ?_)))
      refine Fails.bind ?_ _
      have hasked : decide (config.accountingPolicy = .anchoredMonth) = true :=
        decide_eq_true hpolicy
      unfold askWhen
      rw [if_pos hasked]
      change Fails (require env config.anchoredResetAt (parseResetAt lib) >>= _) _
      rw [hreset]
      exact (fails_require hparse).bind _
    unfold runTraffic at h
    rw [(hfails.bind _).outcome] at h
    cases h
  | ok value =>
    have hgives : Gives (askSchedule lib env (scheduleOf config))
        { scheduleOf config with anchoredResetAt := some value } := by
      refine hlimit.bind (hzone.bind (hdisplay.bind (hread.bind ?_)))
      refine Gives.bind (a := some value) ?_ (gives_pure _)
      refine gives_askWhen (fun _ => ⟨value, rfl, ?_⟩) fun hnot => ?_
      · change Gives (require env config.anchoredResetAt (parseResetAt lib)) value
        rw [hreset]
        exact gives_require hparse
      · exact absurd hpolicy (of_decide_eq_false hnot)
    unfold runTraffic at h
    rw [outcome_bind hgives,
      outcome_bind (gives_require (parseInterface_self hstored.interface))] at h
    obtain ⟨credentials, hconfig⟩ := rebuilt_of_unchanged h
    have hvalue : config.anchoredResetAt = some value :=
      congrArg DeploymentConfig.anchoredResetAt hconfig
    rw [hreset, Option.some.injEq] at hvalue
    exact (parseStripped_ok hparse).symm.trans hvalue.symm

/-- A run that keeps the template read the stored secret as itself. -/
theorem template_of_unchanged (hstored : Stored lib config)
    (h : outcome (runClientTemplate lib silentEnv config) = some (.ok .unchanged)) :
    ¬ EndsInSlash config.clientRuleSetBaseUrl ∧ ¬ EndsInSlash config.clientLatencyProbeUrl ∧
      ∀ secret, config.clientClashApiSecret = some secret → PlainSecret secret := by
  have hgives : ∀ {text : String} {secret : Option String},
      parseClashApiSecret (config.clientClashApiSecret.getD "none") = .ok text →
        Gives (panelSecret silentEnv text) secret →
          ¬ EndsInSlash config.clientRuleSetBaseUrl ∧ ¬ EndsInSlash config.clientLatencyProbeUrl ∧
            secret = config.clientClashApiSecret := by
    intro text secret hread hsecret
    have hfields := gives_askClientTemplateFields hstored hread hsecret
    unfold runClientTemplate at h
    rw [outcome_bind hfields] at h
    rw [← askedTemplate_eq_self]
    cases hvalid : validate lib (askedTemplate config secret) with
    | error e =>
      have hfails : Fails (liftConfig (Except.error e : Except ConfigError Unit)) (.config e) :=
        fails_throw _
      rw [hvalid, (hfails.bind _).outcome] at h
      cases h
    | ok =>
      rw [outcome_bind (gives_liftConfig hvalid)] at h
      exact outcome_conclude.mp h
  have hfails : ∀ {e : WizardError}, ¬ Fails (askClientTemplateFields silentEnv config) e := by
    intro e hfields
    unfold runClientTemplate at h
    rw [(hfields.bind _).outcome] at h
    cases h
  cases hsecret : config.clientClashApiSecret with
  | none =>
    have hpanel : Gives (panelSecret silentEnv "none") none := gives_pure none
    obtain ⟨hbase, hprobe, -⟩ := hgives (by rw [hsecret]; rfl) hpanel
    exact ⟨hbase, hprobe, fun _ hc => by cases hc⟩
  | some secret =>
    rw [hsecret, Option.getD_some] at hgives
    have hread := fun text e =>
      @fails_askClientTemplateFields _ _ silentEnv text e hstored
    rw [hsecret, Option.getD_some] at hread
    rcases parseClashApiSecret_cases secret with ⟨message, hparse⟩ | hparse | hparse | ⟨hplain, hparse⟩
    · exact absurd (hread "" _ (.inl ⟨message, hparse, rfl⟩)) hfails
    · obtain ⟨-, -, hnone⟩ := hgives hparse (gives_pure none)
      cases hnone
    · exact absurd (hread _ _ (.inr ⟨hparse, fails_throw _⟩)) hfails
    · have hpanel : Gives (panelSecret silentEnv (strip secret)) (some (strip secret)) := by
        rw [panelSecret_self silentEnv hplain]
        exact gives_pure _
      obtain ⟨hbase, hprobe, hsame⟩ := hgives hparse hpanel
      rw [Option.some.injEq] at hsame
      refine ⟨hbase, hprobe, fun other hother => ?_⟩
      rw [← Option.some.inj hother, ← hsame]
      exact hplain

/-- Empty answers keep a deployment, whatever the random source yields and however
often a question is put again, when its values are reproduced. -/
theorem enter_keeps_iff (names : Names lib) (h : Installed lib config) :
    (∀ env, EnterKeeps lib env config) ↔ Reproducible config := by
  constructor
  · intro hkeeps
    have hkept := (hkeeps silentEnv).topic
    have hsubscription := hkept .subscription fun hc => nomatch hc
    have hprotocols := hkept .protocols fun hc => nomatch hc
    have htraffic := hkept .traffic fun hc => nomatch hc
    have htemplate := hkept .clientTemplate fun hc => nomatch hc
    obtain ⟨hdecoy, hsni⟩ := decoySni_of_unchanged ((runProtocols_enter h).symm.trans hprotocols)
    obtain ⟨hbase, hprobe, hsecret⟩ := template_of_unchanged h.stored htemplate
    constructor
    case hosts => exact lowered_of_unchanged ((runSubscription_enter names h).symm.trans hsubscription)
    case anchoredResetAt => exact fun reset => reset_of_unchanged names h.stored htraffic
    all_goals assumption
  · intro hsame env
    exact enterKeeps_of_reproducible names h hsame

/-! ## A deployment in direct mode -/

/-- The sample deployment with an email address. -/
def mailedConfig : DeploymentConfig := { sampleConfig with certbotEmail := some "admin@example.com" }

/-- The sample's libraries, which know one time zone. -/
def zoneLibraries : Libraries :=
  { sampleLibraries with parseTz := fun name => if name = "UTC" then some Clock.Zone.utc else none }

theorem zoneLibraries_names : Names zoneLibraries := by
  have hutc : ∀ name, (zoneLibraries.parseTz name).isSome = true → name = "UTC" := by
    intro name h
    by_contra hname
    have hnone : zoneLibraries.parseTz name = none := if_neg hname
    rw [hnone] at h
    cases h
  constructor
  case address =>
    intro host hc
    cases hc
  case zone =>
    intro name h
    rw [hutc name h]
    rfl
  case zone_choice =>
    intro name h
    rw [hutc name h]
    decide

theorem mailedConfig_installed : Installed zoneLibraries mailedConfig where
  accepted := by
    unfold Accepted
    decide
  exact := by
    intro protocol
    cases protocol <;> decide
  email := by
    refine fun _ => ⟨"admin@example.com", rfl, fun c hc => ?_, "admin", "example.com", rfl, ?_⟩
    · have hclear : ("admin@example.com".toList.all fun c => !isWhitespace c) = true := by decide
      simpa using List.all_eq_true.mp hclear c hc
    · decide
  no_email := by
    intro hmode
    exact absurd rfl hmode

theorem mailedConfig_reproducible : Reproducible mailedConfig where
  hosts := by decide
  realityDecoySni := by
    intro _
    rfl
  protocolSni := by
    intro _
    rfl
  anchoredResetAt := by
    intro reset hreset
    cases hreset
  ruleSetBaseUrl := by
    unfold EndsInSlash
    decide
  latencyProbeUrl := by
    unfold EndsInSlash
    decide
  secret := by
    intro secret hsecret
    cases hsecret

theorem enter_keeps_iff_mailed : Names zoneLibraries ∧ Installed zoneLibraries mailedConfig ∧
    ∀ env, EnterKeeps zoneLibraries env mailedConfig :=
  ⟨zoneLibraries_names, mailedConfig_installed,
    (enter_keeps_iff zoneLibraries_names mailedConfig_installed).mpr mailedConfig_reproducible⟩

/-- The same deployment, measuring latency at the root of a site. -/
def slashConfig : DeploymentConfig :=
  { mailedConfig with clientLatencyProbeUrl := "https://cdn.example.com/" }

/-- The slash at the end of a stored URL is dropped, and the change is offered. -/
theorem enter_drops_slash : Names zoneLibraries ∧ Installed zoneLibraries slashConfig ∧
    outcome (runTopic zoneLibraries silentEnv slashConfig .clientTemplate) =
      some (.ok .cancelled) ∧ ¬ EnterKeeps zoneLibraries silentEnv slashConfig := by
  have hinstalled : Installed zoneLibraries slashConfig :=
    { mailedConfig_installed with
      accepted := by
        unfold Accepted
        decide +kernel }
  have hcancelled : outcome (runTopic zoneLibraries silentEnv slashConfig .clientTemplate) =
      some (.ok .cancelled) := by
    decide +kernel
  refine ⟨zoneLibraries_names, hinstalled, hcancelled, fun hkeeps => ?_⟩
  have hkept := hkeeps.topic .clientTemplate (by decide)
  rw [hcancelled] at hkept
  cases hkept

end

end Wizard

end Sbctl
