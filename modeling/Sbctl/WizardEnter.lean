import Sbctl.Wizard

/-!
# Empty answers

Every question shows the current value, and an empty answer is read as that
value. Most values come back as they were stored.

* `parseStripped_self`, `parseKeyword_display`: a stored value reads as itself.
-/

namespace Sbctl

namespace Wizard

open Dialog Text

/-! ## Reading what is displayed -/

theorem parseMode_display (mode : SubscriptionMode) : parseMode mode.display = .ok mode := by
  cases mode <;> rfl

theorem parseCertificateMode_display (mode : CertificateMode) :
    parseCertificateMode mode.display = .ok mode := by
  cases mode <;> rfl

theorem parsePolicy_display (policy : AccountingPolicy) :
    parsePolicy policy.display = .ok policy := by
  cases policy <;> rfl

theorem parseDnsMode_display (mode : ClientDnsMode) : parseDnsMode mode.display = .ok mode := by
  cases mode <;> rfl

theorem parseDnsPreset_display (preset : ClientDnsPreset) :
    parseDnsPreset preset.display = .ok preset := by
  cases preset <;> rfl

theorem parseRuleProfile_display (profile : ClientRuleProfile) :
    parseRuleProfile profile.display = .ok profile := by
  cases profile <;> rfl

theorem parseClientTemplate_display (template : ClientTemplate) :
    parseClientTemplate template.display = .ok template := by
  cases template <;> rfl

theorem parseYesNo_display (b : Bool) : parseYesNo (if b then "yes" else "no") = .ok b := by
  cases b <;> rfl

theorem strip_eq_self {value : String} (h : Trimmed value.toList) : strip value = value := by
  rw [strip, trim_eq_self h, String.ofList_toList]

theorem strip_of_clear {value : String} (h : ∀ c ∈ value.toList, isWhitespace c = false) :
    strip value = value := strip_eq_self (trimmed_of_clear h)

theorem parseStripped_self {holds : String → Bool} {message value : String}
    (hstrip : strip value = value) (h : holds value = true) :
    parseStripped holds message value = .ok value := by
  rw [parseStripped, hstrip, if_pos h]

theorem parseStripped_ok {holds : String → Bool} {message value read : String}
    (h : parseStripped holds message value = .ok read) : read = strip value := by
  unfold parseStripped at h
  split at h
  · cases h
    rfl
  · cases h

/-! ## Names -/

theorem isWhitespace_of_alphanumeric {c : Char} (h : isAsciiAlphanumeric c = true) :
    isWhitespace c = false := by
  simp only [isAsciiAlphanumeric, Bool.or_eq_true, Bool.and_eq_true, decide_eq_true_eq,
    le_iff_toNat_le, Char.reduceToNat] at h
  simp only [isWhitespace, Bool.or_eq_false_iff, Bool.and_eq_false_iff, decide_eq_false_iff_not,
    beq_eq_false_iff_ne]
  omega

theorem hostname_clear {label value : String} (h : validateHostname label value = .ok ()) :
    ∀ c ∈ value.toList, isWhitespace c = false := by
  obtain ⟨-, -, hparts⟩ := not_not.mp (rejectIf_ok.mp h)
  intro c hc
  rw [← join_splitChar '.' value.toList] at hc
  rcases mem_join hc with rfl | ⟨part, hpart, hc⟩
  · rfl
  · obtain ⟨-, -, -, -, hall⟩ := hparts part hpart
    have := List.all_eq_true.mp hall c hc
    rw [Bool.or_eq_true, beq_iff_eq] at this
    rcases this with hword | rfl
    · exact isWhitespace_of_alphanumeric hword
    · rfl

theorem validateHostname_label {label value : String} (h : validateHostname label value = .ok ())
    (other : String) : validateHostname other value = .ok () :=
  rejectIf_ok.mpr (rejectIf_ok.mp h)

/-- The names the libraries read have no white space around them, and none of the
time zones is called like a choice of the list. -/
structure Names (lib : Libraries) : Prop where
  address : ∀ host, lib.isIpAddr host = true → strip host = host
  zone : ∀ name, (lib.parseTz name).isSome = true → strip name = name
  zone_choice : ∀ name, (lib.parseTz name).isSome = true → name ∉ ["1", "2", "3"]

section
variable {lib : Libraries} {config : DeploymentConfig}

theorem hostIsValid_of_ok {label host : String} (h : validateHost lib label host = .ok ()) :
    hostIsValid lib host = true := by
  have hother : validateHost lib "host" host = .ok () := by
    unfold validateHost at h ⊢
    split
    · rfl
    · rename_i hip
      rw [if_neg hip] at h
      exact validateHostname_label h _
  rw [hostIsValid, hother]
  rfl

theorem strip_host (names : Names lib) {label host : String}
    (h : validateHost lib label host = .ok ()) : strip host = host := by
  unfold validateHost at h
  split at h
  · exact names.address host ‹_›
  · exact strip_of_clear (hostname_clear h)

theorem parseHost_self (names : Names lib) {label host : String}
    (h : validateHost lib label host = .ok ()) : parseHost lib host = .ok host :=
  parseStripped_self (strip_host names h) (hostIsValid_of_ok h)

theorem parseOptionalHost_self (names : Names lib) {label host : String}
    (h : validateHost lib label host = .ok ()) : parseOptionalHost lib host = .ok host :=
  parseStripped_self (strip_host names h) (hostIsValid_of_ok h)

theorem parseHostname_self {label host : String} (h : validateHostname label host = .ok ()) :
    parseHostname host = .ok host := by
  refine parseStripped_self (strip_of_clear (hostname_clear h)) ?_
  rw [hostnameIsValid, validateHostname_label h]
  rfl

theorem parseInterface_self {interface : String} (h : interfaceNameValid interface) :
    parseInterface interface = .ok interface := by
  obtain ⟨hne, hsize, -, hall⟩ := h
  have hclear : ∀ c ∈ interface.toList, isWhitespace c = false := by
    intro c hc
    have hchar := List.all_eq_true.mp hall c hc
    simp only [Bool.or_eq_true, beq_iff_eq] at hchar
    rcases hchar with ((hword | rfl) | rfl) | rfl
    · exact isWhitespace_of_alphanumeric hword
    all_goals rfl
  exact parseStripped_self (strip_of_clear hclear) (decide_eq_true ⟨hne, hsize, hall⟩)

theorem parseTimezone_self (names : Names lib) {name : String}
    (h : (lib.parseTz name).isSome = true) : parseTimezone lib name = .ok name :=
  parseStripped_self (names.zone name h) h

theorem parseAccountingTimezone_self (names : Names lib) {name : String}
    (h : (lib.parseTz name).isSome = true) : parseAccountingTimezone lib name = .ok name := by
  have hchoice := names.zone_choice name h
  simp only [List.mem_cons, List.not_mem_nil, or_false, not_or] at hchoice
  obtain ⟨h₁, h₂, h₃⟩ := hchoice
  unfold parseAccountingTimezone
  rw [names.zone name h]
  split
  · exact absurd rfl h₁
  · exact absurd rfl h₂
  · exact absurd rfl h₃
  · exact parseTimezone_self names h

/-! ## Ports -/

theorem parsePort_decimal (port : UInt16) : parsePort (decimal port.toNat) = some port := by
  have hbound : port.toNat ≤ 65535 := Nat.le_of_lt_succ port.toNat_lt
  rw [parsePort, decimal, parseUnsigned_toDigits hbound, Option.map_some, UInt16.ofNat_toNat]

theorem decimal_clear (n : Nat) : ∀ c ∈ decimal n, isWhitespace c = false := by
  intro c hc
  apply isWhitespace_of_alphanumeric
  have hdigit := isDigit_of_mem hc
  rw [Char.isDigit, Bool.and_eq_true, decide_eq_true_eq, decide_eq_true_eq] at hdigit
  rw [isAsciiAlphanumeric, Bool.or_eq_true, Bool.and_eq_true, decide_eq_true_eq, decide_eq_true_eq]
  exact .inr hdigit

theorem parsePortIn_self {low high port : UInt16} {message : String} (hlow : low ≤ port)
    (hhigh : port ≤ high) : parsePortIn low high message (portText port) = .ok port := by
  rw [parsePortIn, portText, String.toList_ofList, trim_eq_self (trimmed_of_clear (decimal_clear _)),
    parsePort_decimal]
  exact if_pos ⟨hlow, hhigh⟩

theorem parseHighPort_self {port : UInt16} (h : ¬ port ≤ 1024) :
    parseHighPort (portText port) = .ok port := by
  apply parsePortIn_self
  · rw [UInt16.le_iff_toNat_le] at h ⊢
    exact Nat.succ_le_of_lt (Nat.lt_of_not_le h)
  · exact UInt16.le_iff_toNat_le.mpr (Nat.le_of_lt_succ port.toNat_lt)

theorem parseProtocolPort_self {port : UInt16}
    (h : minProtocolPort ≤ port ∧ port ≤ maxProtocolPort) :
    parseProtocolPort (portText port) = .ok port := parsePortIn_self h.1 h.2

/-! ## Addresses and secrets -/

/-- An address with one `@` between a local part and a domain. -/
structure WellFormedEmail (lib : Libraries) (email : String) : Prop where
  clear : ∀ c ∈ email.toList, isWhitespace c = false
  parts : ∃ localPart domain : String, email = localPart ++ "@" ++ domain ∧ localPart ≠ "" ∧
    '@' ∉ localPart.toList ∧ '@' ∉ domain.toList ∧ domain ≠ "" ∧
    validateHost lib "host" domain = .ok ()

theorem WellFormedEmail.ne_empty {email : String} (h : WellFormedEmail lib email) : email ≠ "" := by
  obtain ⟨localPart, domain, rfl, -⟩ := h.parts
  intro hempty
  have := congrArg String.toList hempty
  simp at this

theorem parseCertbotEmail_self {email : String} (h : WellFormedEmail lib email) :
    parseCertbotEmail lib email = .ok email := by
  refine parseStripped_self (strip_of_clear h.clear) ?_
  rw [Bool.or_eq_true]
  right
  obtain ⟨localPart, domain, hemail, hne, hlocal, hdomain, hdomain', hhost⟩ := h.parts
  have hlist : email.toList = localPart.toList ++ '@' :: domain.toList := by
    rw [hemail, String.toList_append, String.toList_append]
    simp
  have hspace : email.toList.any isWhitespace = false :=
    List.any_eq_false.mpr fun c hc => by rw [h.clear c hc]; exact Bool.false_ne_true
  have hcount : email.toList.count '@' = 1 := by
    rw [hlist, List.count_append, List.count_cons_self, List.count_eq_zero.mpr hlocal,
      List.count_eq_zero.mpr hdomain]
  unfold emailValid
  rw [hspace, hcount, hlist, splitOnce_append hlocal, Option.any_some]
  dsimp only
  rw [String.ofList_toList, hostIsValid_of_ok hhost]
  simp [hne, hdomain']

def EndsInSlash (url : String) : Prop := url.toList.getLast? = some '/'

theorem trimEndSlashes_eq_self {cs : List Char} : trimEndSlashes cs = cs ↔ cs.getLast? ≠ some '/' := by
  constructor
  · intro h hlast
    have hhead := head?_dropWhile_not (· == '/') cs.reverse '/' (by
      rw [trimEndSlashes, List.reverse_eq_iff] at h
      rw [h, List.head?_reverse, hlast]
      rfl)
    cases hhead
  · intro h
    rw [trimEndSlashes, dropWhile_eq_self, List.reverse_reverse]
    intro c hc
    rw [List.head?_reverse] at hc
    rw [beq_eq_false_iff_ne]
    rintro rfl
    exact h hc

/-- A stored URL is read without the slashes at its end. -/
theorem parseHttpUrlAnswer_stored {url : String} (h : parseHttpUrl lib url ≠ none) :
    parseHttpUrlAnswer url = .ok (String.ofList (trimEndSlashes url.toList)) := by
  obtain ⟨parsed, hparsed⟩ := Option.ne_none_iff_exists'.mp h
  simp only [parseHttpUrl, Option.bind_eq_bind, Option.bind_eq_some_iff] at hparsed
  obtain ⟨after, hscheme, hparsed⟩ := hparsed
  split at hparsed
  · cases hparsed
  rename_i hgood
  simp only [not_or] at hgood
  have hclear : ∀ c ∈ url.toList, isWhitespace c = false := by
    intro c hc
    have hany := hgood.2.2.2
    rw [Bool.not_eq_true, List.any_eq_false] at hany
    have := hany c hc
    rw [Bool.or_eq_true, not_or, Bool.not_eq_true] at this
    exact this.1
  have hstarts : (startsWith url.toList "http://".toList ||
      startsWith url.toList "https://".toList) = true := by
    rw [Bool.or_eq_true, startsWith, startsWith]
    cases hhttp : stripPrefix "http://".toList url.toList with
    | some rest => exact .inl rfl
    | none =>
      rw [hhttp] at hscheme
      right
      change stripPrefix "https://".toList url.toList = some after at hscheme
      rw [hscheme]
      rfl
  unfold parseHttpUrlAnswer
  rw [trim_eq_self (trimmed_of_clear hclear)]
  exact if_pos hstarts

/-- One word that is not read in a special way. -/
structure PlainSecret (secret : String) : Prop where
  ne_empty : secret ≠ ""
  clear : ∀ c ∈ secret.toList, isWhitespace c = false
  not_special : toAsciiLowercase secret ∉ ["none", "off", "0", "random", "1"]

theorem parseClashApiSecret_self {secret : String} (h : PlainSecret secret) :
    parseClashApiSecret secret = .ok secret := by
  have htrimmed := trimmed_of_clear h.clear
  have hword : ¬ 1 < (words secret.toList).length := by
    rw [one_lt_words htrimmed]
    rintro ⟨c, hc, hspace⟩
    rw [h.clear c hc] at hspace
    cases hspace
  have hne : secret.toList ≠ [] := fun hnil => h.ne_empty (String.toList_eq_nil_iff.mp hnil)
  have hspecial := h.not_special
  simp only [List.mem_cons, List.not_mem_nil, or_false, not_or] at hspecial
  unfold parseClashApiSecret
  dsimp only
  rw [trim_eq_self htrimmed, if_neg (not_or.mpr ⟨hne, hword⟩), String.ofList_toList]
  split
  · exact absurd ‹_› hspecial.1
  · exact absurd ‹_› hspecial.2.1
  · exact absurd ‹_› hspecial.2.2.1
  · exact absurd ‹_› hspecial.2.2.2.1
  · exact absurd ‹_› hspecial.2.2.2.2
  · rfl

theorem panelSecret_self (env : Env) {secret : String} (h : PlainSecret secret) :
    panelSecret env secret = return some secret := by
  have hspecial := h.not_special
  have hword : ∀ word ∈ ["none", "off", "0", "random", "1"], secret ≠ word := by
    rintro word hword rfl
    refine hspecial ?_
    revert hword
    simp only [List.mem_cons, List.not_mem_nil, or_false]
    rintro (rfl | rfl | rfl | rfl | rfl) <;> decide
  unfold panelSecret
  split
  · exact absurd rfl h.ne_empty
  all_goals first | rfl | exact absurd rfl (hword _ (by decide))

/-- What is read back from a stored secret: an error, one of the two special words
or a plain secret. -/
theorem parseClashApiSecret_cases (secret : String) :
    (∃ message, parseClashApiSecret secret = .error message) ∨
      parseClashApiSecret secret = .ok "none" ∨ parseClashApiSecret secret = .ok "random" ∨
      PlainSecret (strip secret) ∧ parseClashApiSecret secret = .ok (strip secret) := by
  unfold parseClashApiSecret
  dsimp only
  by_cases hbad : trim secret.toList = [] ∨ 1 < (words (trim secret.toList)).length
  · rw [if_pos hbad]
    exact .inl ⟨_, rfl⟩
  · rw [if_neg hbad]
    right
    split
    · exact .inl rfl
    · exact .inl rfl
    · exact .inl rfl
    · exact .inr (.inl rfl)
    · exact .inr (.inl rfl)
    · rename_i h₁ h₂ h₃ h₄ h₅
      rw [not_or] at hbad
      refine .inr (.inr ⟨⟨?_, ?_, ?_⟩, rfl⟩)
      · intro hempty
        have := congrArg String.toList hempty
        rw [strip, String.toList_ofList] at this
        exact hbad.1 this
      · intro c hc
        rw [strip, String.toList_ofList] at hc
        rw [one_lt_words (trimmed_trim _)] at hbad
        by_contra hspace
        exact hbad.2 ⟨c, hc, Bool.not_eq_false _ ▸ hspace⟩
      · simp only [List.mem_cons, List.not_mem_nil, or_false, not_or]
        exact ⟨h₁, h₂, h₃, h₄, h₅⟩

/-! ## Questions -/

variable {env : Env}

theorem gives_require {α : Type} {parse : String → Except String α} {value : String} {a : α}
    (h : parse value = .ok a) : Gives (require env (some value) parse) a :=
  askRequired_enter h env.patience

theorem fails_require {α : Type} {parse : String → Except String α} {value message : String}
    (h : parse value = .error message) :
    Fails (require env (some value) parse) (unreadable message) :=
  askRequired_unreadable h env.patience

theorem gives_askOptional {α : Type} {parse : String → Except String α} {current : Option String}
    {value : Option α} (h : current.mapM parse = .ok value) :
    Gives (askOptional env current parse) value := by
  cases current with
  | none =>
    cases h
    exact askValue_none env.patience
  | some text =>
    rw [Option.mapM_some] at h
    obtain ⟨a, ha, rfl⟩ := map_ok.mp h
    exact askValue_enter ha env.patience

theorem gives_askTrafficLimit (current : UInt64) :
    Gives (askTrafficLimit env current env.fuel) current := by
  rw [Env.fuel, askTrafficLimit]
  exact gives_ask.bind (gives_pure current)

theorem gives_askYesNo (default : Bool) : Gives (askYesNo default env.fuel) default := by
  rw [Env.fuel, askYesNo]
  exact gives_ask.bind (gives_pure default)

theorem gives_askProtocolSni (current : Option String) :
    Gives (askProtocolSni current env.fuel) current := by
  rw [Env.fuel, askProtocolSni]
  exact gives_ask.bind (gives_pure current)

theorem gives_askCertbotEmail {email : String} (h : WellFormedEmail lib email) :
    Gives (askCertbotEmail lib env (some email) env.fuel) (some email) := by
  have hread : Gives (askOptional env (some email) (parseCertbotEmail lib)) (some email) :=
    askValue_enter (parseCertbotEmail_self h) env.patience
  have hstrip : strip email ≠ "" := by
    rw [strip_of_clear h.clear]
    exact h.ne_empty
  rw [Env.fuel, askCertbotEmail]
  refine hread.bind ?_
  rw [Option.filter_some, if_pos (decide_eq_true hstrip)]
  exact gives_pure _

theorem gives_askWhen {α : Type} {asked : Bool} {question : Asking α} {value : Option α}
    (hasked : asked = true → ∃ a, value = some a ∧ Gives question a)
    (hnot : asked = false → value = none) : Gives (askWhen asked question) value := by
  unfold askWhen
  cases asked with
  | false =>
    rw [hnot rfl]
    exact gives_pure none
  | true =>
    obtain ⟨a, rfl, hquestion⟩ := hasked rfl
    exact hquestion.bind (gives_pure (some a))

theorem gives_askProtocols (enabled : ManagedProtocol → Bool) (protocols : List ManagedProtocol) :
    Gives (askProtocols env enabled protocols) (protocols.filter enabled) := by
  induction protocols with
  | nil => exact gives_pure []
  | cons protocol protocols ih =>
    rw [askProtocols]
    refine (gives_askYesNo _).bind (ih.bind ?_)
    rw [List.filter_cons]
    exact gives_pure _

/-- With the same protocols selected their order stays. -/
theorem mergeProtocolOrder_same (enabled : List ManagedProtocol) :
    mergeProtocolOrder (some enabled) (protocolOrder.filter (· ∈ enabled)) = enabled := by
  have hall : ∀ protocol : ManagedProtocol, protocol ∈ protocolOrder := by
    intro protocol
    cases protocol <;> decide
  have hkept : enabled.filter (· ∈ protocolOrder.filter (· ∈ enabled)) = enabled := by
    rw [List.filter_eq_self]
    intro protocol hmem
    exact decide_eq_true (List.mem_filter.mpr ⟨hall protocol, decide_eq_true hmem⟩)
  have hfold : ∀ selected : List ManagedProtocol, (∀ protocol ∈ selected, protocol ∈ enabled) →
      selected.foldl (fun merged protocol =>
        if protocol ∈ merged then merged else merged ++ [protocol]) enabled = enabled := by
    intro selected hsub
    induction selected with
    | nil => rfl
    | cons protocol selected ih =>
      rw [List.foldl_cons, if_pos (hsub protocol List.mem_cons_self)]
      exact ih fun other hother => hsub other (List.mem_cons_of_mem _ hother)
  unfold mergeProtocolOrder
  dsimp only [Option.getD_some]
  rw [hkept]
  exact hfold _ fun protocol hmem => of_decide_eq_true (List.mem_filter.mp hmem).2

theorem requested_set (ports : ProtocolPorts) (protocol other : ManagedProtocol)
    (port : Option UInt16) :
    (ports.set protocol port).requested other =
      if other = protocol then port else ports.requested other := by
  cases protocol <;> cases other <;> rfl

theorem ports_ext {ports others : ProtocolPorts}
    (h : ∀ protocol, ports.requested protocol = others.requested protocol) : ports = others := by
  obtain ⟨a, b, c, d, e⟩ := ports
  obtain ⟨a', b', c', d', e'⟩ := others
  have h₁ := h .vlessReality
  have h₂ := h .vmessWebsocket
  have h₃ := h .hysteria2
  have h₄ := h .tuic
  have h₅ := h .anytls
  simp only [ProtocolPorts.requested] at h₁ h₂ h₃ h₄ h₅
  rw [h₁, h₂, h₃, h₄, h₅]

/-- Each protocol is given the port it has, the others keep theirs. -/
theorem gives_askPorts {current : ManagedProtocol → Option UInt16}
    (hrange : ∀ protocol port, current protocol = some port →
      minProtocolPort ≤ port ∧ port ≤ maxProtocolPort)
    (protocols : List ManagedProtocol) (ports : ProtocolPorts) :
    ∃ asked, Gives (askPorts env current ports protocols) asked ∧
      ∀ protocol, asked.requested protocol =
        if protocol ∈ protocols then current protocol else ports.requested protocol := by
  induction protocols generalizing ports with
  | nil => exact ⟨ports, gives_pure ports, fun protocol => (if_neg List.not_mem_nil).symm⟩
  | cons first protocols ih =>
    have hread : ((current first).map portText).mapM parseProtocolPort = .ok (current first) := by
      cases hport : current first with
      | none => rfl
      | some port =>
        rw [Option.map_some, Option.mapM_some, parseProtocolPort_self (hrange first port hport)]
        rfl
    obtain ⟨asked, hasked, hrequested⟩ := ih (ports.set first (current first))
    refine ⟨asked, (gives_askOptional hread).bind hasked, fun protocol => ?_⟩
    rw [hrequested protocol, requested_set]
    by_cases hmem : protocol ∈ protocols
    · rw [if_pos hmem, if_pos (List.mem_cons_of_mem _ hmem)]
    · rw [if_neg hmem]
      by_cases heq : protocol = first
      · rw [if_pos heq, heq, if_pos List.mem_cons_self]
      · rw [if_neg heq, if_neg (by rw [List.mem_cons, not_or]; exact ⟨heq, hmem⟩)]

end

end Wizard

end Sbctl
