import Sbctl.Ledger

/-!
# Sequences of credential commands

* `credential_lifecycle`: what every sequence of successful commands does to
  the secrets a deployment serves.
-/

namespace Sbctl

abbrev History := List (Occasion × CredentialCommand)

/-- The secret a command drew, if it drew one. -/
def drawn (p : Occasion × CredentialCommand) : Option String := p.1.generated.toOption

/-- Every secret the deployment has had. -/
def secretsOf (first : DeploymentConfig) (history : History) : List String :=
  first.subscriptionCredential :: first.subscriptionCredentials.map (·.credential) ++
    history.filterMap drawn

/-- The name a command issues a secret to. -/
def issues : CredentialCommand → Option String
  | .add name => some name
  | .revoke _ _ => none
  | .rotate name _ => name

/-- Each name with each secret ever issued to it. -/
def issuedTo (first : DeploymentConfig) (history : History) : List (String × String) :=
  (first.subscriptionCredentials.map fun entry => (entry.name, entry.credential)) ++
    history.filterMap fun p => (issues p.2).bind fun name => (drawn p).map fun s => (name, s)

/-- A sequence of successful commands at times that never go back, in which
every secret drawn is fresh. -/
inductive CredentialRun (lib : Libraries)
    (namedUrl : DeploymentConfig → String → Except ConfigError String)
    (first : DeploymentConfig) : History → DeploymentConfig → Prop
  | start : CredentialRun lib namedUrl first [] first
  | next {history config occasion command config'}
      (run : CredentialRun lib namedUrl first history config)
      (ordered : ∀ p ∈ history, p.1.now ≤ occasion.now)
      (fresh : ∀ s, occasion.generated = .ok s → s ∉ secretsOf first history)
      (step : runCredential lib namedUrl occasion config command = .ok config') :
      CredentialRun lib namedUrl first (history ++ [(occasion, command)]) config'

/-- `config'` follows a run by one more successful command. -/
structure Follows (lib : Libraries)
    (namedUrl : DeploymentConfig → String → Except ConfigError String) (first : DeploymentConfig)
    (history : History) (config : DeploymentConfig) (occasion : Occasion)
    (command : CredentialCommand) (config' : DeploymentConfig) : Prop where
  run : CredentialRun lib namedUrl first history config
  ordered : ∀ p ∈ history, p.1.now ≤ occasion.now
  fresh : ∀ s, occasion.generated = .ok s → s ∉ secretsOf first history
  step : runCredential lib namedUrl occasion config command = .ok config'

def OneLive (config : DeploymentConfig) : Prop :=
  ((config.subscriptionCredentials.filter fun r => r.revokedAt = none).map (·.name)).Nodup

theorem validateNamedCredentials_ok {liveNames : List String} {entries : List NamedCredential}
    (h : validateNamedCredentials liveNames entries = .ok ()) :
    ((entries.filter fun r => r.revokedAt = none).map (·.name)).Nodup ∧
      ∀ r ∈ entries, r.revokedAt = none → r.name ∉ liveNames := by
  induction entries generalizing liveNames with
  | nil => simp
  | cons entry entries ih =>
    simp only [validateNamedCredentials, check_ok, rejectIf_ok, not_and] at h
    obtain ⟨-, hnew, -, hrest⟩ := h
    obtain ⟨hnodup, hnames⟩ := ih hrest
    cases hrev : entry.revokedAt with
    | none =>
      simp only [hrev, if_true] at hnames
      refine ⟨?_, fun r hr hr' => ?_⟩
      · rw [List.filter_cons_of_pos (by simp [hrev]), List.map_cons, List.nodup_cons]
        refine ⟨fun hm => ?_, hnodup⟩
        obtain ⟨r, hr, hname⟩ := List.mem_map.mp hm
        obtain ⟨hr, hlive⟩ := List.mem_filter.mp hr
        exact hnames r hr (by simpa using hlive) (hname ▸ List.mem_cons_self)
      · rcases List.mem_cons.mp hr with rfl | hr
        · exact hnew hrev
        · exact fun hm => hnames r hr hr' (List.mem_cons_of_mem _ hm)
    | some x =>
      simp only [hrev, reduceCtorEq, if_false] at hnames
      refine ⟨?_, fun r hr hr' => ?_⟩
      · rwa [List.filter_cons_of_neg (by simp [hrev])]
      · rcases List.mem_cons.mp hr with rfl | hr
        · simp [hrev] at hr'
        · exact hnames r hr hr'

section
variable {lib : Libraries} {namedUrl : DeploymentConfig → String → Except ConfigError String}
  {first config config' : DeploymentConfig} {history : History} {occasion : Occasion}
  {command : CredentialCommand} {l l' : Ledger}

theorem Accepted.oneLive (h : Accepted lib config) : OneLive config := by
  obtain ⟨-, -, -, haccounting, -⟩ := accepted_iff.mp h
  simp only [validateSecretAndAccounting, check_ok] at haccounting
  exact (validateNamedCredentials_ok haccounting.2.1).1

/-- Two live records of one name are one record. -/
theorem OneLive.eq (h : OneLive config) {a b : NamedCredential}
    (ha : a ∈ config.subscriptionCredentials) (hb : b ∈ config.subscriptionCredentials)
    (hla : a.revokedAt = none) (hlb : b.revokedAt = none) (hname : a.name = b.name) : a = b :=
  List.inj_on_of_nodup_map h (List.mem_filter.mpr ⟨ha, by simpa using hla⟩)
    (List.mem_filter.mpr ⟨hb, by simpa using hlb⟩) hname

/-- A configuration and the ledger of its history. -/
structure Keeps (first : DeploymentConfig) (history : History) (config : DeploymentConfig)
    (l : Ledger) (clock : Int) : Prop where
  default_eq : config.subscriptionCredential = l.default
  records : Records config.subscriptionCredentials l clock
  issued_eq : l.issued = issuedTo first history
  known : ∀ s, s ∈ l.default :: l.issued.map (·.2) → s ∈ secretsOf first history
  default_apart : l.default ∉ l.issued.map (·.2)
  oneLive : OneLive config

theorem Keeps.matches_iff {clock t : Int} {s : String} (h : Keeps first history config l clock)
    (hle : clock ≤ t) : credentialMatches config s t = true ↔ l.Accepts s t := by
  rw [credentialMatches_iff, h.records.serves_iff hle, h.default_eq, Ledger.Accepts]

theorem keeps_start (h : Accepted lib first) (hdistinct : (first.subscriptionCredential ::
    first.subscriptionCredentials.map (·.credential)).Nodup) (clock : Int) :
    Keeps first [] first (.ofConfig first) clock := by
  obtain ⟨hapart, hnodup⟩ := List.nodup_cons.mp hdistinct
  have hsecrets : (Ledger.ofConfig first).issued.map (·.2) =
      first.subscriptionCredentials.map (·.credential) := by
    simp [Ledger.ofConfig, Function.comp_def]
  have hexpiring (p : String × Int) : p ∈ (Ledger.ofConfig first).expiries ↔
      ∃ r ∈ first.subscriptionCredentials, r.credential = p.1 ∧ r.revokedAt = some p.2 := by
    simp only [Ledger.ofConfig, List.mem_filterMap, Option.map_eq_some_iff]
    constructor
    · rintro ⟨r, hr, x, hx, rfl⟩
      exact ⟨r, hr, rfl, hx⟩
    · rintro ⟨r, hr, hc, hx⟩
      exact ⟨r, hr, p.2, hx, Prod.ext hc rfl⟩
  refine ⟨rfl, ⟨fun r hr => List.mem_map.mpr ⟨r, hr, rfl⟩, fun r hr => ?_, fun p hp => ?_,
    hnodup, hsecrets ▸ hnodup, fun p hp => ?_⟩, by simp [Ledger.ofConfig, issuedTo], fun s hs => ?_,
    hsecrets ▸ hapart, h.oneLive⟩
  · have huniq {r' : NamedCredential} (hr' : r' ∈ first.subscriptionCredentials)
        (hc : r'.credential = r.credential) : r' = r := List.inj_on_of_nodup_map hnodup hr' hr hc
    cases hrev : r.revokedAt with
    | none =>
      intro p hp hc
      obtain ⟨r', hr', hc', hx⟩ := (hexpiring p).mp hp
      rw [huniq hr' (hc'.trans hc), hrev] at hx
      cases hx
    | some x =>
      refine ⟨(hexpiring _).mpr ⟨r, hr, rfl, hrev⟩, fun p hp hc => ?_⟩
      obtain ⟨r', hr', hc', hx⟩ := (hexpiring p).mp hp
      rw [huniq hr' (hc'.trans hc), hrev] at hx
      exact (Option.some.inj hx).le
  · obtain ⟨r, hr, rfl⟩ := List.mem_map.mp hp
    exact .inl ⟨r, hr, rfl⟩
  · obtain ⟨r, hr, hc, -⟩ := (hexpiring p).mp hp
    rw [hsecrets]
    exact List.mem_map.mpr ⟨r, hr, hc⟩
  · rw [hsecrets] at hs
    simp only [secretsOf, List.filterMap_nil, List.append_nil]
    exact hs

theorem issuedTo_append : issuedTo first (history ++ [(occasion, command)]) =
    issuedTo first history ++ ((issues command).bind fun name =>
      (drawn (occasion, command)).map fun s => (name, s)).toList := by
  simp only [issuedTo, List.filterMap_append, List.append_assoc, List.filterMap_cons,
    List.filterMap_nil]
  split <;> rename_i h <;> simp [h]

theorem secretsOf_append {s : String} : s ∈ secretsOf first (history ++ [(occasion, command)]) ↔
    s ∈ secretsOf first history ∨ drawn (occasion, command) = some s := by
  simp only [secretsOf, List.filterMap_append, List.mem_append, List.mem_cons]
  simp [or_assoc, List.filterMap_cons]
  grind

theorem drawn_ok {s : String} (h : occasion.generated = .ok s) :
    drawn (occasion, command) = some s := by
  simp [drawn, h, Except.toOption]

/-- Issuing a fresh secret to a name. -/
theorem Keeps.issued (h : Keeps first history config l occasion.now) {name fresh : String}
    {l₁ : Ledger} (hfresh : occasion.generated = .ok fresh)
    (hnew : fresh ∉ secretsOf first history) (hcommand : issues command = some name)
    (hdefault : config'.subscriptionCredential = config.subscriptionCredential)
    (hl₁ : l₁.default = l.default ∧ l₁.issued = l.issued)
    (hrecords : Records config'.subscriptionCredentials (l₁.issue name fresh) occasion.now)
    (hlive : OneLive config') :
    Keeps first (history ++ [(occasion, command)]) config' (l₁.issue name fresh) occasion.now := by
  obtain ⟨hd, hi⟩ := hl₁
  refine ⟨by rw [hdefault, h.default_eq, ← hd]; rfl, hrecords, ?_, fun s hs => ?_, ?_, hlive⟩
  · rw [issuedTo_append, hcommand, drawn_ok hfresh, Ledger.issue, hi, h.issued_eq]
    rfl
  · rw [secretsOf_append, drawn_ok hfresh]
    simp only [Ledger.issue, hd, hi, List.map_append, List.mem_cons, List.mem_append] at hs
    rcases hs with rfl | hs | hs
    · exact .inl (h.known _ List.mem_cons_self)
    · exact .inl (h.known _ (List.mem_cons_of_mem _ hs))
    · exact .inr (by rw [List.mem_singleton.mp hs])
  · simp only [Ledger.issue, hd, hi, List.map_append, List.mem_append, not_or]
    refine ⟨h.default_apart, fun hc => hnew ?_⟩
    obtain rfl : l.default = fresh := by simpa using hc
    exact h.known _ List.mem_cons_self

/-- Each command does what the ledger says of it. -/
theorem Keeps.step (h : Keeps first history config l occasion.now)
    (fresh : ∀ s, occasion.generated = .ok s → s ∉ secretsOf first history)
    (step : runCredential lib namedUrl occasion config command = .ok config') :
    ∃ l', l.Step occasion command l' ∧
      Keeps first (history ++ [(occasion, command)]) config' l' occasion.now := by
  have hunissued {s : String} (hs : occasion.generated = .ok s) : s ∉ l.issued.map (·.2) :=
    fun hm => fresh s hs (h.known s (List.mem_cons_of_mem _ hm))
  cases command with
  | add name =>
    obtain ⟨⟨_, url⟩, hadd, rfl⟩ := map_ok.mp step
    obtain ⟨haccepted, secret, hsecret, hidle, hconfig⟩ := addCredential_ok hadd
    refine ⟨_, .add hsecret, h.issued hsecret (fresh _ hsecret) rfl ?_ ⟨rfl, rfl⟩ ?_
      haccepted.oneLive⟩
    · rw [hconfig]
    · rw [hconfig]
      exact h.records.add (hunissued hsecret) hidle
  | revoke name grace =>
    obtain ⟨⟨_, window⟩, hrevoke, rfl⟩ := map_ok.mp step
    obtain ⟨haccepted, hgrace, hconfig⟩ := revokeCredential_ok hrevoke
    refine ⟨_, .revoke hgrace, ?_, ?_, ?_, ?_, h.default_apart, haccepted.oneLive⟩
    · rw [hconfig]
      exact h.default_eq
    · rw [hconfig]
      exact h.records.revoke
    · rw [issuedTo_append]
      simpa [issues, Ledger.expireAll] using h.issued_eq
    · exact fun s hs => secretsOf_append.mpr (.inl (h.known s hs))
  | rotate name grace =>
    simp only [runCredential, rotateCredential, bind_ok] at step
    obtain ⟨window, hgrace, step⟩ := step
    cases name with
    | none =>
      simp only at step
      split at step
      · cases step
      obtain ⟨⟨_, _⟩, hrotate, rfl⟩ := map_ok.mp step
      obtain ⟨haccepted, secret, hsecret, hconfig⟩ := rotateSubscriptionCredential_ok hrotate
      refine ⟨_, .rotateDefault hsecret, by rw [hconfig], ?_, ?_, fun s hs => ?_,
        hunissued hsecret, haccepted.oneLive⟩
      · rw [hconfig]
        exact { h.records with }
      · rw [issuedTo_append]
        simpa [issues] using h.issued_eq
      · rw [secretsOf_append, drawn_ok hsecret]
        rcases List.mem_cons.mp hs with rfl | hs
        · exact .inr rfl
        · exact .inl (h.known s (List.mem_cons_of_mem _ hs))
    | some name =>
      obtain ⟨⟨_, out⟩, hrotate, rfl⟩ := map_ok.mp step
      obtain ⟨haccepted, secret, index, old, hsecret, hold, hconfig⟩ := rotateNamed_ok hrotate
      obtain ⟨⟨pre, post, hentries, rfl⟩, rfl, hactive, hlive⟩ := rotatedEntry_some hold
      have hmem : old ∈ config.subscriptionCredentials := by simp [hentries]
      have hwindow := graceSeconds_nonneg hgrace
      refine ⟨_, .rotate hsecret hgrace (h.records.issued old hmem)
        ((h.records.earliest old hmem).active_iff.mp hactive) (fun s hs hnone => ?_),
        h.issued hsecret (fresh _ hsecret) rfl ?_ ⟨rfl, rfl⟩ ?_ haccepted.oneLive⟩
      · -- the secret without an end is the one of the live record
        rcases h.records.lost _ hs with ⟨r, hr, rfl⟩ | hdead
        · have hname := h.records.name_eq (h.records.issued r hr) hs
          have hrev : r.revokedAt = none := by
            cases hx : r.revokedAt with
            | none => rfl
            | some x =>
              have := h.records.earliest r hr
              rw [hx] at this
              exact absurd rfl (hnone _ this.1)
          rw [h.oneLive.eq hr hmem hrev (hlive ⟨r, hr, hname, hrev⟩) hname]
        · exact absurd (fun p hp hc => absurd hc (hnone p hp)) hdead
      · rw [hconfig]
      · have hrecords := h.records
        rw [hentries] at hrecords
        rw [hconfig]
        dsimp only
        rw [hentries]
        exact hrecords.rotate hwindow (hunissued hsecret)

/-- After any run, the configuration keeps what the ledger of the same
commands promises. -/
theorem CredentialRun.keeps (run : CredentialRun lib namedUrl first history config)
    (h : Accepted lib first) (hdistinct : (first.subscriptionCredential ::
      first.subscriptionCredentials.map (·.credential)).Nodup) :
    ∃ l, Ledger.Run (.ofConfig first) history l ∧
      ∀ clock, (∀ p ∈ history, p.1.now ≤ clock) → Keeps first history config l clock := by
  induction run with
  | start => exact ⟨_, .start, fun clock _ => keeps_start h hdistinct clock⟩
  | next run ordered fresh step ih =>
    obtain ⟨l, hrun, hkeeps⟩ := ih
    obtain ⟨l', hstep, hkeeps'⟩ := (hkeeps _ ordered).step fresh step
    refine ⟨l', hrun.next hstep, fun clock hle => ?_⟩
    have hnow := hle _ (List.mem_append_right _ List.mem_cons_self)
    exact { hkeeps' with records := hkeeps'.records.later hnow }

/-! ## What a command cannot do -/

/-- The secrets a command is about: those issued to its name, or the default. -/
def Concerns (first : DeploymentConfig) (history : History) (config : DeploymentConfig)
    (secret : String) : CredentialCommand → Prop
  | .add name | .revoke name _ | .rotate (some name) _ =>
    (name, secret) ∈ issuedTo first history
  | .rotate none _ => secret = config.subscriptionCredential

/-- No step takes a promise back: what is accepted after it and is not fresh
was accepted before. -/
theorem Ledger.Step.accepts_mono (step : l.Step occasion command l') {s : String} {t : Int}
    (hfresh : occasion.generated ≠ .ok s) (h : l'.Accepts s t) : l.Accepts s t := by
  cases step with
  | add hgen =>
    obtain h | ⟨⟨name, hn⟩, halive⟩ := h
    · exact .inl h
    · rcases List.mem_append.mp hn with hn | hn
      · exact .inr ⟨⟨name, hn⟩, halive⟩
      · obtain ⟨-, rfl⟩ := Prod.mk.inj (List.mem_singleton.mp hn)
        exact absurd hgen hfresh
  | revoke hgrace =>
    obtain h | ⟨hn, halive⟩ := h
    · exact .inl h
    · exact .inr ⟨hn, fun p hp => halive p (List.mem_append_right _ hp)⟩
  | rotate hgen hgrace hold halive' hlive =>
    obtain h | ⟨⟨name, hn⟩, halive⟩ := h
    · exact .inl h
    · rcases List.mem_append.mp hn with hn | hn
      · exact .inr ⟨⟨name, hn⟩, fun p hp => halive p (List.mem_append_right _ hp)⟩
      · obtain ⟨-, rfl⟩ := Prod.mk.inj (List.mem_singleton.mp hn)
        exact absurd hgen hfresh
  | rotateDefault hgen =>
    obtain rfl | h := h
    · exact absurd hgen hfresh
    · exact .inr h

/-- A step does not end what it is not about. -/
theorem Keeps.accepts_of_not_concerned {clock : Int}
    (hk : Keeps first history config l clock) (step : l.Step occasion command l') {s : String}
    {t : Int} (hs : ¬ Concerns first history config s command) (h : l.Accepts s t) :
    l'.Accepts s t := by
  cases step with
  | add hgen =>
    exact h.imp_right fun ⟨⟨name, hn⟩, halive⟩ => ⟨⟨name, List.mem_append_left _ hn⟩, halive⟩
  | @revoke name grace window hgrace =>
    refine h.imp_right fun ⟨hn, halive⟩ => ⟨hn, fun p hp hc => ?_⟩
    rcases List.mem_append.mp hp with hp | hp
    · obtain ⟨s', hs', rfl⟩ := List.mem_map.mp hp
      obtain rfl : s' = s := hc
      obtain ⟨⟨n, s⟩, hm, rfl⟩ := List.mem_map.mp hs'
      obtain ⟨hissued, hname⟩ := List.mem_filter.mp hm
      obtain ⟨rfl, -⟩ : n = name ∧ _ := by simpa using hname
      exact absurd (show (n, s) ∈ issuedTo first history from hk.issued_eq ▸ hissued) hs
    · exact halive p hp hc
  | rotate hgen hgrace hold halive' hlive =>
    refine h.imp_right fun ⟨⟨name, hn⟩, halive⟩ =>
      ⟨⟨name, List.mem_append_left _ hn⟩, fun p hp hc => ?_⟩
    rcases List.mem_append.mp hp with hp | hp
    · obtain rfl := List.mem_singleton.mp hp
      obtain rfl := hc
      exact absurd (show (_, _) ∈ issuedTo first history from hk.issued_eq ▸ hold) hs
    · exact halive p hp hc
  | rotateDefault hgen =>
    rcases h with rfl | h
    · exact absurd hk.default_eq.symm hs
    · exact .inr h

/-- A revocation ends every secret of its name. -/
theorem Keeps.revoked {clock : Int} (hk : Keeps first history config l clock) {name : String}
    {grace : Option String} (step : l.Step occasion (.revoke name grace) l') {window : Int}
    (hgrace : graceSeconds grace = .ok window) {s : String} {t : Int}
    (hs : (name, s) ∈ issuedTo first history) (ht : occasion.now + window ≤ t) :
    ¬ l'.Accepts s t := by
  cases step with
  | revoke hgrace' =>
    obtain rfl := Except.ok.inj (hgrace.symm.trans hgrace')
    have hissued : (name, s) ∈ l.issued := hk.issued_eq ▸ hs
    rintro (rfl | ⟨-, halive⟩)
    · exact hk.default_apart (List.mem_map_of_mem (f := Prod.snd) hissued)
    · have hle := graceSeconds_nonneg hgrace
      have hnow : l.Alive s occasion.now := fun p hp hc =>
        lt_of_le_of_lt (by omega) (halive p (List.mem_append_right _ hp) hc)
      have hmem : s ∈ l.aliveOf name occasion.now :=
        List.mem_map.mpr ⟨(name, s), List.mem_filter.mpr ⟨hissued, by simpa using hnow⟩, rfl⟩
      have := halive (s, occasion.now + window)
        (List.mem_append_left _ (List.mem_map.mpr ⟨s, hmem, rfl⟩)) rfl
      omega

theorem exists_clock (history : History) : ∃ clock, ∀ p ∈ history, p.1.now ≤ clock := by
  induction history with
  | nil => exact ⟨0, by simp⟩
  | cons p history ih =>
    obtain ⟨clock, h⟩ := ih
    refine ⟨max p.1.now clock, fun q hq => ?_⟩
    rcases List.mem_cons.mp hq with rfl | hq
    · exact le_max_left _ _
    · exact (h q hq).trans (le_max_right _ _)

/-- What the commands do to the secrets of a deployment. -/
structure CredentialLifecycle (lib : Libraries)
    (namedUrl : DeploymentConfig → String → Except ConfigError String)
    (first : DeploymentConfig) : Prop where
  /-- A secret is served exactly while the ledger accepts it. -/
  serves : ∀ history config, CredentialRun lib namedUrl first history config →
    ∃ l, Ledger.Run (.ofConfig first) history l ∧ l.issued = issuedTo first history ∧
      ∀ s t, (∀ p ∈ history, p.1.now ≤ t) →
        (credentialMatches config s t = true ↔ l.Accepts s t)
  oneLive : ∀ history config, CredentialRun lib namedUrl first history config → OneLive config
  /-- No command makes an old secret served again, or for longer. -/
  not_extended : ∀ history config occasion command config',
    Follows lib namedUrl first history config occasion command config' →
    ∀ s t, s ∈ secretsOf first history → occasion.now ≤ t →
      credentialMatches config' s t = true → credentialMatches config s t = true
  /-- No command changes what is not of its name. -/
  unconcerned : ∀ history config occasion command config',
    Follows lib namedUrl first history config occasion command config' →
    ∀ s t, s ∈ secretsOf first history → ¬ Concerns first history config s command →
      occasion.now ≤ t → (credentialMatches config' s t = true ↔ credentialMatches config s t = true)
  /-- A revocation ends every secret of its name. -/
  revoked : ∀ history config occasion name grace window config',
    Follows lib namedUrl first history config occasion (.revoke name grace) config' →
    graceSeconds grace = .ok window →
    ∀ s t, (name, s) ∈ issuedTo first history → occasion.now + window ≤ t →
      credentialMatches config' s t = false

/-- From an accepted configuration with distinct secrets, every sequence of
successful commands keeps what was promised. -/
theorem credential_lifecycle (h : Accepted lib first) (hdistinct :
    (first.subscriptionCredential :: first.subscriptionCredentials.map (·.credential)).Nodup) :
    CredentialLifecycle lib namedUrl first := by
  have hfollows {history config occasion command config'}
      (f : Follows lib namedUrl first history config occasion command config') :
      ∃ l l', Keeps first history config l occasion.now ∧ l.Step occasion command l' ∧
        Keeps first (history ++ [(occasion, command)]) config' l' occasion.now := by
    obtain ⟨l, -, hkeeps⟩ := f.run.keeps h hdistinct
    obtain ⟨l', hstep, hkeeps'⟩ := (hkeeps _ f.ordered).step f.fresh f.step
    exact ⟨l, l', hkeeps _ f.ordered, hstep, hkeeps'⟩
  constructor
  · intro history config run
    obtain ⟨l, hrun, hkeeps⟩ := run.keeps h hdistinct
    obtain ⟨clock, hclock⟩ := exists_clock history
    exact ⟨l, hrun, (hkeeps clock hclock).issued_eq, fun s t ht => (hkeeps t ht).matches_iff le_rfl⟩
  · intro history config run
    obtain ⟨l, -, hkeeps⟩ := run.keeps h hdistinct
    obtain ⟨clock, hclock⟩ := exists_clock history
    exact (hkeeps clock hclock).oneLive
  · intro history config occasion command config' f s t hs ht hm
    obtain ⟨l, l', hk, hstep, hk'⟩ := hfollows f
    rw [hk.matches_iff ht]
    exact hstep.accepts_mono (fun hgen => f.fresh s hgen hs) ((hk'.matches_iff ht).mp hm)
  · intro history config occasion command config' f s t hs hc ht
    obtain ⟨l, l', hk, hstep, hk'⟩ := hfollows f
    rw [hk.matches_iff ht, hk'.matches_iff ht]
    exact ⟨hstep.accepts_mono fun hgen => f.fresh s hgen hs, hk.accepts_of_not_concerned hstep hc⟩
  · intro history config occasion name grace window config' f hgrace s t hs ht
    obtain ⟨l, l', hk, hstep, hk'⟩ := hfollows f
    have := graceSeconds_nonneg hgrace
    rw [← Bool.not_eq_true, hk'.matches_iff (by omega)]
    exact hk.revoked hstep hgrace hs ht

end

/-- The link of a named credential of the sample deployment. -/
def sampleUrl (config : DeploymentConfig) (credential : String) : Except ConfigError String :=
  .ok ("https://" ++ config.subscriptionHost ++ "/sub/" ++ credential ++ "/sing-box-full.json")

def phoneSecret : String := "BBBBBBBBBBBBBBBBBBBBBBBBBBBBBBBBBBBBBBBBBBB"

def freshSecret : String := "CCCCCCCCCCCCCCCCCCCCCCCCCCCCCCCCCCCCCCCCCCC"

def withCredentials (entries : List NamedCredential) : DeploymentConfig :=
  { sampleConfig with subscriptionCredentials := entries }

/-- A deployment with a secret of one device. -/
def phoneConfig : DeploymentConfig := withCredentials [⟨"phone", phoneSecret, none⟩]

theorem phoneConfig_accepted : Accepted sampleLibraries phoneConfig := by
  unfold Accepted
  decide

/-- The secret of the device is replaced, served for another hour, and revoked. -/
def phoneHistory : History :=
  [(⟨1000, .ok freshSecret, .ok ()⟩, .rotate (some "phone") (some "1h")),
    (⟨2000, .error (credentialError "unused"), .ok ()⟩, .revoke "phone" none)]

theorem phone_run : CredentialRun sampleLibraries sampleUrl phoneConfig phoneHistory
    (withCredentials [⟨"phone", freshSecret, some 2000⟩, ⟨"phone", phoneSecret, some 2000⟩]) := by
  have hrotated : CredentialRun sampleLibraries sampleUrl phoneConfig (phoneHistory.take 1)
      (withCredentials [⟨"phone", freshSecret, none⟩, ⟨"phone", phoneSecret, some 4600⟩]) :=
    .next .start (by simp) (by
      rintro s ⟨⟩
      decide) (by decide)
  exact .next hrotated (by simp [phoneHistory]) (by rintro s ⟨⟩) (by decide)

theorem credential_lifecycle_sample :
    CredentialLifecycle sampleLibraries sampleUrl phoneConfig ∧
      ∃ config, CredentialRun sampleLibraries sampleUrl phoneConfig phoneHistory config ∧
        OneLive config ∧ credentialMatches config freshSecret 2000 = false := by
  have hlifecycle : CredentialLifecycle sampleLibraries sampleUrl phoneConfig :=
    credential_lifecycle phoneConfig_accepted (by decide)
  exact ⟨hlifecycle, _, phone_run, hlifecycle.oneLive _ _ phone_run, by decide⟩

end Sbctl
