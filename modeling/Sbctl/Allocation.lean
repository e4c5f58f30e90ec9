import Sbctl.Options
import Mathlib.Data.List.Perm.Subperm

/-!
# Ports drawn for newly enabled protocols

A random port is kept off the ports allocated before it. The ports of later
protocols, the subscription listeners and the hopping range are compared only
afterwards, by the validators, and a draw that meets one of them fails the edit.

* `draws_harmless_iff`: which edits no outcome of the random source can sink.
-/

namespace Sbctl

open Text

/-! ## Ports the edit fixes -/

/-- The port an enabled protocol has before anything is drawn. -/
def fixedPort (existing : DeploymentConfig) (options : DeploymentOptions)
    (protocol : ManagedProtocol) : Option UInt16 :=
  if protocol ∈ options.enabledProtocols then
    match existing.protocolListenerPort protocol with
    | some current => some ((options.ports.requested protocol).getD current)
    | none => options.ports.requested protocol
  else none

def fixedPortOf (existing : DeploymentConfig) (options : DeploymentOptions) :
    Listener → Option UInt16
  | .managed protocol => fixedPort existing options protocol
  | .http => options.httpPort
  | .subscription => options.subscriptionListenPort
  | .clashApi => existing.clashApiPort

/-- A protocol that is newly enabled with no port requested for it. -/
def Drawn (existing : DeploymentConfig) (options : DeploymentOptions)
    (protocol : ManagedProtocol) : Prop :=
  protocol ∈ options.enabledProtocols ∧ existing.protocolListenerPort protocol = none ∧
    options.ports.requested protocol = none

def keptHopping (existing : DeploymentConfig) (options : DeploymentOptions) : Option PortHopping :=
  existing.hysteria2PortHopping.filter fun _ => .hysteria2 ∈ options.enabledProtocols

/-! ## Port conflicts -/

/-- The kinds of conflict an edit can fail with. -/
inductive PortConflict where
  | protocols
  | hopping
  | http
  | subscription
  | held (port : UInt16)
  deriving DecidableEq

def ConfigError.conflict : ConfigError → Option PortConflict
  | .invalidValue message =>
    if message = "Managed protocol ports must be unique across TCP and UDP" ∨
        message = "Managed protocol ports must be unique" then some .protocols
    else if message = "跳跃范围不能覆盖其他协议、订阅或 API 监听端口" then some .hopping
    else if message = "IP fallback HTTP port must not conflict with a Managed protocol port" then
      some .http
    else if message =
        "external reverse-proxy listener port must not conflict with a Managed protocol port" then
      some .subscription
    else none
  | .portInUse port _ => some (.held port)
  | _ => none

/-- A conflict of this kind between ports that the options or the existing
configuration fix. -/
def FixedConflict (existing : DeploymentConfig) (options : DeploymentOptions) : PortConflict → Prop
  | .protocols => ∃ a b port, a ≠ b ∧ fixedPort existing options a = some port ∧
      fixedPort existing options b = some port
  | .hopping => ∃ hop, keptHopping existing options = some hop ∧ ∃ a port,
      a ≠ .managed .hysteria2 ∧ fixedPortOf existing options a = some port ∧ hop.Contains port
  | .http => ∃ protocol port, options.httpPort = some port ∧
      fixedPort existing options protocol = some port
  | .subscription => ∃ protocol port, options.subscriptionListenPort = some port ∧
      fixedPort existing options protocol = some port
  | .held port => ∃ protocol, fixedPort existing options protocol = some port

/-! ## Edits a draw can sink -/

/-- One protocol is given its port before the other. -/
def Before (a b : ManagedProtocol) : Prop := protocolOrder.idxOf a < protocolOrder.idxOf b

instance (a b : ManagedProtocol) : Decidable (Before a b) := by
  unfold Before; infer_instance

/-- Credentials for the enabled protocols, on ports of their own. -/
def placeholder (enabled : List ManagedProtocol) : ProtocolCredentials where
  vlessReality := if .vlessReality ∈ enabled then
    some { listenPort := 10000, uuid := "", privateKey := "", publicKey := "", shortId := "" }
    else none
  vmessWebsocket := if .vmessWebsocket ∈ enabled then
    some { listenPort := 10001, uuid := "", path := "" } else none
  hysteria2 := if .hysteria2 ∈ enabled then some { listenPort := 10002, password := "" } else none
  tuic := if .tuic ∈ enabled then some { listenPort := 10003, uuid := "", password := "" } else none
  anytls := if .anytls ∈ enabled then some { listenPort := 10004, password := "" } else none

/-- The validators before that of the subscription mode accept the edit when
its protocols have ports of their own. -/
def OtherwiseValid (lib : Libraries) (existing : DeploymentConfig) (options : DeploymentOptions) :
    Prop :=
  let config := rebuilt (some existing) options existing.subscriptionCredential
    (placeholder options.enabledProtocols)
  validateDeploymentIdentity lib config = .ok () ∧ validateProtocols lib config = .ok () ∧
    validateSecretAndAccounting lib config = .ok ()

/-- The subscription listener is where ports are drawn from. -/
def ListenerExposed (lib : Libraries) (existing : DeploymentConfig) (options : DeploymentOptions) :
    Prop :=
  match options.subscriptionMode with
  | .direct => False
  | .ipFallback => options.subscriptionListenPort = none ∧
      lib.isIpAddr (toAsciiLowercase options.subscriptionHost) ∧
      ∃ port, options.httpPort = some port ∧ minProtocolPort ≤ port ∧
        ∀ protocol, fixedPort existing options protocol ≠ some port
  | .externalProxy => ¬ lib.isIpAddr (toAsciiLowercase options.subscriptionHost) ∧
      options.httpPort = none ∧
      ∃ port, options.subscriptionListenPort = some port ∧ minProtocolPort ≤ port ∧
        ∀ protocol, fixedPort existing options protocol ≠ some port

/-- Some port is drawn, the fixed ports of the protocols are apart, and a draw
can meet the fixed port of a later protocol, the hopping range or the
subscription listener. -/
structure Exposed (lib : Libraries) (existing : DeploymentConfig) (options : DeploymentOptions) :
    Prop where
  requested : validateRequestedPorts options.enabledProtocols options.ports [] protocolOrder = .ok ()
  apart : ¬ FixedConflict existing options .protocols
  target : ∃ drawn, Drawn existing options drawn ∧
    ((∃ later, Before drawn later ∧ fixedPort existing options later ≠ none) ∨
      (keptHopping existing options ≠ none ∧ ¬ FixedConflict existing options .hopping) ∨
      (keptHopping existing options = none ∧ OtherwiseValid lib existing options ∧
        ListenerExposed lib existing options))

/-! ## The allocation as a run over the protocols -/

/-- The port a drawn number stands for. -/
def portOfDraw (drawn : UInt32) : UInt16 :=
  minProtocolPort + (drawn % ((maxProtocolPort - minProtocolPort).toUInt32 + 1)).toUInt16

theorem portOfDraw_toNat (drawn : UInt32) : (portOfDraw drawn).toNat = 10000 + drawn.toNat % 55536 := by
  have hspan : ((maxProtocolPort - minProtocolPort).toUInt32 + 1).toNat = 55536 := rfl
  have hmin : minProtocolPort.toNat = 10000 := rfl
  have hlt : drawn.toNat % 55536 < 55536 := Nat.mod_lt _ (by decide)
  rw [portOfDraw, UInt16.toNat_add, UInt32.toNat_toUInt16, UInt32.toNat_mod, hspan, hmin]
  omega

theorem minProtocolPort_le_portOfDraw (drawn : UInt32) : minProtocolPort ≤ portOfDraw drawn := by
  rw [UInt16.le_iff_toNat_le, portOfDraw_toNat]
  exact Nat.le_add_right _ _

section
variable {chance : Chance} {existing : DeploymentConfig} {options : DeploymentOptions}

/-- The protocols passed so far, latest first, and the ports given to them. -/
inductive Allots (chance : Chance) (existing : DeploymentConfig) (options : DeploymentOptions) :
    List ManagedProtocol → List (ManagedProtocol × UInt16) → Prop
  | nil : Allots chance existing options [] []
  | disabled {passed given protocol} : protocol ∉ options.enabledProtocols →
      Allots chance existing options passed given →
      Allots chance existing options (protocol :: passed) given
  | fixed {passed given protocol port} : fixedPort existing options protocol = some port →
      port ∉ given.map Prod.snd → Allots chance existing options passed given →
      Allots chance existing options (protocol :: passed) ((protocol, port) :: given)
  | drawn {passed given protocol port} : Drawn existing options protocol →
      chance.drawPort protocol (given.map Prod.snd) Chance.maxRandomPortAttempts = .ok port →
      Allots chance existing options passed given →
      Allots chance existing options (protocol :: passed) ((protocol, port) :: given)

/-- Why a protocol is not given a port, after the ports already given. -/
inductive PortFault (chance : Chance) (existing : DeploymentConfig) (options : DeploymentOptions)
    (protocol : ManagedProtocol) (allocated : List UInt16) : ConfigError → Prop
  | secret {secret message} : chance.secret secret = .error message →
      PortFault chance existing options protocol allocated (.randomness message)
  | taken {port error} : fixedPort existing options protocol = some port → port ∈ allocated →
      error.conflict = some .protocols →
      PortFault chance existing options protocol allocated error
  | held {port holder} : fixedPort existing options protocol = some port →
      chance.holder protocol 0 port = some holder →
      PortFault chance existing options protocol allocated (.portInUse port holder)
  | drawn {error} : Drawn existing options protocol →
      chance.drawPort protocol allocated Chance.maxRandomPortAttempts = .error error →
      PortFault chance existing options protocol allocated error

theorem drawn_fixedPort {protocol : ManagedProtocol} (h : Drawn existing options protocol) :
    fixedPort existing options protocol = none := by
  obtain ⟨henabled, hcurrent, hrequested⟩ := h
  rw [fixedPort, if_pos henabled, hcurrent]
  exact hrequested

theorem randomProtocolPort_ok {protocol : ManagedProtocol} {left : Nat} {port : UInt16}
    (h : chance.randomProtocolPort protocol left = .ok port) :
    ∃ drawn, port = portOfDraw drawn := by
  unfold Chance.randomProtocolPort at h
  cases hd : chance.draw protocol left with
  | error message =>
    rw [hd] at h
    cases h
  | ok drawn =>
    rw [hd] at h
    cases h
    exact ⟨drawn, rfl⟩

theorem drawPort_ok {protocol : ManagedProtocol} {allocated : List UInt16} {left : Nat}
    {port : UInt16} (h : chance.drawPort protocol allocated left = .ok port) :
    port ∉ allocated ∧ minProtocolPort ≤ port := by
  induction left with
  | zero => cases h
  | succ left ih =>
    obtain ⟨drawn, hdrawn, h⟩ := bind_ok.mp h
    by_cases hok : drawn ∉ allocated ∧
        (chance.ensureProtocolPortAvailable protocol left drawn).isOk
    · rw [if_pos hok] at h
      cases h
      obtain ⟨number, hnumber⟩ := randomProtocolPort_ok hdrawn
      exact ⟨hok.1, hnumber ▸ minProtocolPort_le_portOfDraw number⟩
    · rw [if_neg hok] at h
      exact ih h

theorem Allots.nodup {passed given} (h : Allots chance existing options passed given) :
    (given.map Prod.snd).Nodup := by
  induction h with
  | nil => exact List.nodup_nil
  | disabled _ _ ih => exact ih
  | fixed _ hnew _ ih => exact List.nodup_cons.mpr ⟨hnew, ih⟩
  | drawn _ hport _ ih => exact List.nodup_cons.mpr ⟨(drawPort_ok hport).1, ih⟩

/-- Every port given is a fixed one or was drawn. -/
theorem Allots.of_mem {passed given} (h : Allots chance existing options passed given)
    {protocol : ManagedProtocol} {port : UInt16} (hmem : (protocol, port) ∈ given) :
    protocol ∈ passed ∧ (fixedPort existing options protocol = some port ∨
      Drawn existing options protocol ∧ minProtocolPort ≤ port) := by
  induction h with
  | nil => cases hmem
  | disabled _ _ ih => exact ⟨List.mem_cons_of_mem _ (ih hmem).1, (ih hmem).2⟩
  | fixed hfixed _ _ ih =>
    cases hmem with
    | head => exact ⟨List.mem_cons_self, Or.inl hfixed⟩
    | tail _ hmem => exact ⟨List.mem_cons_of_mem _ (ih hmem).1, (ih hmem).2⟩
  | drawn hdrawn hport _ ih =>
    cases hmem with
    | head => exact ⟨List.mem_cons_self, Or.inr ⟨hdrawn, (drawPort_ok hport).2⟩⟩
    | tail _ hmem => exact ⟨List.mem_cons_of_mem _ (ih hmem).1, (ih hmem).2⟩

theorem Allots.fixed_mem {passed given} (h : Allots chance existing options passed given)
    {protocol : ManagedProtocol} {port : UInt16} (hmem : protocol ∈ passed)
    (hfixed : fixedPort existing options protocol = some port) : (protocol, port) ∈ given := by
  induction h with
  | nil => cases hmem
  | disabled hdisabled _ ih =>
    cases hmem with
    | head =>
      rw [fixedPort, if_neg hdisabled] at hfixed
      cases hfixed
    | tail _ hmem => exact ih hmem
  | fixed hf _ _ ih =>
    cases hmem with
    | head =>
      rw [hf] at hfixed
      cases hfixed
      exact List.mem_cons_self
    | tail _ hmem => exact List.mem_cons_of_mem _ (ih hmem)
  | drawn hdrawn _ _ ih =>
    cases hmem with
    | head =>
      rw [drawn_fixedPort hdrawn] at hfixed
      cases hfixed
    | tail _ hmem => exact List.mem_cons_of_mem _ (ih hmem)

theorem Allots.length_le {passed given} (h : Allots chance existing options passed given) :
    given.length ≤ passed.length := by
  induction h with
  | nil => exact Nat.le_refl _
  | disabled _ _ ih => exact Nat.le_succ_of_le ih
  | fixed _ _ _ ih => exact Nat.succ_le_succ ih
  | drawn _ _ _ ih => exact Nat.succ_le_succ ih

/-- The run up to a protocol, and what the protocol makes of it. -/
theorem Allots.split {pre passed given}
    (h : Allots chance existing options (pre ++ passed) given) :
    ∃ earlier, Allots chance existing options passed earlier := by
  induction pre generalizing given with
  | nil => exact ⟨given, h⟩
  | cons protocol pre ih =>
    cases h with
    | disabled _ h => exact ih h
    | fixed _ _ h => exact ih h
    | drawn _ _ h => exact ih h

end

/-! ## The faithful allocation follows the run -/

section
variable {α : Type} [Listening α] {recipe : Recipe α} {chance : Chance}
  {existing : DeploymentConfig} {options : DeploymentOptions} {protocol : ManagedProtocol}
  {before after : Option α}

theorem fixedPort_kept {current : UInt16} (henabled : protocol ∈ options.enabledProtocols)
    (hport : existing.protocolListenerPort protocol = some current) :
    fixedPort existing options protocol = some ((options.ports.requested protocol).getD current) := by
  rw [fixedPort, if_pos henabled, hport]

theorem fixedPort_fresh (henabled : protocol ∈ options.enabledProtocols)
    (hport : existing.protocolListenerPort protocol = none) :
    fixedPort existing options protocol = options.ports.requested protocol := by
  rw [fixedPort, if_pos henabled, hport]

theorem allocatePort_ok {allocated allocated' : List UInt16} {requested : Option UInt16}
    {port : UInt16} (h : chance.allocatePort protocol allocated requested = .ok (port, allocated')) :
    allocated' = port :: allocated ∧ (requested = some port ∧ port ∉ allocated ∨
      requested = none ∧
        chance.drawPort protocol allocated Chance.maxRandomPortAttempts = .ok port) := by
  cases requested with
  | some requested =>
    obtain ⟨_, hnew, h⟩ := bind_ok.mp h
    obtain ⟨_, _, h⟩ := bind_ok.mp h
    cases h
    exact ⟨rfl, Or.inl ⟨rfl, rejectIf_ok.mp hnew⟩⟩
  | none =>
    obtain ⟨_, hdraw, h⟩ := bind_ok.mp h
    cases h
    exact ⟨rfl, Or.inr ⟨rfl, hdraw⟩⟩

theorem generate_ok {allocated allocated' : List UInt16} {requested : Option UInt16} {built : α}
    (h : recipe.generate chance protocol allocated requested = .ok (built, allocated')) :
    chance.allocatePort protocol allocated requested = .ok (Listening.port built, allocated') := by
  obtain ⟨_, _, h⟩ := bind_ok.mp h
  obtain ⟨⟨port, _⟩, hport, h⟩ := bind_ok.mp h
  obtain ⟨_, _, h⟩ := bind_ok.mp h
  cases h
  rw [recipe.port_make]
  exact hport

/-- A protocol that is built goes on with the run. -/
theorem buildProtocolCredentials_allots {passed : List ManagedProtocol}
    {given : List (ManagedProtocol × UInt16)} {allocated : List UInt16}
    (hport : existing.protocolListenerPort protocol = before.map Listening.port)
    (hgiven : Allots chance existing options passed given)
    (h : chance.buildProtocolCredentials recipe protocol before options (given.map Prod.snd) =
      .ok (after, allocated)) :
    let given' := (after.map Listening.port).toList.map (protocol, ·) ++ given
    allocated = given'.map Prod.snd ∧ Allots chance existing options (protocol :: passed) given' := by
  unfold Chance.buildProtocolCredentials at h
  by_cases henabled : protocol ∈ options.enabledProtocols
  · rw [if_neg (not_not_intro henabled)] at h
    cases before with
    | some current =>
      obtain ⟨⟨port, _⟩, happly, h⟩ := bind_ok.mp h
      cases h
      obtain ⟨hvalue, hnew, hafter⟩ := Chance.applyExistingPort_ok happly
      simp only [Option.map_some, Listening.port_setPort]
      refine ⟨hafter, Allots.fixed ?_ hnew hgiven⟩
      rw [fixedPort_kept henabled hport, hvalue]
    | none =>
      obtain ⟨⟨built, _⟩, hgenerate, h⟩ := bind_ok.mp h
      cases h
      obtain ⟨hafter, hkind⟩ := allocatePort_ok (generate_ok hgenerate)
      refine ⟨hafter, ?_⟩
      rcases hkind with ⟨hrequested, hnew⟩ | ⟨hrequested, hdraw⟩
      · refine Allots.fixed ?_ hnew hgiven
        rw [fixedPort_fresh henabled hport, hrequested]
      · exact Allots.drawn ⟨henabled, hport, hrequested⟩ hdraw hgiven
  · rw [if_pos henabled] at h
    cases h
    exact ⟨rfl, Allots.disabled henabled hgiven⟩

theorem ensureProtocolPortAvailable_error {left : Nat} {port : UInt16} {e : ConfigError}
    (h : chance.ensureProtocolPortAvailable protocol left port = .error e) :
    ∃ holder, chance.holder protocol left port = some holder ∧ e = .portInUse port holder := by
  unfold Chance.ensureProtocolPortAvailable at h
  cases hh : chance.holder protocol left port with
  | some holder =>
    rw [hh] at h
    cases h
    exact ⟨holder, rfl, rfl⟩
  | none =>
    rw [hh] at h
    cases h

theorem text_error {secret : Secret} {e : ConfigError} (h : chance.text secret = .error e) :
    ∃ message, chance.secret secret = .error message ∧ e = .randomness message := by
  unfold Chance.text at h
  cases hs : chance.secret secret with
  | error message =>
    rw [hs] at h
    cases h
    exact ⟨message, rfl, rfl⟩
  | ok text =>
    rw [hs] at h
    cases h

theorem applyExistingPort_error {current : UInt16} {allocated : List UInt16} {e : ConfigError}
    (henabled : protocol ∈ options.enabledProtocols)
    (hport : existing.protocolListenerPort protocol = some current)
    (h : chance.applyExistingPort protocol current (options.ports.requested protocol) allocated =
      .error e) : PortFault chance existing options protocol allocated e := by
  have hfixed := fixedPort_kept henabled hport
  simp only [Chance.applyExistingPort, Chance.existingPort_eq] at h
  rcases bind_error.mp h with h | ⟨_, _, h⟩
  · obtain ⟨htaken, he⟩ := rejectIf_error.mp h
    subst he
    exact PortFault.taken hfixed htaken (by decide)
  · rcases bind_error.mp h with h | ⟨_, _, h⟩
    · unfold Chance.probeIfMoved at h
      split at h
      · obtain ⟨holder, hholder, he⟩ := ensureProtocolPortAvailable_error h
        subst he
        exact PortFault.held hfixed hholder
      · cases h
    · cases h

theorem allocatePort_error {allocated : List UInt16} {e : ConfigError}
    (henabled : protocol ∈ options.enabledProtocols)
    (hport : existing.protocolListenerPort protocol = none)
    (h : chance.allocatePort protocol allocated (options.ports.requested protocol) = .error e) :
    PortFault chance existing options protocol allocated e := by
  have hfixed := fixedPort_fresh henabled hport
  cases hrequested : options.ports.requested protocol with
  | some requested =>
    rw [hrequested] at h hfixed
    rcases bind_error.mp h with h | ⟨_, _, h⟩
    · obtain ⟨htaken, he⟩ := rejectIf_error.mp h
      subst he
      exact PortFault.taken hfixed htaken (by decide)
    · rcases bind_error.mp h with h | ⟨_, _, h⟩
      · obtain ⟨holder, hholder, he⟩ := ensureProtocolPortAvailable_error h
        subst he
        exact PortFault.held hfixed hholder
      · cases h
  | none =>
    rw [hrequested] at h
    rcases bind_error.mp h with h | ⟨_, _, h⟩
    · exact PortFault.drawn ⟨henabled, hport, hrequested⟩ h
    · cases h

end

/-- The only faults of the recipe are those of the random source. -/
def Recipe.FromSecrets {α : Type} [Listening α] (recipe : Recipe α) (chance : Chance) : Prop :=
  ∀ e, recipe.before = .error e ∨ recipe.after = .error e →
    ∃ secret message, chance.secret secret = .error message ∧ e = .randomness message

section
variable {chance : Chance} {existing : DeploymentConfig} {options : DeploymentOptions}
  {protocol : ManagedProtocol}

theorem fromSecrets_text {secret : Secret} {e : ConfigError} (h : chance.text secret = .error e) :
    ∃ secret message, chance.secret secret = .error message ∧ e = .randomness message :=
  ⟨secret, text_error h⟩

theorem vlessReality_fromSecrets : chance.generateVlessRealityCredentials.FromSecrets chance := by
  rintro e (h | h)
  · rcases bind_error.mp h with h | ⟨_, _, h⟩
    · exact fromSecrets_text h
    · rcases bind_error.mp h with h | ⟨_, _, h⟩
      · exact fromSecrets_text h
      · cases h
  · exact fromSecrets_text h

theorem vmessWebsocket_fromSecrets :
    chance.generateVmessWebsocketCredentials.FromSecrets chance := by
  rintro e (h | h)
  · exact fromSecrets_text h
  · exact fromSecrets_text h

theorem hysteria2_fromSecrets : chance.generateHysteria2Credentials.FromSecrets chance := by
  rintro e (h | h)
  · exact fromSecrets_text h
  · cases h

theorem tuic_fromSecrets : chance.generateTuicCredentials.FromSecrets chance := by
  rintro e (h | h)
  · exact fromSecrets_text h
  · exact fromSecrets_text h

theorem anytls_fromSecrets : chance.generateAnytlsCredentials.FromSecrets chance := by
  rintro e (h | h)
  · exact fromSecrets_text h
  · cases h

theorem buildProtocolCredentials_error {α : Type} [Listening α] {recipe : Recipe α}
    {before : Option α} {allocated : List UInt16} {e : ConfigError}
    (hsecrets : recipe.FromSecrets chance)
    (hport : existing.protocolListenerPort protocol = before.map Listening.port)
    (h : chance.buildProtocolCredentials recipe protocol before options allocated = .error e) :
    PortFault chance existing options protocol allocated e := by
  unfold Chance.buildProtocolCredentials at h
  by_cases henabled : protocol ∈ options.enabledProtocols
  · rw [if_neg (not_not_intro henabled)] at h
    cases before with
    | some current =>
      rcases bind_error.mp h with h | ⟨_, _, h⟩
      · exact applyExistingPort_error henabled hport h
      · cases h
    | none =>
      rcases bind_error.mp h with h | ⟨_, _, h⟩
      · rcases bind_error.mp h with h | ⟨_, _, h⟩
        · obtain ⟨_, _, hfault, he⟩ := hsecrets e (Or.inl h)
          exact he ▸ PortFault.secret hfault
        · rcases bind_error.mp h with h | ⟨_, _, h⟩
          · exact allocatePort_error henabled hport h
          · rcases bind_error.mp h with h | ⟨_, _, h⟩
            · obtain ⟨_, _, hfault, he⟩ := hsecrets e (Or.inr h)
              exact he ▸ PortFault.secret hfault
            · cases h
      · cases h
  · rw [if_pos henabled] at h
    cases h

/-- The protocols with the ports they have, latest first. -/
def givenBy (ports : ManagedProtocol → Option UInt16) (passed : List ManagedProtocol) :
    List (ManagedProtocol × UInt16) :=
  passed.flatMap fun protocol => (ports protocol).toList.map (protocol, ·)

theorem mem_givenBy {ports : ManagedProtocol → Option UInt16} {passed : List ManagedProtocol}
    {port : UInt16} : (protocol, port) ∈ givenBy ports passed ↔
      protocol ∈ passed ∧ ports protocol = some port := by
  simp only [givenBy, List.mem_flatMap, List.mem_map, Option.mem_toList, Prod.mk.injEq]
  constructor
  · rintro ⟨other, hother, port', hport, rfl, rfl⟩
    exact ⟨hother, hport⟩
  · rintro ⟨hmem, hport⟩
    exact ⟨protocol, hmem, port, hport, rfl, rfl⟩

/-- Credentials that are built come from a run over all protocols. -/
theorem buildCredentials_allots {credentials : ProtocolCredentials} {credential : String}
    (h : chance.buildCredentials (some existing) options = .ok credentials) :
    Allots chance existing options protocolOrder.reverse
      (givenBy (rebuilt (some existing) options credential credentials).protocolListenerPort
        protocolOrder.reverse) := by
  obtain ⟨l₁, l₂, l₃, l₄, l₅, hvless, hvmess, hhysteria2, htuic, hanytls⟩ :=
    Chance.buildCredentials_ok h
  obtain ⟨hl₁, h₁⟩ := buildProtocolCredentials_allots rfl Allots.nil hvless
  subst hl₁
  obtain ⟨hl₂, h₂⟩ := buildProtocolCredentials_allots rfl h₁ hvmess
  subst hl₂
  obtain ⟨hl₃, h₃⟩ := buildProtocolCredentials_allots rfl h₂ hhysteria2
  subst hl₃
  obtain ⟨hl₄, h₄⟩ := buildProtocolCredentials_allots rfl h₃ htuic
  subst hl₄
  exact (buildProtocolCredentials_allots rfl h₄ hanytls).2

/-- Credentials that are not built come from a run that stops at a protocol. -/
theorem buildCredentials_error {e : ConfigError}
    (h : chance.buildCredentials (some existing) options = .error e) :
    ∃ passed protocol given, passed.length < 5 ∧ (∀ earlier ∈ passed, Before earlier protocol) ∧
      Allots chance existing options passed given ∧
      PortFault chance existing options protocol (given.map Prod.snd) e := by
  rcases bind_error.mp h with h | ⟨⟨_, l₁⟩, hvless, h⟩
  · exact ⟨[], .vlessReality, [], by decide, by simp, Allots.nil,
      buildProtocolCredentials_error vlessReality_fromSecrets rfl h⟩
  obtain ⟨hl₁, h₁⟩ := buildProtocolCredentials_allots rfl Allots.nil hvless
  subst hl₁
  rcases bind_error.mp h with h | ⟨⟨_, l₂⟩, hvmess, h⟩
  · exact ⟨_, .vmessWebsocket, _, by decide, by decide, h₁,
      buildProtocolCredentials_error vmessWebsocket_fromSecrets rfl h⟩
  obtain ⟨hl₂, h₂⟩ := buildProtocolCredentials_allots rfl h₁ hvmess
  subst hl₂
  rcases bind_error.mp h with h | ⟨⟨_, l₃⟩, hhysteria2, h⟩
  · exact ⟨_, .hysteria2, _, by decide, by decide, h₂,
      buildProtocolCredentials_error hysteria2_fromSecrets rfl h⟩
  obtain ⟨hl₃, h₃⟩ := buildProtocolCredentials_allots rfl h₂ hhysteria2
  subst hl₃
  rcases bind_error.mp h with h | ⟨⟨_, l₄⟩, htuic, h⟩
  · exact ⟨_, .tuic, _, by decide, by decide, h₃, buildProtocolCredentials_error tuic_fromSecrets rfl h⟩
  obtain ⟨hl₄, h₄⟩ := buildProtocolCredentials_allots rfl h₃ htuic
  subst hl₄
  rcases bind_error.mp h with h | ⟨_, _, h⟩
  · exact ⟨_, .anytls, _, by decide, by decide, h₄, buildProtocolCredentials_error anytls_fromSecrets rfl h⟩
  · cases h

theorem drawPort_conflict {allocated : List UInt16} {left : Nat} {e : ConfigError}
    (h : chance.drawPort protocol allocated left = .error e) : e.conflict = none := by
  induction left with
  | zero =>
    cases h
    rfl
  | succ left ih =>
    rcases bind_error.mp h with h | ⟨_, _, h⟩
    · unfold Chance.randomProtocolPort at h
      cases hd : chance.draw protocol left with
      | error message =>
        rw [hd] at h
        cases h
        rfl
      | ok drawn =>
        rw [hd] at h
        cases h
    · split at h
      · cases h
      · exact ih h
end

/-! ## Validators that report no conflict -/

def NoConflict {α : Type} (x : Except ConfigError α) : Prop :=
  ∀ e, x = .error e → e.conflict = none

theorem noConflict_ok {α : Type} {a : α} : NoConflict (Except.ok a : Except ConfigError α) := by
  intro e h
  cases h

theorem noConflict_bind {α β : Type} {x : Except ConfigError α} {f : α → Except ConfigError β}
    (hx : NoConflict x) (hf : ∀ a, NoConflict (f a)) : NoConflict (x >>= f) := by
  intro e h
  rcases bind_error.mp h with h | ⟨a, -, h⟩
  · exact hx e h
  · exact hf a e h

theorem noConflict_invalid {α : Type} {message : String}
    (h : (ConfigError.invalidValue message).conflict = none) :
    NoConflict (Except.error (.invalidValue message) : Except ConfigError α) := by
  intro e he
  cases he
  exact h

theorem noConflict_rejectIf {bad : Prop} [Decidable bad] {message : String}
    (h : (ConfigError.invalidValue message).conflict = none) :
    NoConflict (rejectIf bad message) := by
  intro e he
  rw [(rejectIf_error.mp he).2]
  exact h

theorem noConflict_ifSome {α : Type} {value : Option α} {check : α → Except ConfigError Unit}
    (h : ∀ a, NoConflict (check a)) : NoConflict (ifSome value check) := by
  cases value with
  | none => exact noConflict_ok
  | some a => exact h a

section
variable {lib : Libraries} {config : DeploymentConfig}

theorem noConflict_validateHostname (label value : String) :
    NoConflict (validateHostname label value) := by
  apply noConflict_rejectIf
  split <;> decide

theorem noConflict_validateHost (label value : String) :
    NoConflict (validateHost lib label value) := by
  unfold validateHost
  split
  · exact noConflict_ok
  · exact noConflict_validateHostname label value

theorem noConflict_validateExtraRuleSets {builtin taken : List String} {sets : List ExtraRuleSet} :
    NoConflict (validateExtraRuleSets lib builtin taken sets) := by
  induction sets generalizing taken with
  | nil => exact noConflict_ok
  | cons set sets ih =>
    refine noConflict_bind (noConflict_rejectIf (by decide)) fun _ => ?_
    refine noConflict_bind (noConflict_rejectIf (by decide)) fun _ => ?_
    refine noConflict_bind ?_ fun _ => ?_
    · unfold validateExtraRuleSetUrl
      split
      · exact noConflict_invalid (by decide +kernel)
      · exact noConflict_rejectIf (by decide +kernel)
    · exact noConflict_bind (noConflict_rejectIf (by decide)) fun _ => ih

theorem noConflict_validateDeploymentIdentity :
    NoConflict (validateDeploymentIdentity lib config) := by
  refine noConflict_bind (noConflict_validateHost _ _) fun _ => ?_
  refine noConflict_bind (noConflict_ifSome fun _ => noConflict_validateHost _ _) fun _ => ?_
  iterate 5 refine noConflict_bind (noConflict_rejectIf (by decide)) fun _ => ?_
  exact noConflict_bind noConflict_validateExtraRuleSets fun _ =>
    noConflict_rejectIf (by decide)

/-- Listener ports apart from each other leave nothing to report. -/
theorem noConflict_validateProtocols
    (hports : validateListenerPorts [] config.protocolListenerPorts = .ok ()) :
    NoConflict (validateProtocols lib config) := by
  refine noConflict_bind (noConflict_rejectIf (by decide)) fun _ => ?_
  refine noConflict_bind (hports ▸ noConflict_ok) fun _ => ?_
  iterate 7 refine noConflict_bind (noConflict_rejectIf (by decide)) fun _ => ?_
  refine noConflict_bind (noConflict_ifSome fun _ => noConflict_validateHostname _ _) fun _ => ?_
  refine noConflict_bind (noConflict_ifSome fun _ => noConflict_validateHostname _ _) fun _ => ?_
  exact noConflict_rejectIf (by decide)

theorem noConflict_validateNamedCredentials {live : List String}
    {entries : List NamedCredential} : NoConflict (validateNamedCredentials live entries) := by
  induction entries generalizing live with
  | nil => exact noConflict_ok
  | cons entry entries ih =>
    iterate 3 refine noConflict_bind (noConflict_rejectIf (by decide)) fun _ => ?_
    exact ih

theorem noConflict_validateAccountingPolicy {zone : Clock.Zone} :
    NoConflict (validateAccountingPolicy lib config zone) := by
  unfold validateAccountingPolicy
  split
  · exact noConflict_rejectIf (by decide)
  · split
    · exact noConflict_invalid (by decide)
    · split
      · exact noConflict_invalid (by decide)
      · unfold validateAnchoredResetLocalTime
        split
        · exact noConflict_ok
        · exact noConflict_invalid (by decide)
        · exact noConflict_invalid (by decide)

theorem noConflict_validateSecretAndAccounting :
    NoConflict (validateSecretAndAccounting lib config) := by
  refine noConflict_bind (noConflict_rejectIf (by decide)) fun _ => ?_
  refine noConflict_bind noConflict_validateNamedCredentials fun _ => ?_
  split
  · exact noConflict_invalid (by decide)
  · exact noConflict_bind (noConflict_rejectIf (by decide)) fun _ =>
      noConflict_validateAccountingPolicy

/-- The only conflict of the hopping validator is a listener inside the range. -/
theorem portHopping_conflict {e : ConfigError} {kind : PortConflict}
    (h : PortHopping.validate config = .error e) (hkind : e.conflict = some kind) :
    kind = .hopping ∧ ∃ hop, config.hysteria2PortHopping = some hop ∧
      ∃ a port, a ≠ .managed .hysteria2 ∧ config.portOf a = some port ∧ hop.Contains port := by
  unfold PortHopping.validate at h
  cases hh : config.hysteria2PortHopping with
  | none =>
    rw [hh] at h
    cases h
  | some hop =>
    rw [hh] at h
    rcases bind_error.mp h with h | ⟨_, _, h⟩
    · rw [noConflict_rejectIf (by decide) e h] at hkind
      cases hkind
    rcases bind_error.mp h with h | ⟨_, _, h⟩
    · rw [noConflict_rejectIf (by decide) e h] at hkind
      cases hkind
    obtain ⟨hany, he⟩ := rejectIf_error.mp h
    subst he
    refine ⟨(Option.some.inj hkind).symm, hop, rfl, ?_⟩
    obtain ⟨port, hmem, hcontains⟩ := List.any_eq_true.mp hany
    obtain ⟨value, hvalue, hid⟩ := List.mem_filterMap.mp hmem
    cases hid
    simp only [PortHopping.otherPorts, List.mem_cons, List.not_mem_nil, or_false] at hvalue
    have hc := of_decide_eq_true hcontains
    rcases hvalue with h | h | h | h | h | h | h
    · exact ⟨.managed .vlessReality, port, by decide, h.symm, hc⟩
    · exact ⟨.managed .vmessWebsocket, port, by decide, h.symm, hc⟩
    · exact ⟨.managed .tuic, port, by decide, h.symm, hc⟩
    · exact ⟨.managed .anytls, port, by decide, h.symm, hc⟩
    · exact ⟨.http, port, by decide, h.symm, hc⟩
    · exact ⟨.subscription, port, by decide, h.symm, hc⟩
    · exact ⟨.clashApi, port, by decide, h.symm, hc⟩

/-- The only conflicts of the subscription validator are those of its listener. -/
theorem validateSubscriptionMode_conflict {e : ConfigError} {kind : PortConflict}
    (h : validateSubscriptionMode lib config = .error e) (hkind : e.conflict = some kind) :
    (kind = .http ∧ config.subscriptionMode = .ipFallback ∧ config.subscriptionListenPort = none ∧
        lib.isIpAddr config.subscriptionHost ∧
        ∃ port, config.httpPort = some port ∧ port ∈ config.protocolListenerPorts) ∨
      (kind = .subscription ∧ config.subscriptionMode = .externalProxy ∧
        ¬ lib.isIpAddr config.subscriptionHost ∧ config.httpPort = none ∧
        ∃ port, config.subscriptionListenPort = some port ∧
          port ∈ config.protocolListenerPorts) := by
  have hno : ∀ {α : Type} {x : Except ConfigError α}, NoConflict x → x = .error e → False := by
    intro α x hx h
    rw [hx e h] at hkind
    cases hkind
  unfold validateSubscriptionMode at h
  cases hmode : config.subscriptionMode with
  | direct =>
    rw [hmode] at h
    refine (hno ?_ h).elim
    iterate 2 refine noConflict_bind (noConflict_rejectIf (by decide)) fun _ => ?_
    exact noConflict_rejectIf (by decide)
  | ipFallback =>
    rw [hmode] at h
    rcases bind_error.mp h with h | ⟨_, hlisten, h⟩
    · exact (hno (noConflict_rejectIf (by decide)) h).elim
    rcases bind_error.mp h with h | ⟨_, hip, h⟩
    · exact (hno (noConflict_rejectIf (by decide)) h).elim
    cases hport : config.httpPort with
    | none =>
      rw [hport] at h
      exact (hno (noConflict_invalid (by decide)) h).elim
    | some port =>
      rw [hport] at h
      rcases bind_error.mp h with h | ⟨_, _, h⟩
      · exact (hno (noConflict_rejectIf (by decide)) h).elim
      rcases bind_error.mp h with h | ⟨_, _, h⟩
      · obtain ⟨hmem, he⟩ := rejectIf_error.mp h
        subst he
        refine Or.inl ⟨(Option.some.inj hkind).symm, rfl, ?_, ?_, port, rfl, hmem⟩
        · simpa using rejectIf_ok.mp hlisten
        · simpa using rejectIf_ok.mp hip
      · exact (hno (noConflict_rejectIf (by decide)) h).elim
  | externalProxy =>
    rw [hmode] at h
    rcases bind_error.mp h with h | ⟨_, hip, h⟩
    · exact (hno (noConflict_rejectIf (by decide)) h).elim
    rcases bind_error.mp h with h | ⟨_, hhttp, h⟩
    · exact (hno (noConflict_rejectIf (by decide)) h).elim
    cases hport : config.subscriptionListenPort with
    | none =>
      rw [hport] at h
      exact (hno (noConflict_invalid (by decide)) h).elim
    | some port =>
      rw [hport] at h
      rcases bind_error.mp h with h | ⟨_, _, h⟩
      · exact (hno (noConflict_rejectIf (by decide)) h).elim
      obtain ⟨hmem, he⟩ := rejectIf_error.mp h
      subst he
      refine Or.inr ⟨(Option.some.inj hkind).symm, rfl, rejectIf_ok.mp hip, ?_, port, rfl, hmem⟩
      simpa using rejectIf_ok.mp hhttp

end

section
variable {lib : Libraries} {chance : Chance} {existing : DeploymentConfig}
  {options : DeploymentOptions} {protocol : ManagedProtocol}

theorem fixedPort_requested {port : UInt16} (henabled : protocol ∈ options.enabledProtocols)
    (hport : options.ports.requested protocol = some port) :
    fixedPort existing options protocol = some port := by
  rw [fixedPort, if_pos henabled, hport]
  cases existing.protocolListenerPort protocol <;> rfl

/-- The only conflict of the requested ports is one between two of them. -/
theorem validateRequestedPorts_conflict {protocols : List ManagedProtocol}
    (hnodup : protocols.Nodup) {values : List UInt16}
    (hvalues : ∀ value ∈ values, ∃ other, other ∉ protocols ∧
      fixedPort existing options other = some value)
    {e : ConfigError} {kind : PortConflict} (hkind : e.conflict = some kind)
    (h : validateRequestedPorts options.enabledProtocols options.ports values protocols =
      .error e) : kind = .protocols ∧ FixedConflict existing options .protocols := by
  have hno : ∀ {x : Except ConfigError Unit}, NoConflict x → x = .error e → False := by
    intro x hx h
    rw [hx e h] at hkind
    cases hkind
  induction protocols generalizing values with
  | nil => cases h
  | cons protocol protocols ih =>
    obtain ⟨hfirst, hrest⟩ := List.nodup_cons.mp hnodup
    unfold validateRequestedPorts at h
    have hlater : ∀ value ∈ values, ∃ other, other ∉ protocols ∧
        fixedPort existing options other = some value := by
      intro value hv
      obtain ⟨other, hother, hport⟩ := hvalues value hv
      exact ⟨other, fun hc => hother (List.mem_cons_of_mem _ hc), hport⟩
    cases hp : options.ports.requested protocol with
    | none =>
      rw [hp] at h
      exact ih hrest hlater h
    | some port =>
      rw [hp] at h
      rcases bind_error.mp h with h | ⟨_, henabled, h⟩
      · exact (hno (noConflict_rejectIf (by decide)) h).elim
      have hfixed : fixedPort existing options protocol = some port :=
        fixedPort_requested (not_not.mp (rejectIf_ok.mp henabled)) hp
      rcases bind_error.mp h with h | ⟨_, _, h⟩
      · exact (hno (noConflict_rejectIf (by decide)) h).elim
      rcases bind_error.mp h with h | ⟨_, _, h⟩
      · obtain ⟨hmem, he⟩ := rejectIf_error.mp h
        subst he
        obtain ⟨other, hother, hport⟩ := hvalues port hmem
        refine ⟨(Option.some.inj hkind).symm, protocol, other, port, ?_, hfixed, hport⟩
        intro hc
        exact hother (hc ▸ List.mem_cons_self)
      · refine ih hrest ?_ h
        intro value hv
        rcases List.mem_cons.mp hv with rfl | hv
        · exact ⟨protocol, hfirst, hfixed⟩
        · exact hlater value hv

theorem validateListenerPorts_of {before ports : List UInt16}
    (hrange : ∀ port ∈ ports, minProtocolPort ≤ port ∧ port ≤ maxProtocolPort)
    (hnodup : ports.Nodup) (hbefore : ∀ port ∈ ports, port ∉ before) :
    validateListenerPorts before ports = .ok () := by
  induction ports generalizing before with
  | nil => rfl
  | cons port ports ih =>
    obtain ⟨hfirst, hrest⟩ := List.nodup_cons.mp hnodup
    simp only [validateListenerPorts, check_ok, rejectIf_ok, not_not]
    refine ⟨hrange port List.mem_cons_self, hbefore port List.mem_cons_self,
      ih (fun p hp => hrange p (List.mem_cons_of_mem _ hp)) hrest ?_⟩
    intro p hp hmem
    rcases List.mem_cons.mp hmem with rfl | hmem
    · exact hfirst hp
    · exact hbefore p (List.mem_cons_of_mem _ hp) hmem

theorem protocolListenerPorts_nodup {config : DeploymentConfig}
    (h : ∀ a b port, config.protocolListenerPort a = some port →
      config.protocolListenerPort b = some port → a = b) : config.protocolListenerPorts.Nodup := by
  have hone : ∀ port : Option UInt16, port.toList.Nodup := by
    intro port
    cases port <;> simp
  have hapart : ∀ a b, a ≠ b → ∀ x ∈ (config.protocolListenerPort a).toList,
      ∀ y ∈ (config.protocolListenerPort b).toList, x ≠ y := by
    rintro a b hab x hx y hy rfl
    exact hab (h a b x (Option.mem_toList.mp hx) (Option.mem_toList.mp hy))
  have h₁ := hapart .vlessReality
  have h₂ := hapart .vmessWebsocket
  have h₃ := hapart .hysteria2
  have h₄ := hapart .tuic
  simp only [DeploymentConfig.protocolListenerPort] at h₁ h₂ h₃ h₄
  simp only [DeploymentConfig.protocolListenerPorts, List.nodup_append, hone, true_and,
    List.mem_append]
  refine ⟨⟨⟨h₁ .vmessWebsocket (by decide), ?_⟩, ?_⟩, ?_⟩
  · rintro x (hx | hx)
    · exact h₁ .hysteria2 (by decide) x hx
    · exact h₂ .hysteria2 (by decide) x hx
  · rintro x ((hx | hx) | hx)
    · exact h₁ .tuic (by decide) x hx
    · exact h₂ .tuic (by decide) x hx
    · exact h₃ .tuic (by decide) x hx
  · rintro x (((hx | hx) | hx) | hx)
    · exact h₁ .anytls (by decide) x hx
    · exact h₂ .anytls (by decide) x hx
    · exact h₃ .anytls (by decide) x hx
    · exact h₄ .anytls (by decide) x hx

theorem le_maxProtocolPort (port : UInt16) : port ≤ maxProtocolPort :=
  UInt16.le_iff_toNat_le.mpr (Nat.le_of_lt_succ port.toNat_lt)

theorem buildCredentials_exact {credentials : ProtocolCredentials} {credential : String}
    (h : chance.buildCredentials (some existing) options = .ok credentials)
    (protocol : ManagedProtocol) :
    (rebuilt (some existing) options credential credentials).hasCredentials protocol ↔
      protocol ∈ options.enabledProtocols := by
  obtain ⟨_, _, _, _, _, hvless, hvmess, hhysteria2, htuic, hanytls⟩ := Chance.buildCredentials_ok h
  cases protocol with
  | vlessReality => exact Chance.buildProtocolCredentials_isSome hvless
  | vmessWebsocket => exact Chance.buildProtocolCredentials_isSome hvmess
  | hysteria2 => exact Chance.buildProtocolCredentials_isSome hhysteria2
  | tuic => exact Chance.buildProtocolCredentials_isSome htuic
  | anytls => exact Chance.buildProtocolCredentials_isSome hanytls

theorem placeholder_exact {credential : String} (protocol : ManagedProtocol) :
    (rebuilt (some existing) options credential
      (placeholder options.enabledProtocols)).hasCredentials protocol ↔
      protocol ∈ options.enabledProtocols := by
  cases protocol <;> simp [DeploymentConfig.hasCredentials, rebuilt, placeholder]

theorem placeholder_ports {credential : String} :
    validateListenerPorts [] (rebuilt (some existing) options credential
      (placeholder options.enabledProtocols)).protocolListenerPorts = .ok () := by
  have hport : ∀ protocol port, (rebuilt (some existing) options credential
      (placeholder options.enabledProtocols)).protocolListenerPort protocol = some port →
      port = 10000 + UInt16.ofNat (protocolOrder.idxOf protocol) := by
    intro protocol port h
    cases protocol <;>
      simp only [DeploymentConfig.protocolListenerPort, DeploymentConfig.vlessPort,
        DeploymentConfig.vmessPort, DeploymentConfig.hysteria2Port, DeploymentConfig.tuicPort,
        DeploymentConfig.anytlsPort, rebuilt, placeholder, Option.map_eq_some_iff,
        Option.ite_none_right_eq_some, Option.some.injEq] at h <;>
      obtain ⟨_, ⟨-, rfl⟩, rfl⟩ := h <;> rfl
  refine validateListenerPorts_of ?_ (protocolListenerPorts_nodup ?_) (by simp)
  · intro port hmem
    obtain ⟨protocol, hp⟩ := DeploymentConfig.mem_protocolListenerPorts.mp hmem
    refine ⟨?_, le_maxProtocolPort port⟩
    rw [hport protocol port hp]
    cases protocol <;> decide
  · intro a b port ha hb
    have hab := (hport a port ha).symm.trans (hport b port hb)
    revert hab
    cases a <;> cases b <;> decide

/-- The validators see of the credentials only whether they are there and
whether their ports are apart. -/
theorem validateProtocols_ok_iff {config : DeploymentConfig}
    (hports : validateListenerPorts [] config.protocolListenerPorts = .ok ())
    (hexact : ∀ protocol, config.hasCredentials protocol ↔ protocol ∈ config.enabledProtocols) :
    validateProtocols lib config = .ok () ↔
      config.enabledProtocols ≠ [] ∧ config.enabledProtocols.Nodup ∧
      ¬ (.vlessReality ∈ config.enabledProtocols ∧ config.realityDecoySni.all (· = "")) ∧
      ifSome config.realityDecoySni (validateHostname "Reality decoy SNI") = .ok () ∧
      ifSome config.protocolSni (validateHostname "protocol SNI") = .ok () ∧
      ¬ (config.certificateMode = .domain ∧ config.subscriptionMode ≠ .ipFallback ∧
        ¬ eqIgnoreAsciiCase (config.protocolServerName lib) config.subscriptionHost) := by
  have hvless := hexact .vlessReality
  have hvmess := hexact .vmessWebsocket
  have hhysteria2 := hexact .hysteria2
  have htuic := hexact .tuic
  have hanytls := hexact .anytls
  simp only [DeploymentConfig.hasCredentials] at hvless hvmess hhysteria2 htuic hanytls
  simp only [validateProtocols, validateEnabledCredentials, check_ok, rejectIf_ok, hports,
    true_and, ← hvmess, ← hhysteria2, ← htuic, ← hanytls, and_not_self, not_false_eq_true, not_not, ne_eq]
  have hself : ¬ (.vlessReality ∈ config.enabledProtocols ∧ config.vlessReality = none) := by
    rintro ⟨hmem, hnone⟩
    rw [← hvless, hnone] at hmem
    cases hmem
  simp only [hself, not_false_eq_true, true_and]

end

/-! ## Safe edits -/

section
variable {lib : Libraries} {chance : Chance} {existing : DeploymentConfig}
  {options : DeploymentOptions} {protocol : ManagedProtocol}

/-- What credentials that are built make of the ports. -/
structure Assigned (existing : DeploymentConfig) (options : DeploymentOptions)
    (config : DeploymentConfig) : Prop where
  exact : ∀ protocol, config.hasCredentials protocol ↔ protocol ∈ options.enabledProtocols
  ports : validateListenerPorts [] config.protocolListenerPorts = .ok ()
  source : ∀ protocol port, config.protocolListenerPort protocol = some port →
    fixedPort existing options protocol = some port ∨
      Drawn existing options protocol ∧ minProtocolPort ≤ port
  fixed : ∀ protocol port, fixedPort existing options protocol = some port →
    config.protocolListenerPort protocol = some port

theorem mem_protocolOrder (protocol : ManagedProtocol) : protocol ∈ protocolOrder.reverse := by
  cases protocol <;> decide

theorem validateRequestedPorts_range {values : List UInt16} {protocols : List ManagedProtocol}
    (h : validateRequestedPorts options.enabledProtocols options.ports values protocols = .ok ())
    (hmem : protocol ∈ protocols) {port : UInt16}
    (hport : options.ports.requested protocol = some port) : minProtocolPort ≤ port := by
  induction protocols generalizing values with
  | nil => cases hmem
  | cons first protocols ih =>
    unfold validateRequestedPorts at h
    cases hmem with
    | head =>
      rw [hport] at h
      obtain ⟨_, -, h⟩ := bind_ok.mp h
      obtain ⟨_, hrange, -⟩ := bind_ok.mp h
      exact (not_not.mp (rejectIf_ok.mp hrange)).1
    | tail _ hmem =>
      cases hfirst : options.ports.requested first with
      | none =>
        rw [hfirst] at h
        exact ih h hmem
      | some _ =>
        rw [hfirst] at h
        obtain ⟨_, -, h⟩ := bind_ok.mp h
        obtain ⟨_, -, h⟩ := bind_ok.mp h
        obtain ⟨_, -, h⟩ := bind_ok.mp h
        exact ih h hmem

theorem minProtocolPort_le_fixedPort (h : validateProtocols lib existing = .ok ())
    (hrequested : validateRequestedPorts options.enabledProtocols options.ports [] protocolOrder =
      .ok ()) {port : UInt16} (hfixed : fixedPort existing options protocol = some port) :
    minProtocolPort ≤ port := by
  have hmem : protocol ∈ protocolOrder := List.mem_reverse.mp (mem_protocolOrder protocol)
  have hasked := fun port => @validateRequestedPorts_range options protocol _ _ hrequested hmem port
  unfold fixedPort at hfixed
  by_cases henabled : protocol ∈ options.enabledProtocols
  · rw [if_pos henabled] at hfixed
    cases hcurrent : existing.protocolListenerPort protocol with
    | none =>
      rw [hcurrent] at hfixed
      exact hasked port hfixed
    | some current =>
      rw [hcurrent] at hfixed
      cases hvalue : options.ports.requested protocol with
      | none =>
        rw [hvalue] at hfixed
        cases hfixed
        exact (validateListenerPorts_range (validateProtocols_ports h) _
          (DeploymentConfig.mem_protocolListenerPorts.mpr ⟨protocol, hcurrent⟩)).1
      | some value =>
        rw [hvalue] at hfixed
        cases hfixed
        exact hasked value hvalue
  · rw [if_neg henabled] at hfixed
    cases hfixed

theorem assigned_of_buildCredentials (h : validateProtocols lib existing = .ok ())
    (hrequested : validateRequestedPorts options.enabledProtocols options.ports [] protocolOrder =
      .ok ()) {credentials : ProtocolCredentials} {credential : String}
    (hbuild : chance.buildCredentials (some existing) options = .ok credentials) :
    Assigned existing options (rebuilt (some existing) options credential credentials) := by
  have hrun := @buildCredentials_allots chance existing options credentials credential hbuild
  have hmem := fun protocol port => @mem_givenBy protocol (rebuilt (some existing) options credential
    credentials).protocolListenerPort protocolOrder.reverse port
  have hsource : ∀ protocol port, (rebuilt (some existing) options credential
      credentials).protocolListenerPort protocol = some port →
      fixedPort existing options protocol = some port ∨
        Drawn existing options protocol ∧ minProtocolPort ≤ port := fun protocol port hport =>
    (hrun.of_mem ((hmem protocol port).mpr ⟨mem_protocolOrder protocol, hport⟩)).2
  refine ⟨buildCredentials_exact hbuild, ?_, hsource, ?_⟩
  · refine validateListenerPorts_of ?_ (protocolListenerPorts_nodup ?_) (by simp)
    · intro port hp
      obtain ⟨protocol, hport⟩ := DeploymentConfig.mem_protocolListenerPorts.mp hp
      refine ⟨?_, le_maxProtocolPort port⟩
      rcases hsource protocol port hport with hfixed | hdrawn
      · exact minProtocolPort_le_fixedPort h hrequested hfixed
      · exact hdrawn.2
    · intro a b port ha hb
      have hpair := List.inj_on_of_nodup_map hrun.nodup
        ((hmem a port).mpr ⟨mem_protocolOrder a, ha⟩) ((hmem b port).mpr ⟨mem_protocolOrder b, hb⟩)
        rfl
      exact congrArg Prod.fst hpair
  · intro protocol port hfixed
    exact ((hmem protocol port).mp (hrun.fixed_mem (mem_protocolOrder protocol) hfixed)).2

theorem Assigned.apart {config : DeploymentConfig} (h : Assigned existing options config) :
    ¬ FixedConflict existing options .protocols := by
  rintro ⟨a, b, port, hab, ha, hb⟩
  exact hab (DeploymentConfig.protocolListenerPort_injective
    (validateListenerPorts_ok h.ports).1 (h.fixed a port ha) (h.fixed b port hb))

theorem otherwiseValid_iff {credentials : ProtocolCredentials}
    (h : Assigned existing options
      (rebuilt (some existing) options existing.subscriptionCredential credentials)) :
    OtherwiseValid lib existing options ↔
      let config := rebuilt (some existing) options existing.subscriptionCredential credentials
      validateDeploymentIdentity lib config = .ok () ∧ validateProtocols lib config = .ok () ∧
        validateSecretAndAccounting lib config = .ok () := by
  unfold OtherwiseValid
  dsimp only
  rw [validateProtocols_ok_iff h.ports h.exact,
    validateProtocols_ok_iff placeholder_ports placeholder_exact]
  rfl

theorem portOf_rebuilt {credentials : ProtocolCredentials} {credential : String} {a : Listener}
    {port : UInt16} (h : Assigned existing options
      (rebuilt (some existing) options credential credentials))
    (hport : (rebuilt (some existing) options credential credentials).portOf a = some port) :
    fixedPortOf existing options a = some port ∨
      ∃ protocol, a = .managed protocol ∧ Drawn existing options protocol ∧
        minProtocolPort ≤ port := by
  cases a with
  | managed protocol =>
    rcases h.source protocol port hport with hfixed | hdrawn
    · exact Or.inl hfixed
    · exact Or.inr ⟨protocol, rfl, hdrawn⟩
  | http => exact Or.inl hport
  | subscription => exact Or.inl hport
  | clashApi => exact Or.inl hport

/-- A listener of the rebuilt deployment on a port of one of its protocols. -/
theorem listener_conflict {credentials : ProtocolCredentials} {credential : String} {port : UInt16}
    (h : Assigned existing options (rebuilt (some existing) options credential credentials))
    (hmem : port ∈ (rebuilt (some existing) options credential credentials).protocolListenerPorts)
    (hfree : ∀ protocol, fixedPort existing options protocol ≠ some port) :
    ∃ protocol, Drawn existing options protocol ∧ minProtocolPort ≤ port := by
  obtain ⟨protocol, hport⟩ := DeploymentConfig.mem_protocolListenerPorts.mp hmem
  rcases h.source protocol port hport with hfixed | hdrawn
  · exact (hfree protocol hfixed).elim
  · exact ⟨protocol, hdrawn⟩

section
variable {e : ConfigError} {kind : PortConflict} (hsafe : ¬ Exposed lib existing options)
  (hrequested : validateRequestedPorts options.enabledProtocols options.ports [] protocolOrder =
    .ok ()) (hkind : e.conflict = some kind)

include hsafe hrequested hkind

/-- While the credentials are built, only fixed ports meet. -/
theorem fixedConflict_of_build (hrun : chance.buildCredentials (some existing) options = .error e) :
    FixedConflict existing options kind := by
  by_contra hfree
  obtain ⟨passed, protocol, given, -, hbefore, hallots, hfault⟩ := buildCredentials_error hrun
  cases hfault with
  | secret => cases hkind
  | taken hfixed hmem hconflict =>
    cases hconflict.symm.trans hkind
    obtain ⟨⟨other, port⟩, hother, rfl⟩ := List.mem_map.mp hmem
    obtain ⟨hpassed, hsource⟩ := hallots.of_mem hother
    rcases hsource with hsource | hdrawn
    · refine hfree ⟨other, protocol, port, ?_, hsource, hfixed⟩
      rintro rfl
      exact absurd (hbefore other hpassed) (Nat.lt_irrefl _)
    · exact hsafe ⟨hrequested, hfree, other, hdrawn.1,
        Or.inl ⟨protocol, hbefore other hpassed, by simp [hfixed]⟩⟩
  | held hfixed =>
    cases hkind
    exact hfree ⟨protocol, hfixed⟩
  | drawn _ hdraw =>
    rw [drawPort_conflict hdraw] at hkind
    cases hkind

variable {credentials : ProtocolCredentials} (hassigned : Assigned existing options
  (rebuilt (some existing) options existing.subscriptionCredential credentials))

include hassigned

/-- What the range of a kept hopping contains is a fixed port. -/
theorem fixedConflict_of_hopping (hrun : PortHopping.validate
      (rebuilt (some existing) options existing.subscriptionCredential credentials) = .error e) :
    FixedConflict existing options kind := by
  by_contra hfree
  obtain ⟨rfl, hop, hkept, a, port, ha, hport, hcontains⟩ := portHopping_conflict hrun hkind
  have hhopping : keptHopping existing options = some hop := hkept
  rcases portOf_rebuilt hassigned hport with hfixed | ⟨protocol, rfl, hdrawn, -⟩
  · exact hfree ⟨hop, hhopping, a, port, ha, hfixed, hcontains⟩
  · exact hsafe ⟨hrequested, hassigned.apart, protocol, hdrawn,
      Or.inr (Or.inl ⟨by simp [hhopping], hfree⟩)⟩

/-- A listener of the subscription meets a fixed port. -/
theorem fixedConflict_of_mode
    (hhop : PortHopping.validate
      (rebuilt (some existing) options existing.subscriptionCredential credentials) = .ok ())
    (hotherwise : OtherwiseValid lib existing options)
    (hrun : validateSubscriptionMode lib
      (rebuilt (some existing) options existing.subscriptionCredential credentials) = .error e) :
    FixedConflict existing options kind := by
  by_contra hfree
  -- A kept range has passed its validator, so no fixed listener is inside it.
  have hrange : ¬ FixedConflict existing options .hopping := by
    rintro ⟨hop, hkept, a, port, ha, hport, hcontains⟩
    refine ha (portHopping_ok hhop hkept ?_ hcontains)
    cases a with
    | managed protocol => exact hassigned.fixed protocol port hport
    | http => exact hport
    | subscription => exact hport
    | clashApi => exact hport
  have hexposed : ∀ protocol, Drawn existing options protocol →
      ListenerExposed lib existing options → False := by
    intro protocol hdrawn hlistener
    refine hsafe ⟨hrequested, hassigned.apart, protocol, hdrawn, Or.inr ?_⟩
    by_cases hkept : keptHopping existing options = none
    · exact Or.inr ⟨hkept, hotherwise, hlistener⟩
    · exact Or.inl ⟨hkept, hrange⟩
  rcases validateSubscriptionMode_conflict hrun hkind with
    ⟨rfl, hmode, hlisten, hip, port, hport, hmem⟩ | ⟨rfl, hmode, hip, hhttp, port, hport, hmem⟩
  · have hapart : ∀ protocol, fixedPort existing options protocol ≠ some port :=
      fun protocol hfixed => hfree ⟨protocol, port, hport, hfixed⟩
    obtain ⟨protocol, hdrawn, hmin⟩ := listener_conflict hassigned hmem hapart
    refine hexposed protocol hdrawn ?_
    unfold ListenerExposed
    rw [show options.subscriptionMode = .ipFallback from hmode]
    exact ⟨hlisten, hip, port, hport, hmin, hapart⟩
  · have hapart : ∀ protocol, fixedPort existing options protocol ≠ some port :=
      fun protocol hfixed => hfree ⟨protocol, port, hport, hfixed⟩
    obtain ⟨protocol, hdrawn, hmin⟩ := listener_conflict hassigned hmem hapart
    refine hexposed protocol hdrawn ?_
    unfold ListenerExposed
    rw [show options.subscriptionMode = .externalProxy from hmode]
    exact ⟨hip, hhttp, port, hport, hmin, hapart⟩

end

/-- A conflict of an edit that no draw can sink is one of fixed ports. -/
theorem fixedConflict_of_not_exposed (h : Accepted lib existing)
    (hsafe : ¬ Exposed lib existing options) {e : ConfigError} {kind : PortConflict}
    (hkind : e.conflict = some kind)
    (hrun : applyOptions lib chance (some existing) options = .error e) :
    FixedConflict existing options kind := by
  rcases bind_error.mp hrun with hrun | ⟨_, hrequested, hrun⟩
  · obtain ⟨rfl, hfixed⟩ := validateRequestedPorts_conflict (by decide) (by simp) hkind hrun
    exact hfixed
  rcases bind_error.mp hrun with hrun | ⟨credentials, hbuild, hrun⟩
  · exact fixedConflict_of_build hsafe hrequested hkind hrun
  rcases bind_error.mp hrun with hrun | ⟨_, hdefault, hrun⟩
  · cases hrun
  cases hdefault
  have hassigned := @assigned_of_buildCredentials lib chance existing options
    (accepted_iff.mp h).2.2.1 hrequested credentials existing.subscriptionCredential hbuild
  have hno : ∀ {x : Except ConfigError Unit}, NoConflict x → x = .error e → False := by
    intro x hx hx'
    rw [hx e hx'] at hkind
    cases hkind
  rcases bind_error.mp hrun with hrun | ⟨_, -, hrun⟩
  swap
  · cases hrun
  rcases bind_error.mp hrun with hrun | ⟨_, hhop, hrun⟩
  · exact fixedConflict_of_hopping hsafe hrequested hkind hassigned hrun
  rcases bind_error.mp hrun with hrun | ⟨_, hidentity, hrun⟩
  · exact (hno noConflict_validateDeploymentIdentity hrun).elim
  rcases bind_error.mp hrun with hrun | ⟨_, hvalid, hrun⟩
  · exact (hno (noConflict_validateProtocols hassigned.ports) hrun).elim
  rcases bind_error.mp hrun with hrun | ⟨_, hsecret, hrun⟩
  · exact (hno noConflict_validateSecretAndAccounting hrun).elim
  exact fixedConflict_of_mode hsafe hrequested hkind hassigned hhop
    ((otherwiseValid_iff hassigned).mpr ⟨hidentity, hvalid, hsecret⟩) hrun

end

/-! ## A draw that meets a port -/

def luckyDraw (target : UInt16) (left : Nat) : UInt32 :=
  if left + 1 = Chance.maxRandomPortAttempts then (target - minProtocolPort).toUInt32
  else UInt32.ofNat left

/-- First the target, then one port after the other; nothing is refused. -/
def luckyChance (target : UInt16) : Chance where
  secret := fun _ => .ok ""
  draw := fun _ left => .ok (luckyDraw target left)
  holder := fun _ _ _ => none
  publicKey := id

theorem portOfDraw_target {target : UInt16} (h : minProtocolPort ≤ target) :
    portOfDraw (luckyDraw target 255) = target := by
  have hmin : minProtocolPort.toNat = 10000 := rfl
  have hlt := target.toNat_lt
  have hle := h
  rw [UInt16.le_iff_toNat_le, hmin] at hle
  have hlast : 255 + 1 = Chance.maxRandomPortAttempts := rfl
  rw [luckyDraw, if_pos hlast, ← UInt16.toNat_inj, portOfDraw_toNat, UInt16.toNat_toUInt32,
    UInt16.toNat_sub_of_le _ _ h, hmin]
  omega

section
variable {lib : Libraries} {existing : DeploymentConfig} {options : DeploymentOptions}
  {target : UInt16} {protocol : ManagedProtocol}

theorem drawPort_lucky {allocated : List UInt16} {left : Nat} :
    (luckyChance target).drawPort protocol allocated (left + 1) =
      if portOfDraw (luckyDraw target left) ∉ allocated then .ok (portOfDraw (luckyDraw target left))
      else (luckyChance target).drawPort protocol allocated left := by
  simp [Chance.drawPort, Chance.randomProtocolPort, luckyChance,
    Chance.ensureProtocolPortAvailable, bind, Except.bind, Except.map, Except.mapError,
    Except.isOk, Except.toBool, portOfDraw]

/-- The target is drawn while it is free. -/
theorem drawPort_target (h : minProtocolPort ≤ target) {allocated : List UInt16}
    (hfree : target ∉ allocated) :
    (luckyChance target).drawPort protocol allocated Chance.maxRandomPortAttempts = .ok target := by
  rw [Chance.maxRandomPortAttempts, drawPort_lucky, portOfDraw_target h]
  exact if_pos hfree

theorem portOfDraw_lucky_injective {a b : Nat} (ha : a < 255) (hb : b < 255)
    (h : portOfDraw (luckyDraw target a) = portOfDraw (luckyDraw target b)) : a = b := by
  have hnat := congrArg UInt16.toNat h
  have hsize : UInt32.size = 4294967296 := rfl
  have hnot : ∀ n < 255, ¬ n + 1 = Chance.maxRandomPortAttempts := fun n hn hc => by
    have : n + 1 = 256 := hc
    omega
  rw [luckyDraw, luckyDraw, if_neg (hnot a ha), if_neg (hnot b hb), portOfDraw_toNat,
    portOfDraw_toNat, UInt32.toNat_ofNat_of_lt' (by omega), UInt32.toNat_ofNat_of_lt' (by omega)]
    at hnat
  omega

/-- A draw fails only when every port it goes through is allocated. -/
theorem drawPort_lucky_error {allocated : List UInt16} {left : Nat} {e : ConfigError}
    (h : (luckyChance target).drawPort protocol allocated left = .error e) :
    ∀ n < left, portOfDraw (luckyDraw target n) ∈ allocated := by
  induction left with
  | zero => simp
  | succ left ih =>
    rw [drawPort_lucky] at h
    by_cases hfree : portOfDraw (luckyDraw target left) ∉ allocated
    · rw [if_pos hfree] at h
      cases h
    · rw [if_neg hfree] at h
      intro n hn
      rcases Nat.lt_succ_iff_lt_or_eq.mp hn with hn | rfl
      · exact ih h n hn
      · exact not_not.mp hfree

theorem drawPort_lucky_ok {allocated : List UInt16} (hfew : allocated.length < 255)
    {e : ConfigError} : (luckyChance target).drawPort protocol allocated
      Chance.maxRandomPortAttempts ≠ .error e := by
  intro h
  have hall := drawPort_lucky_error h
  have hnodup : ((List.range 255).map fun n => portOfDraw (luckyDraw target n)).Nodup := by
    refine List.Nodup.map_on ?_ List.nodup_range
    intro a ha b hb
    exact portOfDraw_lucky_injective (List.mem_range.mp ha) (List.mem_range.mp hb)
  have hsubset : ((List.range 255).map fun n => portOfDraw (luckyDraw target n)) ⊆ allocated := by
    intro port hmem
    obtain ⟨n, hn, rfl⟩ := List.mem_map.mp hmem
    have hn := List.mem_range.mp hn
    exact hall n (Nat.lt_succ_of_lt hn)
  have hlength := (List.subperm_of_subset hnodup hsubset).length_le
  rw [List.length_map, List.length_range] at hlength
  omega

/-- With the lucky draws the only fault left is a fixed port that was given away. -/
theorem portFault_lucky {allocated : List UInt16} (hfew : allocated.length < 255) {e : ConfigError}
    (h : PortFault (luckyChance target) existing options protocol allocated e) :
    e.conflict = some .protocols := by
  cases h with
  | secret h => cases h
  | taken _ _ h => exact h
  | held _ h => cases h
  | drawn _ h => exact absurd h (drawPort_lucky_ok hfew)

/-- Once a port is drawn, the target is given away, unless a fixed port was in its place. -/
theorem Allots.lucky_target (hmin : minProtocolPort ≤ target) {passed given}
    (h : Allots (luckyChance target) existing options passed given)
    (hfree : ∀ earlier ∈ passed, fixedPort existing options earlier ≠ some target)
    (hmem : protocol ∈ passed) (hdrawn : Drawn existing options protocol) :
    target ∈ given.map Prod.snd := by
  induction h with
  | nil => cases hmem
  | disabled hdisabled _ ih =>
    cases hmem with
    | head => exact absurd hdrawn.1 hdisabled
    | tail _ hmem => exact ih (fun _ he => hfree _ (List.mem_cons_of_mem _ he)) hmem
  | fixed hfixed _ _ ih =>
    cases hmem with
    | head =>
      rw [drawn_fixedPort hdrawn] at hfixed
      cases hfixed
    | tail _ hmem =>
      exact List.mem_cons_of_mem _ (ih (fun _ he => hfree _ (List.mem_cons_of_mem _ he)) hmem)
  | @drawn passed given other port _ hport _ ih =>
    by_cases htaken : target ∈ given.map Prod.snd
    · exact List.mem_cons_of_mem _ htaken
    · rw [drawPort_target hmin htaken] at hport
      cases hport
      exact List.mem_cons_self

theorem before_split {a b : ManagedProtocol} (h : Before a b) :
    ∃ pre passed, protocolOrder.reverse = pre ++ b :: passed ∧ a ∈ passed := by
  cases b with
  | vlessReality =>
    refine absurd h ?_
    cases a <;> decide
  | vmessWebsocket =>
    refine ⟨[.anytls, .tuic, .hysteria2], [.vlessReality], rfl, ?_⟩
    revert h
    cases a <;> decide
  | hysteria2 =>
    refine ⟨[.anytls, .tuic], [.vmessWebsocket, .vlessReality], rfl, ?_⟩
    revert h
    cases a <;> decide
  | tuic =>
    refine ⟨[.anytls], [.hysteria2, .vmessWebsocket, .vlessReality], rfl, ?_⟩
    revert h
    cases a <;> decide
  | anytls =>
    refine ⟨[], [.tuic, .hysteria2, .vmessWebsocket, .vlessReality], rfl, ?_⟩
    revert h
    cases a <;> decide

end

/-! ## Exposed edits -/

section
variable {lib : Libraries} {chance : Chance} {existing : DeploymentConfig}
  {options : DeploymentOptions} {target : UInt16} {protocol : ManagedProtocol}

/-- Some outcome of the random source fails the edit with a conflict that is
not between fixed ports. -/
def Sunk (lib : Libraries) (existing : DeploymentConfig) (options : DeploymentOptions) : Prop :=
  ∃ chance e kind, applyOptions lib chance (some existing) options = .error e ∧
    e.conflict = some kind ∧ ¬ FixedConflict existing options kind

theorem applyOptions_build_error (hrequested : validateRequestedPorts options.enabledProtocols
      options.ports [] protocolOrder = .ok ()) {e : ConfigError}
    (h : chance.buildCredentials (some existing) options = .error e) :
    applyOptions lib chance (some existing) options = .error e := by
  unfold applyOptions
  rw [hrequested, h]
  rfl

theorem applyOptions_validate_error (hrequested : validateRequestedPorts options.enabledProtocols
      options.ports [] protocolOrder = .ok ()) {credentials : ProtocolCredentials} {e : ConfigError}
    (hbuild : chance.buildCredentials (some existing) options = .ok credentials)
    (h : validate lib (rebuilt (some existing) options existing.subscriptionCredential
      credentials) = .error e) :
    applyOptions lib chance (some existing) options = .error e := by
  unfold applyOptions
  rw [hrequested, hbuild]
  simp only [Chance.defaultCredential, bind, Except.bind, h]

/-- The lucky draws sink the edit in the allocation, unless all ports are given. -/
theorem sunk_or_built (hrequested : validateRequestedPorts options.enabledProtocols
      options.ports [] protocolOrder = .ok ())
    (hapart : ¬ FixedConflict existing options .protocols) (target : UInt16) :
    Sunk lib existing options ∨ ∃ credentials,
      (luckyChance target).buildCredentials (some existing) options = .ok credentials := by
  cases hbuild : (luckyChance target).buildCredentials (some existing) options with
  | ok credentials => exact Or.inr ⟨credentials, rfl⟩
  | error e =>
    obtain ⟨passed, protocol, given, hlength, -, hallots, hfault⟩ := buildCredentials_error hbuild
    have hfew := hallots.length_le
    have hkind := portFault_lucky (by rw [List.length_map]; omega) hfault
    exact Or.inl ⟨luckyChance target, e, .protocols, applyOptions_build_error hrequested hbuild,
      hkind, hapart⟩

theorem sunk_by_later (hprotocols : validateProtocols lib existing = .ok ())
    (hrequested : validateRequestedPorts options.enabledProtocols
      options.ports [] protocolOrder = .ok ())
    (hapart : ¬ FixedConflict existing options .protocols) (hdrawn : Drawn existing options protocol)
    {later : ManagedProtocol} (hbefore : Before protocol later)
    (hfixed : fixedPort existing options later = some target) : Sunk lib existing options := by
  have hmin := minProtocolPort_le_fixedPort hprotocols hrequested hfixed
  rcases @sunk_or_built lib _ _ hrequested hapart target with hsunk | ⟨credentials, hbuild⟩
  · exact hsunk
  obtain ⟨pre, passed, horder, hpassed⟩ := before_split hbefore
  have hrun := @buildCredentials_allots _ _ _ _ existing.subscriptionCredential hbuild
  rw [horder] at hrun
  obtain ⟨given, hrun⟩ := hrun.split
  have hlater : later ∉ passed := by
    have hnodup : protocolOrder.reverse.Nodup := by decide
    rw [horder] at hnodup
    exact (List.nodup_cons.mp (List.nodup_append.mp hnodup).2.1).1
  cases hrun with
  | disabled hdisabled =>
    rw [fixedPort, if_neg hdisabled] at hfixed
    cases hfixed
  | drawn hlaterDrawn =>
    rw [drawn_fixedPort hlaterDrawn] at hfixed
    cases hfixed
  | fixed hport hnew hrun =>
    rw [hfixed] at hport
    cases hport
    refine absurd (hrun.lucky_target hmin ?_ hpassed hdrawn) hnew
    intro earlier hearlier hc
    exact hapart ⟨earlier, later, target, fun hsame => hlater (hsame ▸ hearlier), hc, hfixed⟩

/-- Once all ports are given, a free target has gone to a drawn protocol. -/
theorem target_drawn (hmin : minProtocolPort ≤ target) {credentials : ProtocolCredentials}
    {credential : String}
    (hbuild : (luckyChance target).buildCredentials (some existing) options = .ok credentials)
    (hassigned : Assigned existing options
      (rebuilt (some existing) options credential credentials))
    (hfree : ∀ other, fixedPort existing options other ≠ some target)
    (hdrawn : Drawn existing options protocol) :
    ∃ other, Drawn existing options other ∧
      (rebuilt (some existing) options credential credentials).protocolListenerPort other =
        some target := by
  have hrun := @buildCredentials_allots _ _ _ _ credential hbuild
  have hmem := hrun.lucky_target hmin (fun other _ => hfree other) (mem_protocolOrder protocol)
    hdrawn
  obtain ⟨⟨other, _⟩, hother, rfl⟩ := List.mem_map.mp hmem
  have hport := (mem_givenBy.mp hother).2
  rcases hassigned.source other _ hport with hfixed | ⟨hdrawn, -⟩
  · exact absurd hfixed (hfree other)
  · exact ⟨other, hdrawn, hport⟩

theorem keptHopping_some {hop : PortHopping} (h : keptHopping existing options = some hop) :
    existing.hysteria2PortHopping = some hop ∧ .hysteria2 ∈ options.enabledProtocols := by
  unfold keptHopping at h
  obtain ⟨hhop, hmem⟩ := Option.filter_eq_some_iff.mp h
  exact ⟨hhop, of_decide_eq_true hmem⟩

/-- What an accepted hopping range guarantees of its deployment and its bounds. -/
theorem portHopping_range (h : PortHopping.validate existing = .ok ()) {hop : PortHopping}
    (hhop : existing.hysteria2PortHopping = some hop) :
    existing.hysteria2 ≠ none ∧ minProtocolPort ≤ hop.start ∧ hop.start < hop.«end» ∧
      ¬ (hop.start < 10000 ∨ hop.«end» ≤ hop.start ∨
        ¬ (5 ≤ hop.intervalSeconds ∧ hop.intervalSeconds ≤ 3600)) := by
  simp only [PortHopping.validate, hhop, check_ok, rejectIf_ok] at h
  obtain ⟨henabled, hrange, -⟩ := h
  refine ⟨fun hc => henabled (Or.inr hc), ?_, ?_, hrange⟩
  · exact UInt16.not_lt.mp fun hc => hrange (Or.inl hc)
  · exact UInt16.not_le.mp fun hc => hrange (Or.inr (Or.inl hc))

/-- A hopping range has a port that no protocol but Hysteria2 is fixed to, and
that Hysteria2 is not fixed to either. -/
theorem free_in_range (h : PortHopping.validate existing = .ok ()) {hop : PortHopping}
    (hkept : keptHopping existing options = some hop)
    (hfree : ¬ FixedConflict existing options .hopping) :
    ∃ target, hop.Contains target ∧ minProtocolPort ≤ target ∧
      ∀ other, fixedPort existing options other ≠ some target := by
  obtain ⟨-, hmin, hlt, -⟩ := portHopping_range h (keptHopping_some hkept).1
  have hother : ∀ target, hop.Contains target → ∀ other, other ≠ .hysteria2 →
      fixedPort existing options other ≠ some target := by
    intro target hcontains other hne hfixed
    exact hfree ⟨hop, hkept, .managed other, target, by simpa using hne, hfixed, hcontains⟩
  by_cases hstart : fixedPort existing options .hysteria2 = some hop.start
  · have hend : hop.Contains hop.«end» := ⟨UInt16.le_of_lt hlt, UInt16.le_refl _⟩
    refine ⟨hop.«end», hend, UInt16.le_trans hmin hend.1, ?_⟩
    intro other
    by_cases hne : other = .hysteria2
    · subst hne
      rw [hstart, ne_eq, Option.some.injEq]
      intro hc
      exact UInt16.ne_of_lt hlt hc
    · exact hother _ hend other hne
  · have hin : hop.Contains hop.start := ⟨UInt16.le_refl _, UInt16.le_of_lt hlt⟩
    refine ⟨hop.start, hin, hmin, ?_⟩
    intro other
    by_cases hne : other = .hysteria2
    · exact hne ▸ hstart
    · exact hother _ hin other hne

theorem mem_otherPorts {config : DeploymentConfig} {other : ManagedProtocol}
    (hne : other ≠ .hysteria2) : config.protocolListenerPort other ∈ PortHopping.otherPorts config := by
  cases other with
  | hysteria2 => exact absurd rfl hne
  | _ => simp [PortHopping.otherPorts, DeploymentConfig.protocolListenerPort]

theorem sunk_by_hopping (haccepted : Accepted lib existing)
    (hrequested : validateRequestedPorts options.enabledProtocols
      options.ports [] protocolOrder = .ok ())
    (hapart : ¬ FixedConflict existing options .protocols) (hdrawn : Drawn existing options protocol)
    (hkept : keptHopping existing options ≠ none)
    (hhopping : ¬ FixedConflict existing options .hopping) : Sunk lib existing options := by
  obtain ⟨hvalid, -, hprotocols, -⟩ := accepted_iff.mp haccepted
  obtain ⟨hop, hkept⟩ := Option.ne_none_iff_exists'.mp hkept
  obtain ⟨target, hcontains, hmin, hfree⟩ := free_in_range hvalid hkept hhopping
  rcases @sunk_or_built lib _ _ hrequested hapart target with hsunk | ⟨credentials, hbuild⟩
  · exact hsunk
  have hassigned := @assigned_of_buildCredentials lib _ existing options hprotocols hrequested
    credentials existing.subscriptionCredential hbuild
  obtain ⟨other, hother, hport⟩ := target_drawn hmin hbuild hassigned hfree hdrawn
  obtain ⟨hexists, henabled⟩ := keptHopping_some hkept
  obtain ⟨hcredentials, -, -, hrange⟩ := portHopping_range hvalid hexists
  have hne : other ≠ .hysteria2 := by
    rintro rfl
    have hnone : existing.hysteria2Port = none := hother.2.1
    rw [DeploymentConfig.hysteria2Port, Option.map_eq_none_iff] at hnone
    exact hcredentials hnone
  refine ⟨luckyChance target, .invalidValue "跳跃范围不能覆盖其他协议、订阅或 API 监听端口", .hopping,
    applyOptions_validate_error hrequested hbuild ?_, by decide, hhopping⟩
  have hconfig : (rebuilt (some existing) options existing.subscriptionCredential
      credentials).hysteria2PortHopping = some hop := hkept
  have hsome := (hassigned.exact .hysteria2).mpr henabled
  have hpresent : ¬ (.hysteria2 ∉ (rebuilt (some existing) options existing.subscriptionCredential
      credentials).enabledProtocols ∨ (rebuilt (some existing) options
      existing.subscriptionCredential credentials).hysteria2 = none) := by
    rintro (hc | hc)
    · exact hc henabled
    · rw [DeploymentConfig.hasCredentials, hc] at hsome
      cases hsome
  have hany : (((PortHopping.otherPorts (rebuilt (some existing) options
      existing.subscriptionCredential credentials)).filterMap id).any
      fun port => decide (hop.Contains port)) := by
    refine List.any_eq_true.mpr ⟨target, ?_, decide_eq_true hcontains⟩
    exact List.mem_filterMap.mpr ⟨some target, hport ▸ mem_otherPorts hne, rfl⟩
  refine bind_error.mpr (Or.inl ?_)
  rw [PortHopping.validate, hconfig]
  dsimp only
  rw [show rejectIf _ "端口跳跃需要先启用 Hysteria2" = .ok () from rejectIf_ok.mpr hpresent,
    show rejectIf _ "跳跃范围必须为 10000–65535 内至少两个端口，间隔为 5–3600 秒" = .ok () from
      rejectIf_ok.mpr hrange]
  exact rejectIf_error.mpr ⟨hany, rfl⟩

theorem not_le_1024 {port : UInt16} (h : minProtocolPort ≤ port) : ¬ port ≤ 1024 := by
  intro hc
  exact absurd (UInt16.le_trans h hc) (by decide)

theorem validateSubscriptionMode_http {config : DeploymentConfig} {port : UInt16}
    (hmode : config.subscriptionMode = .ipFallback) (hlisten : config.subscriptionListenPort = none)
    (hip : lib.isIpAddr config.subscriptionHost) (hport : config.httpPort = some port)
    (hmin : minProtocolPort ≤ port) (hmem : port ∈ config.protocolListenerPorts) :
    validateSubscriptionMode lib config = .error (.invalidValue
      "IP fallback HTTP port must not conflict with a Managed protocol port") := by
  simp [validateSubscriptionMode, hmode, hlisten, hip, hport, hmem, rejectIf, not_le_1024 hmin,
    bind, Except.bind]

theorem validateSubscriptionMode_subscription {config : DeploymentConfig} {port : UInt16}
    (hmode : config.subscriptionMode = .externalProxy)
    (hip : ¬ lib.isIpAddr config.subscriptionHost) (hhttp : config.httpPort = none)
    (hport : config.subscriptionListenPort = some port) (hmin : minProtocolPort ≤ port)
    (hmem : port ∈ config.protocolListenerPorts) :
    validateSubscriptionMode lib config = .error (.invalidValue
      "external reverse-proxy listener port must not conflict with a Managed protocol port") := by
  simp [validateSubscriptionMode, hmode, hhttp, hip, hport, hmem, rejectIf, not_le_1024 hmin,
    bind, Except.bind]

theorem sunk_by_listener (hprotocols : validateProtocols lib existing = .ok ())
    (hrequested : validateRequestedPorts options.enabledProtocols
      options.ports [] protocolOrder = .ok ())
    (hapart : ¬ FixedConflict existing options .protocols) (hdrawn : Drawn existing options protocol)
    (hkept : keptHopping existing options = none) (hother : OtherwiseValid lib existing options)
    (hlistener : ListenerExposed lib existing options) : Sunk lib existing options := by
  -- Whatever is drawn, the edit comes as far as the validator of the listener.
  have hreach : ∀ target, minProtocolPort ≤ target →
      (∀ other, fixedPort existing options other ≠ some target) →
      Sunk lib existing options ∨ ∃ credentials,
        let config := rebuilt (some existing) options existing.subscriptionCredential credentials
        target ∈ config.protocolListenerPorts ∧
        ∀ e, validateSubscriptionMode lib config = .error e →
          applyOptions lib (luckyChance target) (some existing) options = .error e := by
    intro target hmin hfree
    rcases @sunk_or_built lib _ _ hrequested hapart target with hsunk | ⟨credentials, hbuild⟩
    · exact Or.inl hsunk
    have hassigned := @assigned_of_buildCredentials lib _ existing options hprotocols hrequested
      credentials existing.subscriptionCredential hbuild
    obtain ⟨other, -, hport⟩ := target_drawn hmin hbuild hassigned hfree hdrawn
    refine Or.inr ⟨credentials, DeploymentConfig.mem_protocolListenerPorts.mpr ⟨other, hport⟩, ?_⟩
    intro e he
    apply applyOptions_validate_error hrequested hbuild
    obtain ⟨hidentity, hvalid, hsecret⟩ := (otherwiseValid_iff hassigned).mp hother
    have hnohop : (rebuilt (some existing) options existing.subscriptionCredential
        credentials).hysteria2PortHopping = none := hkept
    have hhop : PortHopping.validate (rebuilt (some existing) options
        existing.subscriptionCredential credentials) = .ok () := by
      rw [PortHopping.validate, hnohop]
    unfold validate
    rw [hhop, hidentity, hvalid, hsecret]
    exact he
  unfold ListenerExposed at hlistener
  cases hmode : options.subscriptionMode with
  | direct =>
    rw [hmode] at hlistener
    exact hlistener.elim
  | ipFallback =>
    rw [hmode] at hlistener
    obtain ⟨hlisten, hip, port, hport, hmin, hfree⟩ := hlistener
    rcases hreach port hmin hfree with hsunk | ⟨credentials, hmem, hrun⟩
    · exact hsunk
    refine ⟨luckyChance port, .invalidValue
      "IP fallback HTTP port must not conflict with a Managed protocol port", .http, hrun _ ?_,
      by decide, ?_⟩
    · exact validateSubscriptionMode_http hmode hlisten hip hport hmin hmem
    · rintro ⟨other, p, hp, hfixed⟩
      rw [hport] at hp
      cases hp
      exact hfree other hfixed
  | externalProxy =>
    rw [hmode] at hlistener
    obtain ⟨hip, hhttp, port, hport, hmin, hfree⟩ := hlistener
    rcases hreach port hmin hfree with hsunk | ⟨credentials, hmem, hrun⟩
    · exact hsunk
    refine ⟨luckyChance port, .invalidValue
      "external reverse-proxy listener port must not conflict with a Managed protocol port",
      .subscription, hrun _ ?_, by decide, ?_⟩
    · exact validateSubscriptionMode_subscription hmode hip hhttp hport hmin hmem
    · rintro ⟨other, p, hp, hfixed⟩
      rw [hport] at hp
      cases hp
      exact hfree other hfixed

theorem sunk_of_exposed (haccepted : Accepted lib existing) (h : Exposed lib existing options) :
    Sunk lib existing options := by
  have hprotocols := (accepted_iff.mp haccepted).2.2.1
  obtain ⟨protocol, hdrawn, hlater | hhopping | hlistener⟩ := h.target
  · obtain ⟨later, hbefore, hfixed⟩ := hlater
    obtain ⟨port, hport⟩ := Option.ne_none_iff_exists'.mp hfixed
    exact sunk_by_later hprotocols h.requested h.apart hdrawn hbefore hport
  · exact sunk_by_hopping haccepted h.requested h.apart hdrawn hhopping.1 hhopping.2
  · exact sunk_by_listener hprotocols h.requested h.apart hdrawn hlistener.1 hlistener.2.1
      hlistener.2.2

end

/-- Every port conflict of an edit, over all outcomes of the random source and
of the probes, is one between fixed ports exactly when the edit is not exposed. -/
theorem draws_harmless_iff {lib : Libraries} {existing : DeploymentConfig}
    (h : Accepted lib existing) (options : DeploymentOptions) :
    (∀ chance e kind, applyOptions lib chance (some existing) options = .error e →
      e.conflict = some kind → FixedConflict existing options kind) ↔
      ¬ Exposed lib existing options := by
  constructor
  · intro hfixed hexposed
    obtain ⟨chance, e, kind, hrun, hkind, hnot⟩ := sunk_of_exposed h hexposed
    exact hnot (hfixed chance e kind hrun hkind)
  · intro hsafe chance e kind hrun hkind
    exact fixedConflict_of_not_exposed h hsafe hkind hrun

/-- The sample deployment hopping over ports above its own. -/
def hoppingConfig : DeploymentConfig :=
  { sampleConfig with
    hysteria2PortHopping := some { start := 30000, «end» := 40000, intervalSeconds := 30 } }

theorem hoppingConfig_accepted : Accepted sampleLibraries hoppingConfig := by
  unfold Accepted
  decide +kernel

/-- The options of `hoppingConfig`, with TUIC newly enabled. -/
def tuicOptions : DeploymentOptions :=
  { hoppingConfig.options with enabledProtocols := [.hysteria2, .tuic] }

theorem tuicOptions_apart : ¬ FixedConflict hoppingConfig tuicOptions .hopping := by
  rintro ⟨hop, hkept, a, port, ha, hport, hcontains⟩
  cases hkept
  revert hport
  cases a with
  | managed protocol =>
    cases protocol with
    | hysteria2 => exact absurd rfl ha
    | _ => exact fun h => by cases h
  | _ => exact fun h => by cases h

/-- A port drawn inside the hopping range fails an edit whose fixed ports are apart. -/
theorem draw_meets_hopping : Accepted sampleLibraries hoppingConfig ∧
    applyOptions sampleLibraries (luckyChance 30005) (some hoppingConfig) tuicOptions =
      .error (.invalidValue "跳跃范围不能覆盖其他协议、订阅或 API 监听端口") ∧
    ¬ FixedConflict hoppingConfig tuicOptions .hopping := by
  refine ⟨hoppingConfig_accepted, ?_, tuicOptions_apart⟩
  decide +kernel

/-- The options of the sample deployment, with TUIC newly enabled. -/
def directOptions : DeploymentOptions :=
  { sampleConfig.options with enabledProtocols := [.hysteria2, .tuic] }

/-- The one port that is drawn comes after the fixed one, and nothing hops. -/
theorem directOptions_unexposed : ¬ Exposed sampleLibraries sampleConfig directOptions := by
  rintro ⟨-, -, drawn, hdrawn, hlater | hhopping | ⟨-, -, hlistener⟩⟩
  · obtain ⟨later, hbefore, hfixed⟩ := hlater
    obtain ⟨hon, hnone, -⟩ := hdrawn
    revert hon hnone hbefore hfixed
    cases drawn <;> cases later <;> decide
  · exact hhopping.1 rfl
  · exact hlistener

theorem draws_harmless_iff_direct : Accepted sampleLibraries sampleConfig ∧
    ∀ chance e kind,
      applyOptions sampleLibraries chance (some sampleConfig) directOptions = .error e →
        e.conflict = some kind → FixedConflict sampleConfig directOptions kind :=
  ⟨sampleConfig_accepted,
    (draws_harmless_iff sampleConfig_accepted directOptions).mpr directOptions_unexposed⟩

end Sbctl
