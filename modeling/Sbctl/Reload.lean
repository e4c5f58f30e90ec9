import Sbctl.ModeSwitch
import Mathlib.Data.List.Induction

/-!
# Reloading the certificate under a running listener

Once a second a checker stamps the pinned directory, reads the pair when the
stamp is new and stamps again. Other processes publish generations of the
directory at any moment; only which one is in place at each read matters.

* `certificate_reload`: what is served is what the loop holds; it is never expired,
  belongs to its stamp, survives a failed check and is replaced once the failure has
  aged.
-/

namespace Sbctl

/-- The material of a listener: the pair its TLS configuration is built from. -/
structure TlsMaterial where
  fullchain : Bytes
  privkey : Bytes
  notAfter : Int
  deriving DecidableEq

/-- A clock reading is in seconds since 1970, before it negative. -/
def TlsMaterial.isCurrentAt (material : TlsMaterial) (now : Int) : Bool :=
  0 ≤ now && now ≤ Machine.maxI64 && now < material.notAfter

def tlsMaterialForAccept (material : Option TlsMaterial) (now : Int) : Option TlsMaterial :=
  material.filter (·.isCurrentAt now)

structure PinnedMaterialStamp where
  generation : Option (Nat × Nat)
  fullchain : Option Nat
  privkey : Option Nat
  deriving DecidableEq

/-- In nanoseconds of the monotonic clock, as its instants are. -/
def certificateReloadFailureBackoff : Nat := 30 * 1000000000

structure CertificateReloadBackoff where
  failed : Option (PinnedMaterialStamp × Nat)
  deriving DecidableEq

def CertificateReloadBackoff.shouldRetry (backoff : CertificateReloadBackoff)
    (stamp : PinnedMaterialStamp) (now : Nat) : Bool :=
  match backoff.failed with
  | none => true
  | some (failedStamp, failedAt) =>
    failedStamp != stamp || decide (certificateReloadFailureBackoff ≤ now - failedAt)

/-- The generations of the pinned directory in their order, and what the
libraries make of a pair. -/
structure ReloadSurroundings where
  config : DeploymentConfig
  directory : Nat → Option Directory
  identity : Nat → Option (Nat × Nat)
  fullchainModified : Nat → Option Nat
  privkeyModified : Nat → Option Nat
  /-- Checks certificate and key at an instant. -/
  validateMaterial : Int → Bytes → Bytes → Except CertificateError Unit
  serverConfig : Bytes → Bytes → Except CertificateError Unit
  /-- When the first certificate of a chain ends. -/
  notAfter : Bytes → Int

/-- What one tick meets: the generation in place at each of its reads, the
clock readings, and the faults of the host. -/
structure Tick where
  directoryBefore : Nat
  fullchainBefore : Nat
  privkeyBefore : Nat
  read : Nat
  directoryAfter : Nat
  fullchainAfter : Nat
  privkeyAfter : Nat
  ordered : directoryBefore ≤ fullchainBefore ∧ fullchainBefore ≤ privkeyBefore ∧
    privkeyBefore ≤ read ∧ read ≤ directoryAfter ∧ directoryAfter ≤ fullchainAfter ∧
    fullchainAfter ≤ privkeyAfter
  checkedAt : Nat
  failedAt : Nat
  instants : checkedAt ≤ failedAt
  loadedAt : Int
  failureReadAt : Int
  expiryReadAt : Int
  fault : Option String
  panicked : Bool

/-- A publication falls into one of the two stamps. -/
def Tick.Torn (t : Tick) : Prop :=
  t.directoryBefore < t.privkeyBefore ∨ t.directoryAfter < t.privkeyAfter

inductive CertificateCheck where
  | unchanged
  | backoff
  | changedDuringRead
  | loaded (stamp : PinnedMaterialStamp) (material : TlsMaterial)
  | failed (stamp : PinnedMaterialStamp) (error : CertificateError)

/-- The state of the loop, with the material it has published to the listener. -/
structure Checker where
  active : Option TlsMaterial
  activeStamp : Option PinnedMaterialStamp
  backoff : CertificateReloadBackoff
  published : Option TlsMaterial

def Checker.initial : Checker := ⟨none, none, ⟨none⟩, none⟩

namespace ReloadSurroundings

variable (s : ReloadSurroundings)

/-- The three reads of a stamp, each of the generation then in place. -/
def pinnedMaterialStamp (directory fullchain privkey : Nat) : PinnedMaterialStamp :=
  ⟨s.identity directory, s.fullchainModified fullchain, s.privkeyModified privkey⟩

/-- The stamp of a generation. -/
def stampOf (generation : Nat) : PinnedMaterialStamp :=
  s.pinnedMaterialStamp generation generation generation

def before (t : Tick) : PinnedMaterialStamp :=
  s.pinnedMaterialStamp t.directoryBefore t.fullchainBefore t.privkeyBefore

def after (t : Tick) : PinnedMaterialStamp :=
  s.pinnedMaterialStamp t.directoryAfter t.fullchainAfter t.privkeyAfter

/-- The pair as `load_pinned` reads it. -/
def readPinned (t : Tick) : Except String (Bytes × Bytes) :=
  match t.fault with
  | some message => .error message
  | none => Directory.readPair (s.directory t.read) "fullchain.pem" "privkey.pem"

def materialOf (pair : Bytes × Bytes) : TlsMaterial := ⟨pair.1, pair.2, s.notAfter pair.1⟩

def loadTlsConfig (t : Tick) : Except CertificateError TlsMaterial :=
  if s.config.subscriptionMode ≠ .direct then .error .notDirect
  else
    match s.readPinned t with
    | .error detail => .error (.unreadable s.config.subscriptionHost detail)
    | .ok pair => do
      s.validateMaterial t.loadedAt pair.1 pair.2
      s.serverConfig pair.1 pair.2
      return s.materialOf pair

/-- One check off the loop. There is no outcome when the check panics. -/
def check (t : Tick) (c : Checker) : Option CertificateCheck :=
  if t.panicked then none
  else if c.activeStamp = some (s.before t) then some .unchanged
  else if ¬ c.backoff.shouldRetry (s.before t) t.checkedAt then some .backoff
  else if s.before t ≠ s.after t then some .changedDuringRead
  else
    match s.loadTlsConfig t with
    | .ok material => some (.loaded (s.before t) material)
    | .error error => some (.failed (s.before t) error)

end ReloadSurroundings

namespace Checker

def dropExpired (now : Int) (c : Checker) : Checker :=
  if c.active.any fun material => !material.isCurrentAt now then
    { c with active := none, activeStamp := none, published := none }
  else c

def apply (t : Tick) (c : Checker) : Option CertificateCheck → Checker
  | some (.loaded stamp material) => ⟨some material, some stamp, ⟨none⟩, some material⟩
  | some (.failed stamp _) =>
    { c with backoff := ⟨some (stamp, t.failedAt)⟩ }.dropExpired t.failureReadAt
  | some .unchanged | some .backoff | some .changedDuringRead => c
  | none => c

end Checker

namespace ReloadSurroundings

variable (s : ReloadSurroundings)

def tick (c : Checker) (t : Tick) : Checker :=
  (c.apply t (s.check t c)).dropExpired t.expiryReadAt

def run (ticks : List Tick) : Checker := ticks.foldl s.tick Checker.initial

/-- A stamp identifies a generation. -/
def StampIdentifies : Prop := ∀ a b, s.stampOf a = s.stampOf b → a = b

/-- A stamp that mixes generations, as a publication falls between its three reads,
is not taken for that of another: met again after the read, it is that of what was
read. -/
def Unmistaken (t : Tick) : Prop :=
  t.Torn → s.before t = s.after t → s.before t = s.stampOf t.read

/-- The material is the one in the generation. -/
def MaterialOf (generation : Nat) (material : TlsMaterial) : Prop :=
  ∃ pair, Directory.readPair (s.directory generation) "fullchain.pem" "privkey.pem" = .ok pair ∧
    material = s.materialOf pair

end ReloadSurroundings

/-- Neither the directory nor the monotonic clock goes back between two ticks. -/
def Tick.Follows (a b : Tick) : Prop :=
  a.privkeyAfter ≤ b.directoryBefore ∧ a.failedAt ≤ b.checkedAt

/-! ## One tick -/

namespace ReloadSurroundings

variable {s : ReloadSurroundings} {t : Tick} {c : Checker}

theorem dropExpired_cases (now : Int) (c : Checker) :
    c.dropExpired now = c ∧ (∀ material, c.active = some material → material.isCurrentAt now) ∨
      ∃ material, c.active = some material ∧ material.isCurrentAt now = false ∧
        c.dropExpired now = { c with active := none, activeStamp := none, published := none } := by
  unfold Checker.dropExpired
  cases hactive : c.active with
  | none => exact Or.inl ⟨rfl, fun _ h => by cases h⟩
  | some material =>
    cases hcurrent : material.isCurrentAt now with
    | true =>
      refine Or.inl ⟨?_, ?_⟩
      · simp [hcurrent]
      · intro other h
        cases h
        exact hcurrent
    | false => exact Or.inr ⟨material, rfl, hcurrent, by simp [hcurrent]⟩

theorem loadTlsConfig_ok {material : TlsMaterial} (h : s.loadTlsConfig t = .ok material) :
    s.MaterialOf t.read material := by
  unfold loadTlsConfig at h
  split at h
  · cases h
  · split at h
    · cases h
    · rename_i pair hpair
      obtain ⟨_, -, h⟩ := bind_ok.mp h
      obtain ⟨_, -, h⟩ := bind_ok.mp h
      cases h
      unfold readPinned at hpair
      split at hpair
      · cases hpair
      · exact ⟨pair, hpair, rfl⟩

/-- Equal stamps around the read are that of the generation that was read. -/
theorem before_eq (hid : s.StampIdentifies) (hmixed : s.Unmistaken t)
    (h : s.before t = s.after t) : s.before t = s.stampOf t.read := by
  by_cases htorn : t.Torn
  · exact hmixed htorn h
  · obtain ⟨h₁, h₂, h₃, h₄, h₅, h₆⟩ := t.ordered
    unfold Tick.Torn at htorn
    have hbefore : s.before t = s.stampOf t.directoryBefore := by
      have hf : t.fullchainBefore = t.directoryBefore := by omega
      have hp : t.privkeyBefore = t.directoryBefore := by omega
      rw [before, hf, hp]
      rfl
    have hafter : s.after t = s.stampOf t.directoryAfter := by
      have hf : t.fullchainAfter = t.directoryAfter := by omega
      have hp : t.privkeyAfter = t.directoryAfter := by omega
      rw [after, hf, hp]
      rfl
    have hends : t.directoryBefore = t.directoryAfter :=
      hid _ _ (hbefore.symm.trans (h.trans hafter))
    have hread : t.directoryBefore = t.read := by omega
    rw [hbefore, hread]

/-- Where one part of a stamp differs between any two generations, no stamp is
mistaken, whatever the other two repeat. -/
theorem unmistaken_of_part
    (h : Function.Injective s.identity ∨ Function.Injective s.fullchainModified ∨
      Function.Injective s.privkeyModified) (t : Tick) : s.Unmistaken t := by
  intro _ hsame
  obtain ⟨h₁, h₂, h₃, h₄, h₅, h₆⟩ := t.ordered
  simp only [before, after, pinnedMaterialStamp, PinnedMaterialStamp.mk.injEq] at hsame
  obtain ⟨hidentity, hfullchain, hprivkey⟩ := hsame
  have hread : s.identity t.directoryBefore = s.identity t.read ∧
      s.fullchainModified t.fullchainBefore = s.fullchainModified t.read ∧
      s.privkeyModified t.privkeyBefore = s.privkeyModified t.read := by
    obtain hinjective | hinjective | hinjective := h
    · have hends := hinjective hidentity
      have hd : t.directoryBefore = t.read := by omega
      have hf : t.fullchainBefore = t.read := by omega
      have hp : t.privkeyBefore = t.read := by omega
      rw [hd, hf, hp]
      exact ⟨rfl, rfl, rfl⟩
    · have hends := hinjective hfullchain
      have hf : t.fullchainBefore = t.read := by omega
      have hp : t.privkeyBefore = t.read := by omega
      have hd : t.directoryAfter = t.read := by omega
      rw [hidentity, hd, hf, hp]
      exact ⟨rfl, rfl, rfl⟩
    · have hends := hinjective hprivkey
      have hp : t.privkeyBefore = t.read := by omega
      have hd : t.directoryAfter = t.read := by omega
      have hf : t.fullchainAfter = t.read := by omega
      rw [hidentity, hfullchain, hd, hf, hp]
      exact ⟨rfl, rfl, rfl⟩
  obtain ⟨hd, hf, hp⟩ := hread
  rw [before, stampOf, pinnedMaterialStamp, pinnedMaterialStamp, hd, hf, hp]

/-- The loop's stamp is that of the material it holds. -/
def Sound (s : ReloadSurroundings) (c : Checker) : Prop :=
  ∀ stamp, c.activeStamp = some stamp →
    ∃ generation material, s.stampOf generation = stamp ∧ s.MaterialOf generation material ∧
      c.active = some material

theorem Sound.dropExpired (h : s.Sound c) (now : Int) : s.Sound (c.dropExpired now) := by
  obtain ⟨hsame, -⟩ | ⟨_, -, -, hdrop⟩ := dropExpired_cases now c
  · rw [hsame]
    exact h
  · rw [hdrop]
    intro _ hs
    cases hs

theorem published_dropExpired (h : c.published = c.active) (now : Int) :
    (c.dropExpired now).published = (c.dropExpired now).active := by
  obtain ⟨hsame, -⟩ | ⟨_, -, -, hdrop⟩ := dropExpired_cases now c
  · rw [hsame]
    exact h
  · rw [hdrop]

/-- The listener is handed what the loop holds. -/
theorem published_tick (h : c.published = c.active) (t : Tick) :
    (s.tick c t).published = (s.tick c t).active := by
  unfold tick
  apply published_dropExpired
  cases s.check t c with
  | none => exact h
  | some check =>
    cases check with
    | loaded => rfl
    | failed stamp error =>
      have hfailed : ({ c with backoff := ⟨some (stamp, t.failedAt)⟩ } : Checker).published =
          ({ c with backoff := ⟨some (stamp, t.failedAt)⟩ } : Checker).active := h
      exact published_dropExpired hfailed t.failureReadAt
    | _ => exact h

theorem check_loaded {stamp : PinnedMaterialStamp} {material : TlsMaterial}
    (h : s.check t c = some (.loaded stamp material)) :
    stamp = s.before t ∧ s.before t = s.after t ∧ s.loadTlsConfig t = .ok material := by
  unfold check at h
  split at h
  · cases h
  split at h
  · cases h
  split at h
  · cases h
  split at h
  · cases h
  · rename_i hsame
    split at h
    · rename_i hload
      cases h
      exact ⟨rfl, not_not.mp hsame, hload⟩
    · cases h

theorem sound_tick (hid : s.StampIdentifies) (hmixed : s.Unmistaken t) (h : s.Sound c) :
    s.Sound (s.tick c t) := by
  unfold tick
  apply Sound.dropExpired
  cases hcheck : s.check t c with
  | none => exact h
  | some check =>
    cases check with
    | unchanged => exact h
    | backoff => exact h
    | changedDuringRead => exact h
    | failed stamp error =>
      have hfailed : s.Sound { c with backoff := ⟨some (stamp, t.failedAt)⟩ } := h
      exact hfailed.dropExpired t.failureReadAt
    | loaded stamp material =>
      obtain ⟨hstamp, hsame, hload⟩ := check_loaded hcheck
      intro other hother
      cases hother
      exact ⟨t.read, material, (before_eq hid hmixed hsame).symm.trans hstamp.symm,
        loadTlsConfig_ok hload, rfl⟩

/-- A check that loads nothing keeps material that is current at the readings
of its tick. -/
theorem tick_keeps {material : TlsMaterial} (hactive : c.active = some material)
    (hfailure : ∀ stamp error, s.check t c = some (.failed stamp error) →
      material.isCurrentAt t.failureReadAt)
    (hexpiry : material.isCurrentAt t.expiryReadAt)
    (hnot : ∀ stamp other, s.check t c ≠ some (.loaded stamp other)) :
    (s.tick c t).active = some material ∧ (s.tick c t).activeStamp = c.activeStamp := by
  have hkeep : ∀ now (c' : Checker), material.isCurrentAt now → c'.active = some material →
      c'.dropExpired now = c' := by
    intro now c' hcurrent hc'
    rcases dropExpired_cases now c' with ⟨hsame, -⟩ | ⟨other, hother, hexpired, -⟩
    · exact hsame
    · rw [hc'] at hother
      cases hother
      rw [hcurrent] at hexpired
      cases hexpired
  have happly : (c.apply t (s.check t c)).active = some material ∧
      (c.apply t (s.check t c)).activeStamp = c.activeStamp := by
    cases hcheck : s.check t c with
    | none => exact ⟨hactive, rfl⟩
    | some check =>
      cases check with
      | loaded stamp other => exact absurd hcheck (hnot stamp other)
      | failed stamp error =>
        have hfailed := hkeep t.failureReadAt { c with backoff := ⟨some (stamp, t.failedAt)⟩ }
          (hfailure stamp error hcheck) hactive
        dsimp only [Checker.apply]
        rw [hfailed]
        exact ⟨hactive, rfl⟩
      | _ => exact ⟨hactive, rfl⟩
  unfold tick
  rw [hkeep t.expiryReadAt _ hexpiry happly.1]
  exact happly

/-! ## Whole runs -/

theorem sound_run (hid : s.StampIdentifies) {ticks : List Tick}
    (hmixed : ∀ t ∈ ticks, s.Unmistaken t) : s.Sound (s.run ticks) := by
  induction ticks using List.reverseRecOn with
  | nil =>
    intro _ hs
    cases hs
  | append_singleton ticks t ih =>
    rw [run, List.foldl_append]
    obtain ⟨hearlier, hlast⟩ := List.forall_mem_append.mp hmixed
    exact sound_tick hid (hlast t List.mem_cons_self) (ih hearlier)

theorem published_run (ticks : List Tick) : (s.run ticks).published = (s.run ticks).active := by
  induction ticks using List.reverseRecOn with
  | nil => rfl
  | append_singleton ticks t ih =>
    rw [run, List.foldl_append]
    exact published_tick ih t

theorem failed_dropExpired (now : Int) (c : Checker) :
    (c.dropExpired now).backoff = c.backoff := by
  rcases dropExpired_cases now c with ⟨hsame, -⟩ | ⟨_, -, -, hdrop⟩
  · rw [hsame]
  · rw [hdrop]

/-- A failure on record is one of before or that of this tick. -/
theorem failed_tick {stamp : PinnedMaterialStamp} {failedAt : Nat}
    (h : (s.tick c t).backoff.failed = some (stamp, failedAt)) :
    c.backoff.failed = some (stamp, failedAt) ∨ failedAt = t.failedAt := by
  unfold tick at h
  rw [failed_dropExpired] at h
  cases hcheck : s.check t c with
  | none =>
    rw [hcheck] at h
    exact Or.inl h
  | some check =>
    rw [hcheck] at h
    cases check with
    | loaded => cases h
    | failed =>
      unfold Checker.apply at h
      rw [failed_dropExpired] at h
      cases h
      exact Or.inr rfl
    | _ => exact Or.inl h

theorem failed_run {ticks : List Tick} {stamp : PinnedMaterialStamp} {failedAt : Nat}
    (h : (s.run ticks).backoff.failed = some (stamp, failedAt)) :
    ∃ t ∈ ticks, failedAt = t.failedAt := by
  induction ticks using List.reverseRecOn with
  | nil => cases h
  | append_singleton ticks t ih =>
    unfold run at h ih
    rw [List.foldl_append] at h
    rcases failed_tick h with h | h
    · obtain ⟨u, hu, hfailed⟩ := ih h
      exact ⟨u, List.mem_append_left _ hu, hfailed⟩
    · exact ⟨t, List.mem_append_right _ (List.mem_singleton.mpr rfl), h⟩

/-- A tick all of whose stamps are this one, that loads its material when it
comes to it and finds the material current. -/
structure Steady (s : ReloadSurroundings) (stamp : PinnedMaterialStamp) (t : Tick) : Prop where
  before : s.before t = stamp
  after : s.after t = stamp
  answered : t.panicked = false
  loads : ∃ material, s.loadTlsConfig t = .ok material
  current : ∀ material, s.MaterialOf t.read material → material.isCurrentAt t.expiryReadAt

variable {stamp : PinnedMaterialStamp}

/-- In a steady tick the stamp is already active, or a recent failure holds the
check back, or the material is loaded. -/
theorem steady_check (h : s.Steady stamp t) :
    c.activeStamp = some stamp ∧ s.check t c = some .unchanged ∨
      c.backoff.shouldRetry stamp t.checkedAt = false ∧ s.check t c = some .backoff ∨
      ∃ material, s.check t c = some (.loaded stamp material) := by
  obtain ⟨hbefore, hafter, hanswered, ⟨material, hload⟩, -⟩ := h
  unfold check
  rw [hanswered, hbefore, hafter, hload]
  by_cases hactive : c.activeStamp = some stamp
  · exact Or.inl ⟨hactive, by simp [hactive]⟩
  · by_cases hretry : c.backoff.shouldRetry stamp t.checkedAt = true
    · exact Or.inr (Or.inr ⟨material, by simp [hactive, hretry]⟩)
    · have hretry := Bool.eq_false_iff.mpr hretry
      exact Or.inr (Or.inl ⟨hretry, by simp [hactive, hretry]⟩)

theorem steady_failed (h : s.Steady stamp t) :
    (s.tick c t).backoff.failed = none ∨ (s.tick c t).backoff = c.backoff := by
  unfold tick
  rw [failed_dropExpired]
  rcases steady_check h with ⟨-, hcheck⟩ | ⟨-, hcheck⟩ | ⟨_, hcheck⟩ <;> rw [hcheck]
  · exact Or.inr rfl
  · exact Or.inr rfl
  · exact Or.inl rfl

/-- While the ticks are steady no failure is put on record. -/
theorem steady_failed_run {ticks : List Tick} (h : ∀ t ∈ ticks, s.Steady stamp t) :
    (ticks.foldl s.tick c).backoff.failed = none ∨
      (ticks.foldl s.tick c).backoff = c.backoff := by
  induction ticks generalizing c with
  | nil => exact Or.inr rfl
  | cons t ticks ih =>
    rcases ih (c := s.tick c t) fun u hu => h u (List.mem_cons_of_mem _ hu) with hnone | hsame
    · exact Or.inl hnone
    · rw [List.foldl_cons, hsame]
      exact steady_failed (h t List.mem_cons_self)

/-- A steady tick that no failure holds back leaves the material of the stamp. -/
theorem steady_tick (hid : s.StampIdentifies) (hmixed : s.Unmistaken t) (hsound : s.Sound c)
    (h : s.Steady stamp t) (hretry : c.backoff.shouldRetry stamp t.checkedAt = true) :
    ∃ generation material, s.stampOf generation = stamp ∧ s.MaterialOf generation material ∧
      (s.tick c t).active = some material := by
  have hstamp : s.stampOf t.read = stamp := by
    rw [← before_eq hid hmixed (h.before.trans h.after.symm), h.before]
  have hkept : ∀ c' : Checker, ∀ material, c'.active = some material →
      s.MaterialOf t.read material → (c'.dropExpired t.expiryReadAt).active = some material := by
    intro c' material hc' hmaterial
    rcases dropExpired_cases t.expiryReadAt c' with ⟨hsame, -⟩ | ⟨other, hother, hexpired, -⟩
    · rw [hsame, hc']
    · rw [hc'] at hother
      cases hother
      rw [h.current _ hmaterial] at hexpired
      cases hexpired
  unfold tick
  rcases steady_check (c := c) h with ⟨hactive, hcheck⟩ | ⟨hheld, -⟩ | ⟨material, hcheck⟩
  · obtain ⟨generation, material, hgeneration, hmaterial, hactive⟩ := hsound stamp hactive
    have hread := hid _ _ (hgeneration.trans hstamp.symm)
    subst hread
    rw [hcheck]
    exact ⟨t.read, material, hstamp, hmaterial, hkept c material hactive hmaterial⟩
  · rw [hheld] at hretry
    cases hretry
  · have hmaterial := loadTlsConfig_ok (check_loaded hcheck).2.2
    rw [hcheck]
    exact ⟨t.read, material, hstamp, hmaterial, hkept _ material rfl hmaterial⟩

/-- When the ticks have been steady for a back-off, no earlier failure holds a
check of their stamp back. -/
theorem retry_after_backoff {earlier later : List Tick} {first : Tick} {now : Nat}
    (hsteady : ∀ u ∈ first :: later, s.Steady stamp u)
    (hearlier : ∀ u ∈ earlier, u.failedAt ≤ first.checkedAt)
    (haged : first.checkedAt + certificateReloadFailureBackoff ≤ now) :
    (s.run (earlier ++ first :: later)).backoff.shouldRetry stamp now = true := by
  rw [run, List.foldl_append]
  unfold CertificateReloadBackoff.shouldRetry
  rcases steady_failed_run (c := earlier.foldl s.tick Checker.initial) hsteady with hnone | hsame
  · rw [hnone]
  · rw [hsame]
    cases hfailed : (s.run earlier).backoff.failed with
    | none =>
      rw [run] at hfailed
      rw [hfailed]
    | some failure =>
      obtain ⟨t, ht, hat⟩ := failed_run hfailed
      have hbound := hearlier t ht
      rw [run] at hfailed
      rw [hfailed]
      simp only [Bool.or_eq_true, decide_eq_true_eq]
      right
      omega

end ReloadSurroundings

/-- What the reload loop guarantees in every run: the listener has the active
material and hands none that is expired to a connection; an active stamp is that of
the active material; a check that loads nothing keeps material that is current; and
once the stamp stays, its loads succeed and a back-off has passed, the material is
that of the stamp. -/
theorem certificate_reload (s : ReloadSurroundings) (hid : s.StampIdentifies) :
    (∀ ticks, (s.run ticks).published = (s.run ticks).active) ∧
    (∀ ticks now material, tlsMaterialForAccept (s.run ticks).published now = some material →
      material.isCurrentAt now) ∧
    (∀ ticks stamp, (∀ u ∈ ticks, s.Unmistaken u) → (s.run ticks).activeStamp = some stamp →
      ∃ generation material, s.stampOf generation = stamp ∧ s.MaterialOf generation material ∧
        (s.run ticks).active = some material) ∧
    (∀ ticks t material, (s.run ticks).active = some material →
      (∀ stamp error, s.check t (s.run ticks) = some (.failed stamp error) →
        material.isCurrentAt t.failureReadAt) → material.isCurrentAt t.expiryReadAt →
      (∀ stamp other, s.check t (s.run ticks) ≠ some (.loaded stamp other)) →
      (s.run (ticks ++ [t])).active = some material ∧
        (s.run (ticks ++ [t])).activeStamp = (s.run ticks).activeStamp) ∧
    (∀ earlier first later t stamp, (earlier ++ first :: later ++ [t]).Pairwise Tick.Follows →
      (∀ u ∈ earlier ++ first :: later ++ [t], s.Unmistaken u) →
      (∀ u ∈ first :: later ++ [t], s.Steady stamp u) →
      first.checkedAt + certificateReloadFailureBackoff ≤ t.checkedAt →
      ∃ generation material, s.stampOf generation = stamp ∧ s.MaterialOf generation material ∧
        (s.run (earlier ++ first :: later ++ [t])).active = some material) := by
  refine ⟨s.published_run, ?_, ?_, ?_, ?_⟩
  · intro ticks now material h
    exact (Option.filter_eq_some_iff.mp h).2
  · intro ticks stamp hmixed h
    exact s.sound_run hid hmixed stamp h
  · intro ticks t material hactive hfailure hexpiry hnot
    rw [show s.run (ticks ++ [t]) = s.tick (s.run ticks) t from List.foldl_append]
    exact s.tick_keeps hactive hfailure hexpiry hnot
  · intro earlier first later t stamp hfollows hmixed hsteady haged
    obtain ⟨hbefore, hlast⟩ := List.forall_mem_append.mp hmixed
    rw [show s.run (earlier ++ first :: later ++ [t]) =
      s.tick (s.run (earlier ++ first :: later)) t from List.foldl_append]
    refine s.steady_tick hid (hlast t List.mem_cons_self) (s.sound_run hid hbefore)
      (hsteady t (by simp)) ?_
    refine s.retry_after_backoff (fun u hu => hsteady u ?_) ?_ haged
    · exact List.mem_append_left _ hu
    · intro u hu
      rw [List.append_assoc] at hfollows
      exact ((List.pairwise_append.mp hfollows).2.2 u hu first (by simp)).2

/-- A host that gives every other generation the directory inode of the one before
the last. Each generation has a pair of its own. -/
def sampleReload : ReloadSurroundings where
  config := sampleConfig
  directory := fun generation => some
    { metadata := ⟨0, 0, 0o700⟩
      entries := [(Text.bytes "fullchain.pem", ⟨true, ⟨0, 0, 0o600⟩, [UInt8.ofNat generation]⟩),
        (Text.bytes "privkey.pem", ⟨true, ⟨0, 0, 0o600⟩, [2]⟩)]
      nodup := show [Text.bytes "fullchain.pem", Text.bytes "privkey.pem"].Nodup by decide }
  identity := fun generation => some (0, generation % 2)
  fullchainModified := fun generation => some generation
  privkeyModified := fun _ => some 0
  validateMaterial := fun _ _ _ => .ok ()
  serverConfig := fun _ _ => .ok ()
  notAfter := fun _ => 100

theorem sampleReload_identifies : sampleReload.StampIdentifies := by
  intro a b h
  simp only [ReloadSurroundings.stampOf, ReloadSurroundings.pinnedMaterialStamp, sampleReload,
    PinnedMaterialStamp.mk.injEq, Option.some.injEq] at h
  exact h.2.1

/-- A tick within one generation. -/
def sampleTick (generation checkedAt : Nat) (fault : Option String) : Tick where
  directoryBefore := generation
  fullchainBefore := generation
  privkeyBefore := generation
  read := generation
  directoryAfter := generation
  fullchainAfter := generation
  privkeyAfter := generation
  ordered := by omega
  checkedAt := checkedAt
  failedAt := checkedAt
  instants := Nat.le_refl _
  loadedAt := 1
  failureReadAt := 1
  expiryReadAt := 1
  fault := fault
  panicked := false

/-- A generation whose directory has the inode of the one that is served is loaded
all the same, after a failed load and a back-off. -/
theorem certificate_reload_sample : ∃ generation material,
    sampleReload.stampOf generation = sampleReload.stampOf 2 ∧
      sampleReload.MaterialOf generation material ∧
      (sampleReload.run [sampleTick 0 0 none, sampleTick 2 1 (some "denied"), sampleTick 2 2 none,
        sampleTick 2 (2 + certificateReloadFailureBackoff) none]).active = some material := by
  have hmixed (u : Tick) : sampleReload.Unmistaken u := by
    apply sampleReload.unmistaken_of_part
    exact .inr (.inl fun a b h => Option.some.inj h)
  have hcurrent : ∀ material, sampleReload.MaterialOf 2 material → material.isCurrentAt 1 := by
    rintro material ⟨pair, -, rfl⟩
    rfl
  refine (certificate_reload sampleReload sampleReload_identifies).2.2.2.2
    [sampleTick 0 0 none, sampleTick 2 1 (some "denied")] (sampleTick 2 2 none) [] _ _ ?_
    (fun u _ => hmixed u) ?_ (Nat.le_refl _)
  · simp [Tick.Follows, sampleTick]
    omega
  · intro u hu
    simp only [List.cons_append, List.nil_append, List.mem_cons, List.not_mem_nil, or_false] at hu
    obtain rfl | rfl := hu
    · exact ⟨rfl, rfl, rfl, ⟨_, rfl⟩, hcurrent⟩
    · exact ⟨rfl, rfl, rfl, ⟨_, rfl⟩, hcurrent⟩

end Sbctl
