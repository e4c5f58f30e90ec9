import Sbctl.Install

/-!
# Installations beside each other

Any number of installations and of commands that change the configuration under
the operation lock, step by step. A failed installation drops the lock, looks
whether another one has committed, takes the lock again and rolls back. The
world knows who has written each file last.

* `careful_installs_spare`: a rollback removes no file of a committed deployment
  where no command writes between a committed installation's failure and its
  rollback, and no file but the installation's own where it does not find what
  another failed transaction has left.
-/

namespace Sbctl

namespace Installs

open Assoc FreshInstall

/-! ## The interleaving -/

/-- How far an installation or a command is. -/
inductive Stage where
  | idle
  | preflighted
  | started (preexisting : PreexistingState)
  /-- In the transaction, under the lock. -/
  | installing (preexisting : PreexistingState) (committed : Bool)
  /-- The transaction has returned its error, and its guard is dropped. -/
  | failed (preexisting : PreexistingState) (committed : Bool)
  /-- No other deployment was found. -/
  | looked (preexisting : PreexistingState) (committed : Bool)
  | rollingBack (preexisting : PreexistingState) (committed locked : Bool)
  /-- A command under the lock, and whether it has written the configuration. -/
  | commanding (wrote : Bool)
  /-- It has ended, having committed a configuration or not. -/
  | ended (committed : Bool)
  deriving DecidableEq

namespace Stage

/-- At work on the files, under the lock or rolling back without it. -/
def works : Stage → Bool
  | installing _ _ | rollingBack _ _ _ | commanding _ => true
  | _ => false

def holds : Stage → Bool
  | installing _ _ | rollingBack _ _ true | commanding _ => true
  | _ => false

/-- Before there is anything it could have written. -/
def early : Stage → Bool
  | idle | preflighted | started _ => true
  | _ => false

/-- An installation that has committed and may still fail, or has failed. -/
def pending : Stage → Bool
  | installing _ committed | failed _ committed | looked _ committed => committed
  | _ => false

/-- It rolls back, or may come to roll back a configuration. -/
def threatens : Stage → Bool
  | rollingBack _ _ _ => true
  | stage => stage.pending

theorem threatens_of_pending {stage : Stage} (h : stage.pending) : stage.threatens := by
  cases stage <;> first | rfl | exact h

theorem resting_of_early {stage : Stage} (h : stage.early) :
    stage.works = false ∧ stage.holds = false ∧ stage.pending = false ∧
      stage.threatens = false := by
  cases stage <;> first | exact ⟨rfl, rfl, rfl, rfl⟩ | cases h

theorem works_of_threatens {stage : Stage} (h : stage.threatens) (hpending : ¬ stage.pending) :
    stage.works := by
  cases stage <;> first | rfl | exact absurd h hpending

theorem works_of_holds {stage : Stage} (h : stage.holds) : stage.works := by
  cases stage <;> first | rfl | exact h

/-- It has failed, or ended without having committed a configuration. -/
def gaveUp : Stage → Bool
  | failed _ _ | looked _ _ => true
  | ended committed => !committed
  | _ => false

/-- It is no command and has not begun to roll back. -/
def forward : Stage → Bool
  | rollingBack _ _ _ | commanding _ => false
  | _ => true

theorem resting_of_gaveUp {stage : Stage} (h : stage.gaveUp) :
    stage.works = false ∧ stage.early = false := by
  cases stage <;> first | exact ⟨rfl, rfl⟩ | cases h

theorem phases (stage : Stage) :
    stage.works ∨ stage.early ∨ stage.gaveUp ∨ stage = ended true := by
  cases stage with
  | ended committed => cases committed <;> simp [gaveUp]
  | _ => simp [works, early, gaveUp]

def preexisting? : Stage → Option PreexistingState
  | started preexisting | installing preexisting _ | failed preexisting _ | looked preexisting _
  | rollingBack preexisting _ _ => some preexisting
  | _ => none

end Stage

/-- The files by who has written them last, `none` being before all. -/
structure World (P : Type) where
  files : List (String × Option P)
  lock : Option P
  stages : P → Stage

inductive Event (P : Type) where
  | preflight (p : P)
  /-- Samples the state before the installation. -/
  | start (p : P)
  | acquire (p : P)
  | write (p : P) (path : String)
  | commit (p : P)
  | succeed (p : P)
  | fail (p : P)
  | look (p : P)
  | enter (p : P)
  /-- The lock could not be acquired, and the rollback begins without it. -/
  | enterUnlocked (p : P)
  | remove (p : P) (path : String)
  | finish (p : P)
  | command (p : P)
  | release (p : P)

def Event.forward {P : Type} : Event P → Bool
  | .enter _ | .enterUnlocked _ | .command _ => false
  | _ => true

/-- What an installation or a command writes to. -/
def writable (path : String) : Bool := removable path || installedPaths.contains path

/-- What a rollback removes. -/
def rollsBack (preexisting : PreexistingState) (path : String) : Bool :=
  rollbackNames.contains path && !predatesTransaction path preexisting ||
    !preexisting.dataDirectory && removable path

namespace World

variable {P : Type} [DecidableEq P]

omit [DecidableEq P] in
def configured (w : World P) : Bool := (w.files.lookup configFile).isSome

def become (p : P) (stage : Stage) (w : World P) : World P :=
  { w with stages := Function.update w.stages p stage }

def put (p : P) (path : String) (w : World P) : World P :=
  { w with files := Assoc.put path (some p) w.files }

def step (w : World P) : Event P → Option (World P)
  | .preflight p =>
    if w.stages p = .idle ∧ ¬ deploymentPaths.any (occupied w.files) then
      some (w.become p .preflighted)
    else none
  | .start p =>
    if w.stages p = .preflighted then some (w.become p (.started (preexistingState w.files)))
    else none
  | .acquire p =>
    match w.stages p, w.lock with
    | .started preexisting, none =>
      if w.configured then some (w.become p (.failed preexisting false))
      else some ({ w with lock := some p }.become p (.installing preexisting false))
    | _, _ => none
  | .write p path =>
    match w.stages p with
    | .installing _ _ =>
      if writable path ∧ path ≠ configFile then some (w.put p path) else none
    | .commanding wrote =>
      if writable path then
        some ((w.put p path).become p (.commanding (wrote || path = configFile)))
      else none
    | _ => none
  | .commit p =>
    match w.stages p with
    | .installing preexisting false =>
      some ((w.put p configFile).become p (.installing preexisting true))
    | _ => none
  | .succeed p =>
    match w.stages p with
    | .installing _ true => some ({ w with lock := none }.become p (.ended true))
    | _ => none
  | .fail p =>
    match w.stages p with
    | .started preexisting => some (w.become p (.failed preexisting false))
    | .installing preexisting committed =>
      some ({ w with lock := none }.become p (.failed preexisting committed))
    | _ => none
  | .look p =>
    match w.stages p with
    | .failed preexisting committed =>
      if !committed && !preexisting.config && w.configured then some (w.become p (.ended false))
      else some (w.become p (.looked preexisting committed))
    | _ => none
  | .enter p =>
    match w.stages p, w.lock with
    | .looked preexisting committed, none =>
      if !committed && w.configured then some (w.become p (.ended false))
      else some ({ w with lock := some p }.become p (.rollingBack preexisting committed true))
    | _, _ => none
  | .enterUnlocked p =>
    match w.stages p with
    | .looked preexisting committed =>
      if !committed && w.configured then some (w.become p (.ended false))
      else some (w.become p (.rollingBack preexisting committed false))
    | _ => none
  | .remove p path =>
    match w.stages p with
    | .rollingBack preexisting _ _ =>
      if rollsBack preexisting path then some { w with files := Assoc.remove path w.files }
      else none
    | _ => none
  | .finish p =>
    match w.stages p with
    | .rollingBack _ _ locked =>
      some ({ w with lock := if locked then none else w.lock }.become p (.ended false))
    | _ => none
  | .command p =>
    match w.stages p, w.lock with
    | .idle, none =>
      if w.configured then some ({ w with lock := some p }.become p (.commanding false))
      else some (w.become p (.ended false))
    | _, _ => none
  | .release p =>
    match w.stages p with
    | .commanding wrote => some ({ w with lock := none }.become p (.ended wrote))
    | _ => none

def run : World P → List (Event P) → Option (World P)
  | w, [] => some w
  | w, event :: rest => (w.step event).bind fun w => run w rest

omit [DecidableEq P] in
/-- A root with nobody at work. -/
structure Initial (w : World P) : Prop where
  lock : w.lock = none
  stages : ∀ p, w.stages p = .idle
  files : ∀ path owner, w.files.lookup path = some owner → owner = none

omit [DecidableEq P] in
/-- A rollback removes the files its own installation has left. -/
def SparesOthers (w : World P) : Prop :=
  ∀ p preexisting committed locked path owner,
    w.stages p = .rollingBack preexisting committed locked → rollsBack preexisting path →
    w.files.lookup path = some owner → owner = some p

/-! ## Careful runs -/

/-- No command writes while the rollback of a committed installation is still to
come, and while one rolls back without the lock, nobody takes it. -/
def Careful (w : World P) : Event P → Prop
  | .write p _ => ∀ wrote, w.stages p = .commanding wrote → ∀ q preexisting,
      w.stages q ≠ .failed preexisting true ∧ w.stages q ≠ .looked preexisting true
  | .acquire _ | .command _ | .enter _ =>
    ∀ q preexisting committed, w.stages q ≠ .rollingBack preexisting committed false
  | .enterUnlocked _ => ∀ q, ¬ (w.stages q).works
  | _ => True

/-- No rollback begins while there are files of another that has given up. -/
def Tidy (w : World P) : Event P → Prop
  | .enter p | .enterUnlocked p =>
    ∀ q, q ≠ p → (w.stages q).gaveUp → ∀ path, w.files.lookup path ≠ some (some q)
  | _ => True

/-- What every rollback removes that was there. -/
def rollable (path : String) : Bool :=
  rollbackNames.contains path && path != sbctlBinary || removable path

/-- A file from before, or of a deployment that was committed. -/
def Standing (w : World P) (path : String) : Prop :=
  ∃ owner, w.files.lookup path = some owner ∧ ∀ p, owner = some p → w.stages p = .ended true

structure Inv (w : World P) : Prop where
  holder : ∀ p, (w.stages p).holds → w.lock = some p
  alone : ∀ p q, (w.stages p).works → (w.stages q).works → p = q
  early : ∀ p path, (w.stages p).early → w.files.lookup path ≠ some (some p)
  uncommitted : ∀ p preexisting, w.stages p = .installing preexisting false → w.configured = false
  committed : ∀ p, (w.stages p).pending → w.files.lookup configFile = some (some p)
  threat : ∀ p q, (w.stages p).threatens → (w.stages q).threatens → p = q
  standing : ∀ path, rollable path → w.Standing path →
    w.configured ∧ ∀ p, ¬ (w.stages p).threatens
  commanding : ∀ p wrote, w.stages p = .commanding wrote → w.configured ∧
    ((∃ path, w.files.lookup path = some (some p)) → ∀ q, ¬ (w.stages q).threatens)
  binary : ∀ p preexisting, (w.stages p).preexisting? = some preexisting →
    preexisting.managementBinary = false → w.files.lookup sbctlBinary = none

/-- What a process may come to, for the others and the files as they are. -/
structure Fits (w : World P) (p : P) (stage : Stage) (lock : Option P) : Prop where
  holder : stage.holds → lock = some p
  others : ∀ q, q ≠ p → (w.stages q).holds → lock = some q
  alone : stage.works → ∀ q, q ≠ p → ¬ (w.stages q).works
  early : stage.early → (w.stages p).early
  uncommitted : ∀ preexisting, stage = .installing preexisting false → w.configured = false
  committed : stage.pending → w.files.lookup configFile = some (some p)
  threat : stage.threatens → ∀ q, q ≠ p → ¬ (w.stages q).threatens
  calm : stage.threatens → (w.stages p).threatens ∨ w.configured = false
  standing : stage = .ended true → (∃ path, w.files.lookup path = some (some p)) →
    w.configured ∧ ∀ q, q ≠ p → ¬ (w.stages q).threatens
  commanding : ∀ wrote, stage = .commanding wrote →
    w.configured ∧ ((w.stages p).early ∨ ∀ q, ¬ (w.stages q).threatens)
  binary : ∀ preexisting, stage.preexisting? = some preexisting →
    preexisting.managementBinary = false → w.files.lookup sbctlBinary = none

section
variable {w w' : World P} {p : P} {stage : Stage} {lock : Option P}

theorem stages_become (q : P) :
    (w.become p stage).stages q = if q = p then stage else w.stages q := by
  simp [become, Function.update_apply]

/-- What at most one process was, at most one is, if the one that moves becomes it alone. -/
theorem alone_become {prop : Stage → Bool}
    (halone : ∀ q r, prop (w.stages q) → prop (w.stages r) → q = r)
    (hself : prop stage → ∀ q, q ≠ p → ¬ prop (w.stages q)) (q r : P)
    (hq : prop ((w.become p stage).stages q)) (hr : prop ((w.become p stage).stages r)) :
    q = r := by
  rw [stages_become] at hq hr
  split at hq <;> split at hr
  · exact ‹q = p›.trans ‹r = p›.symm
  · exact absurd hr (hself hq r ‹_›)
  · exact absurd hq (hself hr q ‹_›)
  · exact halone q r hq hr

/-- A process that moves threatens a deployment only if it did before. -/
theorem unthreatened_become
    (hcalm : stage.threatens → (w.stages p).threatens ∨ w.configured = false)
    (hconfigured : w.configured) (hnone : ∀ q, ¬ (w.stages q).threatens) (q : P) :
    ¬ ((w.become p stage).stages q).threatens := by
  intro hq
  rw [stages_become] at hq
  split at hq
  · obtain hthreat | hmissing := hcalm hq
    · exact hnone p hthreat
    · exact absurd (hmissing.symm.trans hconfigured) (by decide)
  · exact hnone q hq

/-- What stands and is not of the process that moved stood before. -/
theorem standing_of_become {path : String} {owner : Option P} (hp : owner ≠ some p)
    (hlookup : w.files.lookup path = some owner)
    (howner : ∀ r, owner = some r → (w.become p stage).stages r = .ended true) :
    w.Standing path := by
  refine ⟨owner, hlookup, fun r hr => ?_⟩
  have hne : r ≠ p := fun heq => hp (heq ▸ hr)
  have hended := howner r hr
  rwa [stages_become, if_neg hne] at hended

theorem Inv.become (hinv : w.Inv) (hfits : w.Fits p stage lock) :
    ({ w with lock := lock }.become p stage).Inv := by
  have hstages : ∀ q, ({ w with lock := lock }.become p stage).stages q =
      if q = p then stage else w.stages q := stages_become
  have hself : ({ w with lock := lock }.become p stage).stages p = stage := by
    rw [hstages, if_pos rfl]
  constructor
  · intro q hq
    rw [hstages] at hq
    split at hq
    · subst q
      exact hfits.holder hq
    · exact hfits.others q ‹_› hq
  · exact alone_become hinv.alone hfits.alone
  · intro q path hq
    rw [hstages] at hq
    split at hq
    · subst q
      exact hinv.early p path (hfits.early hq)
    · exact hinv.early q path hq
  · intro q preexisting hq
    rw [hstages] at hq
    split at hq
    · exact hfits.uncommitted preexisting hq
    · exact hinv.uncommitted q preexisting hq
  · intro q hq
    rw [hstages] at hq
    split at hq
    · subst q
      exact hfits.committed hq
    · exact hinv.committed q hq
  · exact alone_become hinv.threat hfits.threat
  · rintro path hrollable ⟨owner, hlookup, howner⟩
    by_cases hp : owner = some p
    · subst hp
      have hended : stage = .ended true := hself ▸ howner p rfl
      obtain ⟨hconfigured, hnone⟩ := hfits.standing hended ⟨path, hlookup⟩
      refine ⟨hconfigured, fun q hq => ?_⟩
      rw [hstages] at hq
      split at hq
      · rw [hended] at hq
        cases hq
      · exact hnone q ‹_› hq
    · obtain ⟨hconfigured, hnone⟩ :=
        hinv.standing path hrollable (standing_of_become hp hlookup howner)
      exact ⟨hconfigured, unthreatened_become hfits.calm hconfigured hnone⟩
  · intro q wrote hq
    rw [hstages] at hq
    split at hq
    · subst q
      obtain ⟨hconfigured, hearly | hnone⟩ := hfits.commanding wrote hq
      · refine ⟨hconfigured, fun ⟨path, hpath⟩ => ?_⟩
        exact absurd hpath (hinv.early p path hearly)
      · exact ⟨hconfigured, fun _ => unthreatened_become hfits.calm hconfigured hnone⟩
    · obtain ⟨hconfigured, hnone⟩ := hinv.commanding q wrote hq
      exact ⟨hconfigured, fun hfile =>
        unthreatened_become hfits.calm hconfigured (hnone hfile)⟩
  · intro q preexisting hq
    rw [hstages] at hq
    split at hq
    · exact hfits.binary preexisting hq
    · exact hinv.binary q preexisting hq

/-- What a process may come to that writes a file. -/
structure Writes (w : World P) (p : P) (path : String) (stage : Stage) : Prop where
  works : (w.stages p).works
  named : path ≠ sbctlBinary
  holds : stage.holds → (w.stages p).holds
  early : ¬ stage.early
  unended : stage ≠ .ended true
  uncommitted : ∀ preexisting, stage = .installing preexisting false →
    path ≠ configFile ∧ w.stages p = .installing preexisting false
  committed : stage.pending → path = configFile ∨ (w.stages p).pending
  others : path = configFile → ∀ q, q ≠ p → ¬ (w.stages q).pending
  threat : stage.threatens → ∀ q, q ≠ p → ¬ (w.stages q).threatens
  calm : stage.threatens → (w.stages p).threatens ∨ w.configured = false
  commanding : ∀ wrote, stage = .commanding wrote → w.configured ∧ ∀ q, ¬ (w.stages q).threatens
  binary : ∀ preexisting, stage.preexisting? = some preexisting →
    (w.stages p).preexisting? = some preexisting

omit [DecidableEq P] in
theorem lookup_files_put (path k : String) :
    (w.put p path).files.lookup k = if k = path then some (some p) else w.files.lookup k :=
  lookup_put _ _ _ _

omit [DecidableEq P] in
theorem configured_put (path : String) (h : w.configured) : (w.put p path).configured := by
  rw [configured, lookup_files_put]
  split
  · rfl
  · exact h

omit [DecidableEq P] in
theorem Inv.idle (hinv : w.Inv) (hp : (w.stages p).works) {q : P} (hq : q ≠ p) :
    ¬ (w.stages q).works :=
  fun h => hq (hinv.alone q p h hp)

theorem Inv.put (hinv : w.Inv) {path : String} (hwrites : w.Writes p path stage) :
    ((w.put p path).become p stage).Inv := by
  have hstages : ∀ q, ((w.put p path).become p stage).stages q =
      if q = p then stage else w.stages q := stages_become
  have hself : ((w.put p path).become p stage).stages p = stage := by
    rw [hstages, if_pos rfl]
  have hfiles : ∀ k, ((w.put p path).become p stage).files.lookup k =
      if k = path then some (some p) else w.files.lookup k := lookup_files_put path
  constructor
  · intro q hq
    rw [hstages] at hq
    split at hq
    · subst q
      exact hinv.holder p (hwrites.holds hq)
    · exact hinv.holder q hq
  · exact alone_become hinv.alone fun _ q => hinv.idle hwrites.works
  · intro q k hq
    rw [hstages] at hq
    split at hq
    · exact absurd hq hwrites.early
    · rename_i hne
      rw [hfiles]
      split
      · intro heq
        exact hne (Option.some.inj (Option.some.inj heq)).symm
      · exact hinv.early q k hq
  · intro q preexisting hq
    rw [hstages] at hq
    split at hq
    · obtain ⟨hpath, hbefore⟩ := hwrites.uncommitted preexisting hq
      have hmissing := hinv.uncommitted p preexisting hbefore
      rw [configured] at hmissing ⊢
      rw [hfiles, if_neg (Ne.symm hpath), hmissing]
    · exact absurd (by rw [hq]; rfl) (hinv.idle hwrites.works ‹_›)
  · intro q hq
    rw [hstages] at hq
    rw [hfiles]
    split at hq
    · subst q
      by_cases hpath : configFile = path
      · rw [if_pos hpath]
      · rw [if_neg hpath]
        exact hinv.committed p ((hwrites.committed hq).resolve_left (Ne.symm hpath))
    · have hpath : configFile ≠ path := fun heq => hwrites.others heq.symm q ‹_› hq
      rw [if_neg hpath]
      exact hinv.committed q hq
  · exact alone_become hinv.threat hwrites.threat
  · rintro k hrollable ⟨owner, hlookup, howner⟩
    have hp : owner ≠ some p := fun heq => hwrites.unended (hself ▸ howner p heq)
    have hne : k ≠ path := by
      rintro rfl
      rw [hfiles, if_pos rfl] at hlookup
      exact hp (Option.some.inj hlookup).symm
    rw [hfiles, if_neg hne] at hlookup
    obtain ⟨hconfigured, hnone⟩ :=
      hinv.standing k hrollable (standing_of_become hp hlookup howner)
    have hcalm := unthreatened_become hwrites.calm hconfigured hnone
    exact ⟨configured_put path hconfigured, hcalm⟩
  · intro q wrote hq
    rw [hstages] at hq
    split at hq
    · obtain ⟨hconfigured, hnone⟩ := hwrites.commanding wrote hq
      have hcalm := unthreatened_become hwrites.calm hconfigured hnone
      exact ⟨configured_put path hconfigured, fun _ => hcalm⟩
    · exact absurd (by rw [hq]; rfl) (hinv.idle hwrites.works ‹_›)
  · intro q preexisting hq hbinary
    rw [hstages] at hq
    rw [hfiles, if_neg (Ne.symm hwrites.named)]
    split at hq
    · exact hinv.binary p preexisting (hwrites.binary preexisting hq) hbinary
    · exact hinv.binary q preexisting hq hbinary

omit [DecidableEq P] in
/-- While one rolls back, there is no standing file, and removing keeps the rest. -/
theorem Inv.remove (hinv : w.Inv) {preexisting : PreexistingState} {committed locked : Bool}
    (hp : w.stages p = .rollingBack preexisting committed locked) (path : String) :
    ({ w with files := Assoc.remove path w.files } : World P).Inv := by
  have hfiles : ∀ k owner, (Assoc.remove path w.files).lookup k = some owner →
      w.files.lookup k = some owner := by
    intro k owner hk
    rw [lookup_remove] at hk
    split at hk
    · cases hk
    · exact hk
  have hnone : ∀ k, w.files.lookup k = none → (Assoc.remove path w.files).lookup k = none := by
    intro k hk
    rw [lookup_remove, hk, ite_self]
  have hworks : (w.stages p).works := by rw [hp]; rfl
  have hthreat : (w.stages p).threatens := by rw [hp]; rfl
  refine ⟨hinv.holder, hinv.alone, fun q k hq hk => hinv.early q k hq (hfiles k _ hk), ?_, ?_,
    hinv.threat, ?_, ?_, fun q pre hq hbinary => hnone _ (hinv.binary q pre hq hbinary)⟩
  · intro q pre hq
    have hmissing := hinv.uncommitted q pre hq
    rw [configured, Option.isSome_eq_false_iff, Option.isNone_iff_eq_none] at hmissing ⊢
    exact hnone _ hmissing
  · intro q hq
    cases hinv.threat q p (Stage.threatens_of_pending hq) hthreat
    rw [hp] at hq
    cases hq
  · rintro k hrollable ⟨owner, hlookup, howner⟩
    exact absurd hthreat ((hinv.standing k hrollable ⟨owner, hfiles k _ hlookup, howner⟩).2 p)
  · intro q wrote hq
    cases hinv.alone q p (by rw [hq]; rfl) hworks
    rw [hp] at hq
    cases hq

/-! ## Steps -/

omit [DecidableEq P] in
theorem Inv.configured_of_pending (hinv : w.Inv) (h : (w.stages p).pending) : w.configured := by
  rw [configured, hinv.committed p h]
  rfl

omit [DecidableEq P] in
theorem Inv.unlocked (hinv : w.Inv) (hp : (w.stages p).works) :
    ∀ q, q ≠ p → ¬ (w.stages q).holds :=
  fun q hq h => hq (hinv.alone q p (Stage.works_of_holds h) hp)

omit [DecidableEq P] in
/-- Nobody is at work while the lock is free and nobody rolls back without it. -/
theorem Inv.nobody (hinv : w.Inv) (hlock : w.lock = none)
    (hcareful : ∀ q preexisting committed,
      w.stages q ≠ .rollingBack preexisting committed false) :
    ∀ q, ¬ (w.stages q).works := by
  intro q hq
  have hholds : ¬ (w.stages q).holds := by
    intro h
    have hheld := hinv.holder q h
    rw [hlock] at hheld
    cases hheld
  cases hstage : w.stages q with
  | installing | commanding =>
    rw [hstage] at hholds
    exact hholds rfl
  | rollingBack preexisting committed locked =>
    cases locked with
    | true =>
      rw [hstage] at hholds
      exact hholds rfl
    | false => exact hcareful q preexisting committed hstage
  | _ =>
    rw [hstage] at hq
    cases hq

omit [DecidableEq P] in
theorem Inv.fits_givesUp (hinv : w.Inv) (hstage : stage.gaveUp)
    (hpending : stage.pending → (w.stages p).pending)
    (hothers : ∀ q, q ≠ p → (w.stages q).holds → lock = some q)
    (hbinary : ∀ preexisting, stage.preexisting? = some preexisting →
      (w.stages p).preexisting? = some preexisting) : w.Fits p stage lock := by
  obtain ⟨hworks, hearly⟩ := Stage.resting_of_gaveUp hstage
  have hthreat : stage.threatens → (w.stages p).threatens := by
    intro h
    apply Stage.threatens_of_pending
    apply hpending
    by_contra hnot
    have hworking := Stage.works_of_threatens h hnot
    rw [hworks] at hworking
    cases hworking
  refine ⟨fun h => ?_, hothers, fun h => ?_, fun h => ?_, ?_, fun h => ?_, fun h q hq hq' => ?_,
    fun h => Or.inl (hthreat h), ?_, ?_, fun pre h => hinv.binary p pre (hbinary pre h)⟩
  · exact absurd (Stage.works_of_holds h) (by simp [hworks])
  · exact absurd h (by simp [hworks])
  · exact absurd h (by simp [hearly])
  · rintro preexisting rfl
    cases hstage
  · exact hinv.committed p (hpending h)
  · exact hq (hinv.threat q p hq' (hthreat h))
  · rintro rfl
    cases hstage
  · rintro wrote rfl
    cases hstage

omit [DecidableEq P] in
theorem Inv.fits_rollingBack (hinv : w.Inv) {preexisting : PreexistingState}
    {committed locked : Bool} (hp : w.stages p = .looked preexisting committed)
    (hnobody : ∀ q, ¬ (w.stages q).works) (hlock : locked = true → lock = some p)
    (hconfigured : committed = false → w.configured = false) :
    w.Fits p (.rollingBack preexisting committed locked) lock where
  holder h := by
    cases locked with
    | true => exact hlock rfl
    | false => cases h
  others q _ h := absurd (Stage.works_of_holds h) (hnobody q)
  alone _ q _ := hnobody q
  early h := by cases h
  uncommitted _ h := by cases h
  committed h := by cases h
  threat _ q hq hthreat := by
    have hpending : (w.stages q).pending := by
      by_contra h
      exact hnobody q (Stage.works_of_threatens hthreat h)
    cases committed with
    | true => exact hq (hinv.threat q p hthreat (by rw [hp]; rfl))
    | false =>
      have hsome := hinv.configured_of_pending hpending
      rw [hconfigured rfl] at hsome
      cases hsome
  calm _ := by
    cases committed with
    | true =>
      rw [hp]
      exact Or.inl rfl
    | false => exact Or.inr (hconfigured rfl)
  standing h := by cases h
  commanding _ h := by cases h
  binary pre h := hinv.binary p pre (by rw [hp]; exact h)

omit [DecidableEq P] in
/-- The installation or the command that has ended well leaves what it committed. -/
theorem Inv.fits_ended (hinv : w.Inv) (hworks : (w.stages p).works)
    (hstanding : (∃ path, w.files.lookup path = some (some p)) →
      w.configured ∧ ∀ q, q ≠ p → ¬ (w.stages q).threatens) : w.Fits p (.ended true) none where
  holder h := by cases h
  others q hq h := absurd h (hinv.unlocked hworks q hq)
  alone h := by cases h
  early h := by cases h
  uncommitted _ h := by cases h
  committed h := by cases h
  threat h := by cases h
  calm h := by cases h
  standing _ := hstanding
  commanding _ h := by cases h
  binary _ h := by cases h

theorem writable_ne {path : String} (h : writable path) : path ≠ sbctlBinary := by
  rintro rfl
  revert h
  decide

omit [DecidableEq P] in
/-- What was sampled stays with an installation. -/
theorem binary_of {preexisting : PreexistingState}
    (hp : (w.stages p).preexisting? = some preexisting) :
    ∀ pre, some preexisting = some pre → (w.stages p).preexisting? = some pre :=
  fun _ h => hp.trans h

theorem Inv.acquire (hinv : w.Inv) (hcareful : w.Careful (.acquire p))
    (hstep : w.step (.acquire p) = some w') : w'.Inv := by
  simp only [step] at hstep
  split at hstep
  · rename_i preexisting hp hlock
    have hnobody := hinv.nobody hlock hcareful
    have hbefore : (w.stages p).preexisting? = some preexisting := by rw [hp]; rfl
    split at hstep <;> cases hstep
    · exact hinv.become (hinv.fits_givesUp rfl (fun h => by cases h)
        (fun q _ h => hinv.holder q h) (binary_of hbefore))
    · rename_i hconfigured
      have hfits : w.Fits p (.installing preexisting false) (some p) :=
        { holder := fun _ => rfl
          others := fun q _ h => absurd (Stage.works_of_holds h) (hnobody q)
          alone := fun _ q _ => hnobody q
          early := fun h => by cases h
          uncommitted := fun _ _ => by simpa using hconfigured
          committed := fun h => by cases h
          threat := fun h => by cases h
          calm := fun h => by cases h
          standing := fun h => by cases h
          commanding := fun _ h => by cases h
          binary := fun pre h => hinv.binary p pre (binary_of hbefore pre h) }
      exact hinv.become hfits
  · cases hstep

theorem Inv.write (hinv : w.Inv) {path : String} (hcareful : w.Careful (.write p path))
    (hstep : w.step (.write p path) = some w') : w'.Inv := by
  simp only [step] at hstep
  split at hstep
  · rename_i preexisting committed hp
    split at hstep <;> cases hstep
    rename_i hpath
    have hsame : (w.put p path).become p (w.stages p) = w.put p path := by
      simp [World.become, World.put]
    rw [← hsame]
    have hwrites : w.Writes p path (w.stages p) :=
      { works := by rw [hp]; rfl
        named := writable_ne hpath.1
        holds := id
        early := by simp [hp, Stage.early]
        unended := by simp [hp]
        uncommitted := fun _ h => ⟨hpath.2, h⟩
        committed := Or.inr
        others := fun h => absurd h hpath.2
        threat := fun h q hq hq' => hq (hinv.threat q p hq' h)
        calm := Or.inl
        commanding := by simp [hp]
        binary := fun _ => id }
    exact hinv.put hwrites
  · rename_i wrote hp
    split at hstep <;> cases hstep
    rename_i hpath
    have hworks : (w.stages p).works := by rw [hp]; rfl
    obtain ⟨hconfigured, -⟩ := hinv.commanding p wrote hp
    have hnone : ∀ q, ¬ (w.stages q).threatens := by
      intro q hq
      have hidle : ¬ (w.stages q).works := by
        intro h
        cases hinv.alone q p h hworks
        rw [hp] at hq
        cases hq
      have hcalm := hcareful wrote hp q
      cases hstage : w.stages q with
      | failed preexisting committed | looked preexisting committed =>
        rw [hstage] at hq
        cases committed with
        | true => simp [hstage] at hcalm
        | false => cases hq
      | installing | rollingBack =>
        rw [hstage] at hidle
        exact hidle rfl
      | _ =>
        rw [hstage] at hq
        cases hq
    have hwrites : w.Writes p path (.commanding (wrote || path = configFile)) :=
      { works := hworks
        named := writable_ne hpath
        holds := fun _ => by rw [hp]; rfl
        early := fun h => by cases h
        unended := fun h => by cases h
        uncommitted := fun _ h => by cases h
        committed := fun h => by cases h
        others := fun _ q _ h => hnone q (Stage.threatens_of_pending h)
        threat := fun h => by cases h
        calm := fun h => by cases h
        commanding := fun _ _ => ⟨hconfigured, hnone⟩
        binary := fun _ h => by cases h }
    exact hinv.put hwrites
  · cases hstep

theorem Inv.commit (hinv : w.Inv) (hstep : w.step (.commit p) = some w') : w'.Inv := by
  simp only [step] at hstep
  split at hstep <;> cases hstep
  rename_i preexisting hp
  have hworks : (w.stages p).works := by rw [hp]; rfl
  have hmissing := hinv.uncommitted p preexisting hp
  have hpending : ∀ q, ¬ (w.stages q).pending := by
    intro q hq
    have hsome := hinv.configured_of_pending hq
    rw [hmissing] at hsome
    cases hsome
  have hthreat : ∀ q, q ≠ p → ¬ (w.stages q).threatens := by
    intro q hq h
    exact hq (hinv.alone q p (Stage.works_of_threatens h (hpending q)) hworks)
  have hwrites : w.Writes p configFile (.installing preexisting true) :=
    { works := hworks
      named := by decide
      holds := fun _ => by rw [hp]; rfl
      early := fun h => by cases h
      unended := fun h => by cases h
      uncommitted := fun _ h => by cases h
      committed := fun _ => Or.inl rfl
      others := fun _ q _ => hpending q
      threat := fun _ => hthreat
      calm := fun _ => Or.inr hmissing
      commanding := fun _ h => by cases h
      binary := fun pre h => by rw [hp]; exact h }
  exact hinv.put hwrites

theorem Inv.give_up (hinv : w.Inv) (hp : (w.stages p).works ∨ lock = w.lock)
    (hstage : stage.gaveUp) (hpending : stage.pending → (w.stages p).pending)
    (hbinary : ∀ preexisting, stage.preexisting? = some preexisting →
      (w.stages p).preexisting? = some preexisting) :
    ({ w with lock := lock }.become p stage).Inv := by
  refine hinv.become (hinv.fits_givesUp hstage hpending (fun q hq h => ?_) hbinary)
  obtain hworks | rfl := hp
  · exact absurd h (hinv.unlocked hworks q hq)
  · exact hinv.holder q h

theorem Inv.rollBack (hinv : w.Inv) {preexisting : PreexistingState} {committed locked : Bool}
    (hp : w.stages p = .looked preexisting committed) (hnobody : ∀ q, ¬ (w.stages q).works)
    (hlock : locked = true → lock = some p)
    (hconfigured : ¬ (!committed && w.configured) = true) :
    ({ w with lock := lock }.become p (.rollingBack preexisting committed locked)).Inv := by
  refine hinv.become (hinv.fits_rollingBack hp hnobody hlock fun hcommitted => ?_)
  rw [hcommitted] at hconfigured
  simpa using hconfigured

omit [DecidableEq P] in
/-- A process on its way to a transaction. -/
theorem Inv.fits_early (hinv : w.Inv) (hp : (w.stages p).early) (hstage : stage.early)
    (hbinary : ∀ preexisting, stage.preexisting? = some preexisting →
      preexisting.managementBinary = false → w.files.lookup sbctlBinary = none) :
    w.Fits p stage w.lock := by
  obtain ⟨hworks, hholds, hpending, hthreatens⟩ := Stage.resting_of_early hstage
  constructor
  case holder | alone | committed | threat | calm => simp [hworks, hholds, hpending, hthreatens]
  case others => exact fun q _ h => hinv.holder q h
  case early => exact fun _ => hp
  case uncommitted =>
    rintro preexisting rfl
    cases hstage
  case standing =>
    rintro rfl
    cases hstage
  case commanding =>
    rintro wrote rfl
    cases hstage
  case binary => exact hbinary

omit [DecidableEq P] in
theorem fits_commanding (hp : w.stages p = .idle) (hnobody : ∀ q, ¬ (w.stages q).works)
    (hconfigured : w.configured) :
    w.Fits p (.commanding false) (some p) where
  holder := fun _ => rfl
  others := fun q _ h => absurd (Stage.works_of_holds h) (hnobody q)
  alone := fun _ q _ => hnobody q
  early := fun h => by cases h
  uncommitted := fun _ h => by cases h
  committed := fun h => by cases h
  threat := fun h => by cases h
  calm := fun h => by cases h
  standing := fun h => by cases h
  commanding := fun _ _ => ⟨hconfigured, Or.inl (by rw [hp]; rfl)⟩
  binary := fun _ h => by cases h

theorem Inv.start (hinv : w.Inv) (hstep : w.step (.start p) = some w') : w'.Inv := by
  simp only [World.step] at hstep
  split at hstep <;> cases hstep
  rename_i hp
  refine hinv.become (hinv.fits_early (by rw [hp]; rfl) rfl fun preexisting h hnone => ?_)
  cases h
  simpa [preexistingState] using hnone

theorem Inv.succeed (hinv : w.Inv) (hstep : w.step (.succeed p) = some w') : w'.Inv := by
  simp only [World.step] at hstep
  split at hstep <;> cases hstep
  rename_i preexisting hp
  have hpending : (w.stages p).pending := by rw [hp]; rfl
  refine hinv.become (hinv.fits_ended (by rw [hp]; rfl) fun _ => ?_)
  refine ⟨hinv.configured_of_pending hpending, fun q hq h => hq ?_⟩
  exact hinv.threat q p h (Stage.threatens_of_pending hpending)

theorem Inv.fail (hinv : w.Inv) (hstep : w.step (.fail p) = some w') : w'.Inv := by
  simp only [World.step] at hstep
  split at hstep <;> cases hstep
  · rename_i preexisting hp
    exact hinv.give_up (Or.inr rfl) rfl (fun h => by cases h) (binary_of (by rw [hp]; rfl))
  · rename_i preexisting committed hp
    exact hinv.give_up (Or.inl (by rw [hp]; rfl)) rfl (fun h => by rw [hp]; exact h)
      (binary_of (by rw [hp]; rfl))

theorem Inv.look (hinv : w.Inv) (hstep : w.step (.look p) = some w') : w'.Inv := by
  simp only [World.step] at hstep
  split at hstep
  · rename_i preexisting committed hp
    split at hstep <;> cases hstep
    · exact hinv.give_up (Or.inr rfl) rfl (fun h => by cases h) (fun _ h => by cases h)
    · exact hinv.give_up (Or.inr rfl) rfl (fun h => by rw [hp]; exact h)
        (binary_of (by rw [hp]; rfl))
  · cases hstep

theorem Inv.enter (hinv : w.Inv) (hcareful : w.Careful (.enter p))
    (hstep : w.step (.enter p) = some w') : w'.Inv := by
  simp only [World.step] at hstep
  split at hstep
  · rename_i preexisting committed hp hlock
    split at hstep <;> cases hstep
    · exact hinv.give_up (Or.inr rfl) rfl (fun h => by cases h) (fun _ h => by cases h)
    · rename_i hconfigured
      exact hinv.rollBack hp (hinv.nobody hlock hcareful) (fun _ => rfl) hconfigured
  · cases hstep

theorem Inv.enterUnlocked (hinv : w.Inv) (hcareful : w.Careful (.enterUnlocked p))
    (hstep : w.step (.enterUnlocked p) = some w') : w'.Inv := by
  simp only [World.step] at hstep
  split at hstep
  · rename_i preexisting committed hp
    split at hstep <;> cases hstep
    · exact hinv.give_up (Or.inr rfl) rfl (fun h => by cases h) (fun _ h => by cases h)
    · rename_i hconfigured
      exact hinv.rollBack hp hcareful (fun h => by cases h) hconfigured
  · cases hstep

theorem Inv.command (hinv : w.Inv) (hcareful : w.Careful (.command p))
    (hstep : w.step (.command p) = some w') : w'.Inv := by
  simp only [World.step] at hstep
  split at hstep
  · rename_i hp hlock
    have hnobody := hinv.nobody hlock hcareful
    split at hstep <;> cases hstep
    · rename_i hconfigured
      exact hinv.become (fits_commanding hp hnobody hconfigured)
    · exact hinv.give_up (Or.inr rfl) rfl (fun h => by cases h) (fun _ h => by cases h)
  · cases hstep

theorem Inv.release (hinv : w.Inv) (hstep : w.step (.release p) = some w') : w'.Inv := by
  simp only [World.step] at hstep
  split at hstep <;> cases hstep
  rename_i wrote hp
  have hworks : (w.stages p).works := by rw [hp]; rfl
  cases wrote with
  | false =>
    exact hinv.give_up (Or.inl hworks) rfl (fun h => by cases h) (fun _ h => by cases h)
  | true =>
    obtain ⟨hconfigured, hnone⟩ := hinv.commanding p true hp
    exact hinv.become (hinv.fits_ended hworks fun hfile =>
      ⟨hconfigured, fun q _ => hnone hfile q⟩)

/-- Each step of a careful run keeps the invariant. -/
theorem Inv.step {event : Event P} (hinv : w.Inv) (hcareful : w.Careful event)
    (hstep : w.step event = some w') : w'.Inv := by
  cases event with
  | preflight p =>
    simp only [World.step] at hstep
    split at hstep <;> cases hstep
    rename_i hp
    exact hinv.become (hinv.fits_early (by rw [hp.1]; rfl) rfl fun _ h => by cases h)
  | start p => exact hinv.start hstep
  | acquire p => exact hinv.acquire hcareful hstep
  | write p path => exact hinv.write hcareful hstep
  | commit p => exact hinv.commit hstep
  | succeed p => exact hinv.succeed hstep
  | fail p => exact hinv.fail hstep
  | look p => exact hinv.look hstep
  | enter p => exact hinv.enter hcareful hstep
  | enterUnlocked p => exact hinv.enterUnlocked hcareful hstep
  | remove p path =>
    simp only [World.step] at hstep
    split at hstep
    · rename_i hp
      split at hstep <;> cases hstep
      exact hinv.remove hp path
    · cases hstep
  | finish p =>
    simp only [World.step] at hstep
    split at hstep <;> cases hstep
    rename_i hp
    exact hinv.give_up (Or.inl (by rw [hp]; rfl)) rfl (fun h => by cases h)
      (fun _ h => by cases h)
  | command p => exact hinv.command hcareful hstep
  | release p => exact hinv.release hstep

/-! ## Whose files a rollback finds -/

/-- What a rollback finds was left by its own installation. -/
def Own (w : World P) : Prop :=
  ∀ p preexisting committed locked, w.stages p = .rollingBack preexisting committed locked →
    ∀ path owner, rollable path → w.files.lookup path = some owner → owner = some p

omit [DecidableEq P] in
/-- A step that is no beginning of a rollback. -/
theorem own_keep (hown : w.Own)
    (hstages : ∀ q preexisting committed locked,
      w'.stages q = .rollingBack preexisting committed locked →
        w.stages q = .rollingBack preexisting committed locked)
    (hfiles : ∀ k owner, w'.files.lookup k = some owner → w.files.lookup k = some owner) :
    w'.Own := by
  intro q preexisting committed locked hq path owner hrollable howner
  exact hown q preexisting committed locked (hstages q preexisting committed locked hq) path owner
    hrollable (hfiles path owner howner)

theorem own_become (hown : w.Own) (hstage : ∀ preexisting committed locked,
      stage ≠ .rollingBack preexisting committed locked) :
    ({ w with lock := lock }.become p stage).Own := by
  refine own_keep hown (fun q preexisting committed locked hq => ?_) fun _ _ => id
  have hstages : ({ w with lock := lock }.become p stage).stages q =
      if q = p then stage else w.stages q := stages_become q
  rw [hstages] at hq
  split at hq
  · exact absurd hq (hstage preexisting committed locked)
  · exact hq

/-- Nobody rolls back while another is at work. -/
theorem own_worked (hinv : w.Inv) (hp : (w.stages p).works)
    (hstage : ∀ preexisting committed locked,
      stage ≠ .rollingBack preexisting committed locked) (path : String) :
    ((w.put p path).become p stage).Own := by
  intro q preexisting committed locked hq
  rw [stages_become] at hq
  split at hq
  · exact absurd hq (hstage preexisting committed locked)
  · rename_i hne
    have hq' : w.stages q = .rollingBack preexisting committed locked := hq
    exact absurd (hinv.alone q p (by rw [hq']; rfl) hp) hne

theorem own_rollBack (hinv : w.Inv) {preexisting : PreexistingState} {committed locked : Bool}
    (hp : w.stages p = .looked preexisting committed) (hnobody : ∀ q, ¬ (w.stages q).works)
    (htidy : ∀ q, q ≠ p → (w.stages q).gaveUp → ∀ path, w.files.lookup path ≠ some (some q))
    (hconfigured : ¬ (!committed && w.configured) = true) :
    ({ w with lock := lock }.become p (.rollingBack preexisting committed locked)).Own := by
  intro q pre c l hq path owner hrollable howner
  have hstages : ({ w with lock := lock }.become p
      (.rollingBack preexisting committed locked)).stages q =
        if q = p then .rollingBack preexisting committed locked else w.stages q := stages_become q
  rw [hstages] at hq
  have howner' : w.files.lookup path = some owner := howner
  split at hq
  · subst q
    have hunstanding : ¬ w.Standing path := by
      intro hstanding
      obtain ⟨hsome, hnone⟩ := hinv.standing path hrollable hstanding
      cases committed with
      | true => exact hnone p (by rw [hp]; rfl)
      | false => exact hconfigured (by simpa using hsome)
    by_contra hother
    apply hunstanding
    refine ⟨owner, howner', fun r hr => ?_⟩
    subst hr
    have hne : r ≠ p := fun heq => hother (heq ▸ rfl)
    obtain hworks | hearly | hgave | hended := (w.stages r).phases
    · exact absurd hworks (hnobody r)
    · exact absurd howner' (hinv.early r path hearly)
    · exact absurd howner' (htidy r hne hgave path)
    · exact hended
  · exact absurd (by rw [hq]; rfl) (hnobody q)

theorem Own.step {event : Event P} (hown : w.Own) (hinv : w.Inv) (hcareful : w.Careful event)
    (htidy : w.Tidy event) (hstep : w.step event = some w') : w'.Own := by
  cases event with
  | preflight p | start p =>
    simp only [World.step] at hstep
    split at hstep <;> cases hstep
    exact own_become hown (by simp)
  | acquire p | look p | command p =>
    simp only [World.step] at hstep
    split at hstep
    · split at hstep <;> cases hstep <;> exact own_become hown (by simp)
    · cases hstep
  | succeed p | fail p | finish p | release p =>
    simp only [World.step] at hstep
    split at hstep <;> cases hstep <;> exact own_become hown (by simp)
  | write p path =>
    simp only [World.step] at hstep
    split at hstep
    · rename_i hp
      split at hstep <;> cases hstep
      have hsame : (w.put p path).become p (w.stages p) = w.put p path := by
        simp [World.become, World.put]
      rw [← hsame]
      exact own_worked hinv (by rw [hp]; rfl) (by simp [hp]) path
    · rename_i hp
      split at hstep <;> cases hstep
      exact own_worked hinv (by rw [hp]; rfl) (by simp) path
    · cases hstep
  | commit p =>
    simp only [World.step] at hstep
    split at hstep <;> cases hstep
    rename_i hp
    exact own_worked hinv (by rw [hp]; rfl) (by simp) configFile
  | enter p =>
    simp only [World.step] at hstep
    split at hstep
    · rename_i hp hlock
      split at hstep <;> cases hstep
      · exact own_become hown (by simp)
      · rename_i hconfigured
        exact own_rollBack hinv hp (hinv.nobody hlock hcareful) htidy hconfigured
    · cases hstep
  | enterUnlocked p =>
    simp only [World.step] at hstep
    split at hstep
    · rename_i hp
      split at hstep <;> cases hstep
      · exact own_become hown (by simp)
      · rename_i hconfigured
        exact own_rollBack hinv hp hcareful htidy hconfigured
    · cases hstep
  | remove p path =>
    simp only [World.step] at hstep
    split at hstep
    · split at hstep <;> cases hstep
      refine own_keep hown (fun _ _ _ _ => id) fun k owner hk => ?_
      have hlookup : (Assoc.remove path w.files).lookup k = some owner := hk
      rw [lookup_remove] at hlookup
      split at hlookup
      · cases hlookup
      · exact hlookup
    · cases hstep

end

/-! ## Runs -/

section
variable {first w w' : World P}

/-- The states of the runs whose steps are careful. -/
inductive CarefulRun (first : World P) : World P → Prop
  | start : CarefulRun first first
  | next {w w' event} (run : CarefulRun first w) (careful : w.Careful event)
      (step : w.step event = some w') : CarefulRun first w'

/-- The states of the runs in which each rollback is also tidy. -/
inductive TidyRun (first : World P) : World P → Prop
  | start : TidyRun first first
  | next {w w' event} (run : TidyRun first w) (careful : w.Careful event) (tidy : w.Tidy event)
      (step : w.step event = some w') : TidyRun first w'

theorem TidyRun.careful (hrun : TidyRun first w) : CarefulRun first w := by
  induction hrun with
  | start => exact .start
  | next _ hcareful _ hstep ih => exact .next ih hcareful hstep

omit [DecidableEq P] in
/-- A root holds a configuration, or nothing a rollback could remove. -/
def FreshOrDeployed (w : World P) : Prop :=
  w.configured ∨ ∀ path, rollable path → w.files.lookup path = none

omit [DecidableEq P] in
theorem Initial.inv (hfirst : first.Initial) (hroot : first.FreshOrDeployed) : first.Inv := by
  have hstage : ∀ {p : P} {stage : Stage}, first.stages p = stage → stage = .idle :=
    fun h => h.symm.trans (hfirst.stages _)
  constructor
  · intro p h
    rw [hfirst.stages p] at h
    cases h
  · intro p q h
    rw [hfirst.stages p] at h
    cases h
  · intro p path _ h
    cases hfirst.files path _ h
  · intro p preexisting h
    cases hstage h
  · intro p h
    rw [hfirst.stages p] at h
    cases h
  · intro p q h
    rw [hfirst.stages p] at h
    cases h
  · rintro path hrollable ⟨owner, howner, -⟩
    obtain hconfigured | hnone := hroot
    · refine ⟨hconfigured, fun p h => ?_⟩
      rw [hfirst.stages p] at h
      cases h
    · rw [hnone path hrollable] at howner
      cases howner
  · intro p wrote h
    cases hstage h
  · intro p preexisting h
    rw [hfirst.stages p] at h
    cases h

theorem CarefulRun.inv (hfirst : first.Initial) (hroot : first.FreshOrDeployed)
    (hrun : CarefulRun first w) : w.Inv := by
  induction hrun with
  | start => exact hfirst.inv hroot
  | next _ hcareful hstep ih => exact ih.step hcareful hstep

theorem TidyRun.own (hfirst : first.Initial) (hroot : first.FreshOrDeployed)
    (hrun : TidyRun first w) : w.Own := by
  induction hrun with
  | start =>
    intro p preexisting committed locked h
    rw [hfirst.stages p] at h
    cases h
  | next hrun hcareful htidy hstep ih =>
    exact ih.step (hrun.careful.inv hfirst hroot) hcareful htidy hstep

theorem rollsBack_rollable {preexisting : PreexistingState} {path : String}
    (h : rollsBack preexisting path) :
    rollable path ∨ path = sbctlBinary ∧ preexisting.managementBinary = false := by
  simp only [rollsBack, Bool.or_eq_true, Bool.and_eq_true, Bool.not_eq_true'] at h
  obtain ⟨hlisted, hours⟩ | ⟨-, hremovable⟩ := h
  · by_cases hbinary : path = sbctlBinary
    · refine Or.inr ⟨hbinary, ?_⟩
      simp only [predatesTransaction, Bool.or_eq_false_iff, Bool.and_eq_false_iff] at hours
      obtain hnot | hne := hours.2
      · exact hnot
      · simp [hbinary] at hne
    · refine Or.inl ?_
      rw [rollable, hlisted]
      simp [hbinary]
  · refine Or.inl ?_
    rw [rollable, hremovable, Bool.or_true]

omit [DecidableEq P] in
/-- A file that a rollback finds is one that every rollback removes. -/
theorem Inv.rollable_of_found (hinv : w.Inv) {p : P} {preexisting : PreexistingState}
    {committed locked : Bool} {path : String} {owner : Option P}
    (hp : w.stages p = .rollingBack preexisting committed locked)
    (hpath : rollsBack preexisting path) (howner : w.files.lookup path = some owner) :
    rollable path := by
  obtain hrollable | ⟨rfl, hbinary⟩ := rollsBack_rollable hpath
  · exact hrollable
  · rw [hinv.binary p preexisting (by rw [hp]; rfl) hbinary] at howner
    cases howner

omit [DecidableEq P] in
/-- A rollback removes no file of a deployment that was committed, or from before. -/
def SparesCommitted (w : World P) : Prop :=
  ∀ p preexisting committed locked path owner,
    w.stages p = .rollingBack preexisting committed locked → rollsBack preexisting path →
    w.files.lookup path = some owner → ∃ r, owner = some r ∧ w.stages r ≠ .ended true

/-- In a careful run no rollback removes a file of a committed deployment. Where
each rollback also begins with no files of others that have given up, it removes
the files of its own installation only. -/
theorem careful_installs_spare (hfirst : first.Initial) (hroot : first.FreshOrDeployed) :
    (∀ w, CarefulRun first w → w.SparesCommitted) ∧ ∀ w, TidyRun first w → w.SparesOthers := by
  constructor
  · intro w hrun p preexisting committed locked path owner hp hpath howner
    have hinv := hrun.inv hfirst hroot
    have hrollable := hinv.rollable_of_found hp hpath howner
    have hunstanding : ¬ w.Standing path :=
      fun h => (hinv.standing path hrollable h).2 p (by rw [hp]; rfl)
    by_contra hnone
    refine hunstanding ⟨owner, howner, fun r hr => ?_⟩
    by_contra hended
    exact hnone ⟨r, hr, hended⟩
  · intro w hrun p preexisting committed locked path owner hp hpath howner
    have hrollable := (hrun.careful.inv hfirst hroot).rollable_of_found hp hpath howner
    exact hrun.own hfirst hroot p preexisting committed locked hp path owner hrollable howner

/-! ## Before any rollback -/

omit [DecidableEq P] in
theorem careful_of_forward {event : Event P} (hstages : ∀ q, (w.stages q).forward)
    (hevent : event.forward) : w.Careful event ∧ w.Tidy event := by
  have hforward : ∀ q stage, w.stages q = stage → stage.forward := fun q _ h => h ▸ hstages q
  cases event with
  | write p path =>
    exact ⟨fun wrote hp => absurd (hforward p _ hp) (by simp [Stage.forward]), trivial⟩
  | acquire p => exact ⟨fun q _ _ hq => absurd (hforward q _ hq) (by simp [Stage.forward]), trivial⟩
  | enter p | enterUnlocked p | command p => cases hevent
  | _ => exact ⟨trivial, trivial⟩

theorem forward_step {event : Event P} (hstages : ∀ q, (w.stages q).forward)
    (hevent : event.forward) (hstep : w.step event = some w') : ∀ q, (w'.stages q).forward := by
  have hbecome : ∀ {p : P} {stage : Stage} {v : World P}, v.stages = w.stages → stage.forward →
      ∀ q, ((v.become p stage).stages q).forward := by
    intro p stage v hv hstage q
    rw [stages_become, hv]
    split
    · exact hstage
    · exact hstages q
  cases event with
  | preflight p | start p =>
    simp only [World.step] at hstep
    split at hstep <;> cases hstep
    exact hbecome rfl rfl
  | acquire p | look p =>
    simp only [World.step] at hstep
    split at hstep
    · split at hstep <;> cases hstep <;> exact hbecome rfl rfl
    · cases hstep
  | write p path =>
    simp only [World.step] at hstep
    split at hstep
    · split at hstep <;> cases hstep
      exact hstages
    · rename_i hp
      have hstage := hstages p
      rw [hp] at hstage
      cases hstage
    · cases hstep
  | commit p | succeed p | fail p | finish p | release p =>
    simp only [World.step] at hstep
    split at hstep <;> cases hstep <;> exact hbecome rfl rfl
  | remove p path =>
    simp only [World.step] at hstep
    split at hstep
    · split at hstep <;> cases hstep
      exact hstages
    · cases hstep
  | enter p | enterUnlocked p | command p => cases hevent

/-- Installations are careful and tidy as long as none has begun to roll back. -/
theorem TidyRun.forward {events : List (Event P)} (hrun : TidyRun first w)
    (hstages : ∀ q, (w.stages q).forward) (hevents : ∀ event ∈ events, event.forward)
    (hw : w.run events = some w') : TidyRun first w' ∧ ∀ q, (w'.stages q).forward := by
  induction events generalizing w with
  | nil =>
    cases hw
    exact ⟨hrun, hstages⟩
  | cons event events ih =>
    simp only [World.run, Option.bind_eq_some_iff] at hw
    obtain ⟨next, hstep, hrest⟩ := hw
    obtain ⟨hevent, hevents⟩ := List.forall_mem_cons.mp hevents
    obtain ⟨hcareful, htidy⟩ := careful_of_forward hstages hevent
    exact ih (hrun.next hcareful htidy hstep) (forward_step hstages hevent hstep) hevents hrest

/-- An empty root. -/
def empty (P : Type) : World P := ⟨[], none, fun _ => .idle⟩

omit [DecidableEq P] in
theorem empty_initial : (empty P).Initial where
  lock := rfl
  stages _ := rfl
  files _ _ h := by cases h

/-- Two installations start beside each other. One fails before it has written
anything, and the other after it has committed. -/
def failedBoth : List (Event Bool) :=
  [.preflight false, .preflight true, .start true, .start false, .acquire true, .fail true,
    .acquire false, .write false sbctlUnit, .commit false, .look true, .fail false, .look false]

/-- The second one rolls back, and what it finds are its own files. -/
theorem careful_installs_spare_beside : ∃ w w' : World Bool,
    (empty Bool).run failedBoth = some w ∧ w.step (.enter false) = some w' ∧
      w'.stages false = .rollingBack (preexistingState (empty Bool).files) true true ∧
      (w'.stages true).gaveUp ∧ w'.files.map Prod.snd = [some false, some false] ∧
      w'.SparesCommitted ∧ w'.SparesOthers := by
  have hrun : ((empty Bool).run failedBoth).any (fun w =>
      (w.step (.enter false)).any fun w' =>
        decide (w.files.map Prod.snd = [some false, some false]) &&
        (decide (w'.stages false = .rollingBack (preexistingState (empty Bool).files) true true) &&
        ((w'.stages true).gaveUp && decide (w'.files.map Prod.snd = [some false, some false])))) =
      true := by
    decide +kernel
  obtain ⟨w, hw, hnext⟩ := (Option.any_eq_true _ _).mp hrun
  obtain ⟨w', hstep, hstate⟩ := (Option.any_eq_true _ _).mp hnext
  simp only [Bool.and_eq_true, decide_eq_true_eq] at hstate
  obtain ⟨hfiles, hstage, hgaveUp, hfiles'⟩ := hstate
  obtain ⟨htidy, hforward⟩ := TidyRun.start.forward (fun q => by rfl) (by decide) hw
  have hnone : ∀ q, q ≠ false → (w.stages q).gaveUp → ∀ path,
      w.files.lookup path ≠ some (some q) := by
    intro q hq _ path hpath
    have howner : some q ∈ w.files.map Prod.snd :=
      List.mem_map_of_mem (f := Prod.snd) (mem_of_lookup hpath)
    exact hq (by simpa [hfiles] using howner)
  have hcareful : ∀ q preexisting committed,
      w.stages q ≠ .rollingBack preexisting committed false := by
    intro q preexisting committed hq
    have hstage := hforward q
    rw [hq] at hstage
    cases hstage
  have hrun' : TidyRun (empty Bool) w' :=
    @TidyRun.next _ _ _ _ _ (.enter false) htidy hcareful hnone hstep
  obtain ⟨hcommitted, hothers⟩ :=
    careful_installs_spare (empty_initial (P := Bool)) (Or.inr fun _ _ => rfl)
  exact ⟨w, w', hw, hstep, hstage, hgaveUp, hfiles', hcommitted w' hrun'.careful, hothers w' hrun'⟩

/-! ## A command before the rollback -/

/-- An installation commits and fails, a command writes the configuration anew,
and the installation takes the lock to roll back. -/
def rewrittenBeforeRollback : List (Event Bool) :=
  [.preflight false, .start false, .acquire false, .commit false, .fail false,
    .command true, .write true configFile, .release true, .look false, .enter false]

theorem rollback_takes_newer_configuration : ¬ ∀ (P : Type) (_ : DecidableEq P) (first w : World P)
    (events : List (Event P)), first.Initial → first.run events = some w → w.SparesOthers := by
  intro hclaim
  have hrun : ((empty Bool).run rewrittenBeforeRollback).any (fun w =>
      decide (w.stages false = .rollingBack (preexistingState (empty Bool).files) true true) &&
        decide (w.files.lookup configFile = some (some true)) &&
        decide (w.stages true = .ended true)) = true := by decide +kernel
  obtain ⟨w, hw, hstate⟩ := (Option.any_eq_true _ _).mp hrun
  simp only [Bool.and_eq_true, decide_eq_true_eq] at hstate
  obtain ⟨⟨hstage, howner⟩, -⟩ := hstate
  have hspares := hclaim Bool _ (empty Bool) w _ empty_initial hw false _ _ _ configFile _ hstage
    (by decide +kernel) howner
  cases hspares

end

end World

end Installs

end Sbctl
