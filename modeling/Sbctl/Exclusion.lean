import Sbctl.Install
import Sbctl.Lib.NamedLock
import Sbctl.Lib.Assoc

/-!
# Exclusion by the operation lock

The lock file lies in the data directory and is opened through it. Processes
take and drop the lock, roll a failed installation back, and uninstall; opening,
locking, removing and creating are steps of their own.

* `exclusion_while_unused`: the lock excludes in every run in which a purge
  removes the lock file only while nobody has it open.
-/

namespace Sbctl

namespace OperationLock

/-! ## Processes and the directory -/

def lockName : String := ".operation.lock"

inductive RollbackStage where
  | files
  | emptying
  | pruning
  deriving DecidableEq

inductive PurgeStage where
  | configuration
  | opening
  | emptying (directory : Nat)
  deriving DecidableEq

/-- How far a process is. Directories and files go by inode. -/
inductive Process where
  | idle
  /-- The data directory was not there to be opened. -/
  | missing
  | made
  | pinned (directory : Nat)
  /-- No lock file was there to be opened. -/
  | absent (directory : Nat)
  /-- Waits for the lock of the file it opened. -/
  | opened (file : Nat)
  | holding (file : Nat)
  /-- Rolls back under the lock, or without it if that could not be had. -/
  | rollingBack (lock : Option Nat) (preexisting : PreexistingState) (stage : RollbackStage)
  | purging (stage : PurgeStage)
  deriving DecidableEq

namespace Process

def waitsFor : Process → Option Nat
  | .opened file => some file
  | _ => none

/-- The lock the process has a guard for. -/
def held : Process → Option Nat
  | .holding file => some file
  | .rollingBack lock _ _ => lock
  | _ => none

end Process

/-- The host: the directory at `var/lib/sbctl`, what each directory holds, who
has locked each file, and whether there is a configuration. -/
structure Host (P : Type) where
  directory : Option Nat
  entries : Nat → List (String × Nat)
  isFile : Nat → Bool
  locks : Nat → Option P
  config : Bool
  next : Nat
  processes : P → Process

inductive Event (P : Type) where
  | acquire (p : P)
  /-- The next operation of what the process is at. -/
  | advance (p : P)
  | drop (p : P)
  /-- A holder stores a file in the data directory. -/
  | write (p : P) (name : String)
  | configure (p : P)
  | rollback (p : P) (preexisting : PreexistingState)
  /-- Uninstalls with purge. -/
  | uninstall (p : P)
  /-- Removes an entry the listing of the data directory shows. -/
  | unlink (p : P) (name : String)
  /-- The listing has come to its end. -/
  | endListing (p : P)
  /-- The process gives up or ends, and its descriptors are closed. -/
  | abort (p : P)

namespace Host

variable {P : Type}

/-- The file the lock's name leads to. -/
def lockFile (h : Host P) : Option Nat :=
  h.directory.bind fun directory => (h.entries directory).lookup lockName

def become [DecidableEq P] (p : P) (process : Process) (h : Host P) : Host P :=
  { h with processes := Function.update h.processes p process }

def setEntries (directory : Nat) (entries : List (String × Nat)) (h : Host P) : Host P :=
  { h with entries := Function.update h.entries directory entries }

def removeEntry (directory : Nat) (name : String) (h : Host P) : Host P :=
  h.setEntries directory (Assoc.remove name (h.entries directory))

/-- Creates a file in a directory that still has its name. -/
def createEntry (directory : Nat) (name : String) (h : Host P) : Host P :=
  { h.setEntries directory (Assoc.put name h.next (h.entries directory)) with
    isFile := Function.update h.isFile h.next true
    next := h.next + 1 }

def makeDirectory (h : Host P) : Host P :=
  match h.directory with
  | some _ => h
  | none => { h with directory := some h.next, next := h.next + 1 }

/-- Removes the data directory if it is empty. -/
def removeDirectory (h : Host P) : Host P :=
  match h.directory with
  | some directory => if h.entries directory = [] then { h with directory := none } else h
  | none => h

def unlock (p : P) (h : Host P) : Host P :=
  match (h.processes p).held with
  | some file => { h with locks := Function.update h.locks file none }
  | none => h

/-- The listed files of the data directory itself. -/
def removeListed (preexisting : PreexistingState) (h : Host P) : Host P :=
  let h := if preexisting.config then h else { h with config := false }
  match h.directory with
  | some directory =>
    if preexisting.dataDirectory then h
    else (h.removeEntry directory "ownership").removeEntry directory "state.json"
  | none => h

def marked (h : Host P) : Bool :=
  match h.directory with
  | some directory => ((h.entries directory).lookup "ownership").isSome
  | none => false

/-- Opens the lock file in a directory that was opened before, or finds none. -/
def openLock [DecidableEq P] (p : P) (directory : Nat) (h : Host P) : Host P :=
  match (h.entries directory).lookup lockName with
  | some file => if h.isFile file then h.become p (.opened file) else h.become p .idle
  | none => h.become p (.absent directory)

/-- Creates the lock file, unless the directory is gone or has one by now. -/
def createLock [DecidableEq P] (p : P) (directory : Nat) (h : Host P) : Host P :=
  if h.directory ≠ some directory then h.become p .idle
  else
    match (h.entries directory).lookup lockName with
    | some _ => h.become p (.pinned directory)
    | none => (h.createEntry directory lockName).become p (.opened h.next)

def advance [DecidableEq P] (p : P) (h : Host P) : Option (Host P) :=
  match h.processes p with
  | .missing => some (h.makeDirectory.become p .made)
  | .made =>
    match h.directory with
    | some directory => some (h.become p (.pinned directory))
    | none => some (h.become p .idle)
  | .pinned directory => some (h.openLock p directory)
  | .absent directory => some (h.createLock p directory)
  | .opened file =>
    if h.locks file = none then
      some ({ h with locks := Function.update h.locks file (some p) }.become p (.holding file))
    else none
  | .rollingBack lock preexisting .files =>
    some ((h.removeListed preexisting).become p (.rollingBack lock preexisting
      (if preexisting.dataDirectory then .pruning else .emptying)))
  | .rollingBack (some file) _ .pruning => some (h.removeDirectory.become p (.holding file))
  | .rollingBack none _ .pruning => some (h.removeDirectory.become p .idle)
  | .purging .configuration => some ({ h with config := false }.become p (.purging .opening))
  | .purging .opening =>
    match h.directory with
    | some directory => some (h.become p (.purging (.emptying directory)))
    | none => some (h.become p .idle)
  | _ => none

def step [DecidableEq P] (h : Host P) : Event P → Option (Host P)
  | .acquire p =>
    match h.processes p, h.directory with
    | .idle, some directory => some (h.become p (.pinned directory))
    | .idle, none => some (h.become p .missing)
    | _, _ => none
  | .advance p => h.advance p
  | .drop p =>
    match h.processes p with
    | .holding _ => some ((h.unlock p).become p .idle)
    | _ => none
  | .write p name =>
    match h.processes p, h.makeDirectory.directory with
    | .holding _, some directory =>
      if name = lockName then none else some (h.makeDirectory.createEntry directory name)
    | _, _ => none
  | .configure p =>
    match h.processes p with
    | .holding _ => some { h with config := true }
    | _ => none
  | .rollback p preexisting =>
    match h.processes p with
    | .holding file => some (h.become p (.rollingBack (some file) preexisting .files))
    | .idle => some (h.become p (.rollingBack none preexisting .files))
    | _ => none
  | .uninstall p =>
    match h.processes p with
    | .idle => if h.config ∧ h.marked then some (h.become p (.purging .configuration)) else none
    | _ => none
  | .unlink p name =>
    match h.processes p, h.directory with
    | .rollingBack _ _ .emptying, some directory =>
      if name = lockName then none else some (h.removeEntry directory name)
    | .purging (.emptying directory), _ => some (h.removeEntry directory name)
    | _, _ => none
  | .endListing p =>
    match h.processes p with
    | .rollingBack lock preexisting .emptying =>
      some (h.become p (.rollingBack lock preexisting .pruning))
    | .purging (.emptying _) => some (h.removeDirectory.become p .idle)
    | _ => none
  | .abort p => some ((h.unlock p).become p .idle)

def run [DecidableEq P] : Host P → List (Event P) → Option (Host P)
  | h, [] => some h
  | h, event :: rest => (h.step event).bind fun h => run h rest

/-- A root before anything of it is at work, whatever is in it. -/
structure Initial (h : Host P) : Prop where
  idle : ∀ p, h.processes p = .idle
  unnamed : ∀ directory, h.directory ≠ some directory → h.entries directory = []
  directory_lt : ∀ directory, h.directory = some directory → directory < h.next
  entry_lt : ∀ directory name file, (h.entries directory).lookup name = some file → file < h.next

/-- At most one process is between taking the lock and dropping its guard. -/
def Exclusive (h : Host P) : Prop :=
  ∀ p q, (h.processes p).held.isSome → (h.processes q).held.isSome → p = q

/-- A purge removes the lock file only while no process has it open. -/
def Unused (h : Host P) : Event P → Prop
  | .unlink p name => ∀ directory, h.processes p = .purging (.emptying directory) →
      name = lockName → ∀ file, (h.entries directory).lookup lockName = some file →
        ∀ q, (h.processes q).waitsFor ≠ some file ∧ (h.processes q).held ≠ some file
  | _ => True

/-! ## What the operations keep -/

/-- What the lock's name leads to, and who waits for and holds what. -/
def abstract (h : Host P) : NamedLock.State P Nat where
  named := h.lockFile
  opened p := (h.processes p).waitsFor
  held p := (h.processes p).held

/-- A directory without a name is empty, numbers in use are taken, and guards
have the lock of their file. -/
structure Inv (h : Host P) : Prop where
  unnamed : ∀ directory, h.directory ≠ some directory → h.entries directory = []
  directory_lt : ∀ directory, h.directory = some directory → directory < h.next
  entry_lt : ∀ directory name file, (h.entries directory).lookup name = some file → file < h.next
  locked : ∀ p file, (h.processes p).held = some file → h.locks file = some p

/-- Only the data directory and what is in it differ, and the lock's name leads
where it led. -/
structure Tidied (h h' : Host P) : Prop where
  inv : h.Inv → h'.Inv
  processes : h'.processes = h.processes
  lockFile : h.Inv → h'.lockFile = h.lockFile

variable {h h' h'' : Host P}

theorem Tidied.refl (h : Host P) : Tidied h h := ⟨id, rfl, fun _ => rfl⟩

theorem Tidied.trans (ht : Tidied h h') (ht' : Tidied h' h'') : Tidied h h'' where
  inv hinv := ht'.inv (ht.inv hinv)
  processes := ht'.processes.trans ht.processes
  lockFile hinv := (ht'.lockFile (ht.inv hinv)).trans (ht.lockFile hinv)

theorem Tidied.abstract (ht : Tidied h h') (hinv : h.Inv) : h'.abstract = h.abstract := by
  simp only [Host.abstract, ht.processes, ht.lockFile hinv]

theorem tidied_config (h : Host P) (config : Bool) : Tidied h { h with config := config } :=
  ⟨fun hinv => ⟨hinv.unnamed, hinv.directory_lt, hinv.entry_lt, hinv.locked⟩, rfl, fun _ => rfl⟩

theorem entries_removeEntry (h : Host P) (directory k : Nat) (name : String) :
    (h.removeEntry directory name).entries k =
      if k = directory then Assoc.remove name (h.entries directory) else h.entries k := by
  simp [removeEntry, setEntries, Function.update_apply]

theorem lookup_removeEntry (h : Host P) (directory k : Nat) (name key : String) :
    ((h.removeEntry directory name).entries k).lookup key =
      if k = directory ∧ key = name then none else (h.entries k).lookup key := by
  rw [entries_removeEntry]
  by_cases hk : k = directory
  · subst hk
    simp [Assoc.lookup_remove]
  · simp [hk]

theorem Inv.removeEntry (hinv : h.Inv) (directory : Nat) (name : String) :
    (h.removeEntry directory name).Inv where
  unnamed := by
    intro k hk
    rw [entries_removeEntry]
    split
    · rename_i heq
      rw [← heq, hinv.unnamed k hk]
      rfl
    · exact hinv.unnamed k hk
  directory_lt := hinv.directory_lt
  entry_lt := by
    intro k key file hfile
    rw [lookup_removeEntry] at hfile
    split at hfile
    · cases hfile
    · exact hinv.entry_lt k key file hfile
  locked := hinv.locked

theorem tidied_removeEntry (h : Host P) (directory : Nat) {name : String} (hname : name ≠ lockName) :
    Tidied h (h.removeEntry directory name) where
  inv hinv := hinv.removeEntry directory name
  processes := rfl
  lockFile _ := by
    change h.directory.bind _ = h.directory.bind _
    congr 1
    funext k
    rw [lookup_removeEntry, if_neg]
    intro hk
    exact hname hk.2.symm

theorem lookup_createEntry (h : Host P) (directory k : Nat) (name key : String) :
    ((h.createEntry directory name).entries k).lookup key =
      if k = directory ∧ key = name then some h.next else (h.entries k).lookup key := by
  by_cases hk : k = directory
  · subst hk
    simp [createEntry, setEntries, Assoc.lookup_put]
  · simp [createEntry, setEntries, hk]

theorem Inv.createEntry (hinv : h.Inv) {directory : Nat} (hdirectory : h.directory = some directory)
    (name : String) : (h.createEntry directory name).Inv where
  unnamed := by
    intro k hk
    have hne : k ≠ directory := by
      intro heq
      exact hk (heq ▸ hdirectory)
    have hentries : (h.createEntry directory name).entries k = h.entries k := by
      simp [Host.createEntry, setEntries, hne]
    rw [hentries]
    exact hinv.unnamed k hk
  directory_lt k hk := Nat.lt_succ_of_lt (hinv.directory_lt k hk)
  entry_lt := by
    intro k key file hfile
    rw [lookup_createEntry] at hfile
    split at hfile
    · cases hfile
      exact Nat.lt_succ_self _
    · exact Nat.lt_succ_of_lt (hinv.entry_lt k key file hfile)
  locked := hinv.locked

theorem tidied_createEntry {directory : Nat} (hdirectory : h.directory = some directory)
    {name : String} (hname : name ≠ lockName) : Tidied h (h.createEntry directory name) where
  inv hinv := hinv.createEntry hdirectory name
  processes := rfl
  lockFile _ := by
    change h.directory.bind _ = h.directory.bind _
    congr 1
    funext k
    rw [lookup_createEntry, if_neg]
    intro hk
    exact hname hk.2.symm

theorem tidied_makeDirectory (h : Host P) : Tidied h h.makeDirectory := by
  unfold makeDirectory
  split
  · exact Tidied.refl h
  · rename_i hnone
    have hempty : h.Inv → ∀ k, h.entries k = [] := by
      intro hinv k
      apply hinv.unnamed
      simp [hnone]
    refine ⟨?_, rfl, ?_⟩
    · intro hinv
      refine ⟨fun k _ => hempty hinv k, ?_, ?_, hinv.locked⟩
      · intro k hk
        cases hk
        exact Nat.lt_succ_self _
      · intro k key file hfile
        exact Nat.lt_succ_of_lt (hinv.entry_lt k key file hfile)
    · intro hinv
      simp only [lockFile, hnone, Option.bind_some, Option.bind_none]
      rw [hempty hinv]
      rfl

theorem tidied_removeDirectory (h : Host P) : Tidied h h.removeDirectory := by
  unfold removeDirectory
  split
  · rename_i directory hdirectory
    split
    · rename_i hempty
      refine ⟨?_, rfl, ?_⟩
      · intro hinv
        have hunnamed : ∀ k, h.entries k = [] := by
          intro k
          by_cases hk : h.directory = some k
          · rw [hdirectory] at hk
            cases hk
            exact hempty
          · exact hinv.unnamed k hk
        exact ⟨fun k _ => hunnamed k, by simp, hinv.entry_lt, hinv.locked⟩
      · intro _
        simp only [lockFile, hdirectory, Option.bind_some, Option.bind_none]
        rw [hempty]
        rfl
    · exact Tidied.refl h
  · exact Tidied.refl h

/-- The files a rollback names are others than the lock file. -/
theorem tidied_removeListed (h : Host P) (preexisting : PreexistingState) :
    Tidied h (h.removeListed preexisting) := by
  have hconfig : Tidied h (if preexisting.config then h else { h with config := false }) := by
    split
    · exact Tidied.refl h
    · exact tidied_config h false
  unfold removeListed
  apply hconfig.trans
  generalize (if preexisting.config then h else { h with config := false }) = h
  dsimp only
  split
  · split
    · exact Tidied.refl h
    · exact (tidied_removeEntry h _ (by decide)).trans (tidied_removeEntry _ _ (by decide))
  · exact Tidied.refl h

theorem Initial.inv (hfirst : h.Initial) : h.Inv where
  unnamed := hfirst.unnamed
  directory_lt := hfirst.directory_lt
  entry_lt := hfirst.entry_lt
  locked := by
    intro p file hp
    rw [hfirst.idle] at hp
    cases hp

theorem Initial.sound (hfirst : h.Initial) : NamedLock.Sound h.abstract := by
  have hnothing : ∀ p file, ¬ h.abstract.HasOpen p file := by
    intro p file hp
    simp [NamedLock.State.HasOpen, abstract, hfirst.idle p, Process.waitsFor, Process.held] at hp
  refine ⟨fun hp => absurd hp (hnothing _ _), ?_⟩
  intro p q file hp
  exact absurd (.inr hp) (hnothing p file)

/-! ## What a step can do -/

variable [DecidableEq P]

theorem abstract_become (h : Host P) (p : P) (process : Process) :
    (h.become p process).abstract = h.abstract.put p process.waitsFor process.held := by
  simp only [abstract, become, NamedLock.State.put, lockFile, Function.update_apply,
    NamedLock.State.mk.injEq, true_and]
  constructor
  · funext q
    rw [Function.update_apply]
    split <;> rfl
  · funext q
    rw [Function.update_apply]
    split <;> rfl

theorem Inv.become (hinv : h.Inv) {p : P} {process : Process}
    (hlocked : ∀ file, process.held = some file → h.locks file = some p) :
    (h.become p process).Inv where
  unnamed := hinv.unnamed
  directory_lt := hinv.directory_lt
  entry_lt := hinv.entry_lt
  locked := by
    intro q file hq
    simp only [Host.become, Function.update_apply] at hq
    split at hq
    · rename_i heq
      rw [heq]
      exact hlocked file hq
    · exact hinv.locked q file hq

/-- A step keeps the invariant, and is a step of the lock behind the name. -/
structure Keeps (h h' : Host P) : Prop where
  inv : h'.Inv
  step : NamedLock.Step h.abstract h'.abstract

/-- A process goes on without the lock, after an operation on the directory. -/
theorem Tidied.keeps_leave (ht : Tidied h h') (hinv : h.Inv) (p : P) {process : Process}
    (hwaits : process.waitsFor = none) (hheld : process.held = none) :
    Keeps h (h'.become p process) where
  inv := (ht.inv hinv).become (by
    intro file hfile
    rw [hheld] at hfile
    cases hfile)
  step := by
    rw [abstract_become, hwaits, hheld, ht.abstract hinv]
    exact .leave p

/-- A process goes on with the lock it has. -/
theorem Tidied.keeps_held (ht : Tidied h h') (hinv : h.Inv) {p : P} {process : Process}
    (hwaits : process.waitsFor = (h.processes p).waitsFor)
    (hheld : process.held = (h.processes p).held) : Keeps h (h'.become p process) where
  inv := (ht.inv hinv).become (by
    intro file hfile
    apply (ht.inv hinv).locked
    rw [ht.processes, ← hheld, hfile])
  step := by
    have hsame : h.abstract.put p process.waitsFor process.held = h.abstract := by
      rw [hwaits, hheld]
      exact NamedLock.State.put_self h.abstract p
    rw [abstract_become, ht.abstract hinv, hsame]
    exact .stay

theorem Tidied.keeps (ht : Tidied h h') (hinv : h.Inv) : Keeps h h' where
  inv := ht.inv hinv
  step := by
    rw [ht.abstract hinv]
    exact .stay

theorem keeps_openLock (hinv : h.Inv) (p : P) (directory : Nat) :
    Keeps h (h.openLock p directory) := by
  unfold openLock
  split
  · rename_i file hfile
    split
    · -- the directory still has its name, for it is not empty
      have hnamed : h.lockFile = some file := by
        by_cases hdirectory : h.directory = some directory
        · simpa [lockFile, hdirectory] using hfile
        · rw [hinv.unnamed directory hdirectory] at hfile
          cases hfile
      refine ⟨hinv.become (by simp [Process.held]), ?_⟩
      rw [abstract_become]
      exact .find p file hnamed
    · exact (Tidied.refl h).keeps_leave hinv p rfl rfl
  · exact (Tidied.refl h).keeps_leave hinv p rfl rfl

theorem keeps_createLock (hinv : h.Inv) (p : P) (directory : Nat) :
    Keeps h (h.createLock p directory) := by
  unfold createLock
  split
  · exact (Tidied.refl h).keeps_leave hinv p rfl rfl
  · rename_i hdirectory
    have hdirectory := not_not.mp hdirectory
    split
    · exact (Tidied.refl h).keeps_leave hinv p rfl rfl
    · rename_i hfile
      refine ⟨(hinv.createEntry hdirectory lockName).become (by simp [Process.held]), ?_⟩
      have hnone : h.abstract.named = none := by
        change h.lockFile = none
        simp [lockFile, hdirectory, hfile]
      have hsome : (h.createEntry directory lockName).lockFile = some h.next := by
        have hdirectory' : (h.createEntry directory lockName).directory = some directory :=
          hdirectory
        simp [lockFile, hdirectory', lookup_createEntry]
      have hstep := NamedLock.Step.create (s := h.abstract) p h.next hnone
      have habstract : ((h.createEntry directory lockName).become p (.opened h.next)).abstract =
          { h.abstract.put p (some h.next) none with named := some h.next } := by
        rw [abstract_become]
        simp only [NamedLock.State.put, abstract, hsome]
        rfl
      rw [habstract]
      exact hstep

theorem keeps_take (hinv : h.Inv) {p : P} {file : Nat} (hp : h.processes p = .opened file)
    (hfree : h.locks file = none) :
    Keeps h ({ h with locks := Function.update h.locks file (some p) }.become p
      (.holding file)) := by
  have hothers : ∀ q, (h.processes q).held ≠ some file := by
    intro q hq
    rw [hinv.locked q file hq] at hfree
    cases hfree
  have hinv' : ({ h with locks := Function.update h.locks file (some p) } : Host P).Inv := by
    refine ⟨hinv.unnamed, hinv.directory_lt, hinv.entry_lt, ?_⟩
    intro q k hq
    have hk : k ≠ file := by
      intro heq
      exact hothers q (heq ▸ hq)
    simpa [hk] using hinv.locked q k hq
  refine ⟨hinv'.become (by simp [Process.held]), ?_⟩
  rw [abstract_become]
  exact .take p file (by simp [abstract, hp, Process.waitsFor]) hothers

theorem Inv.unlock_leave (hinv : h.Inv) (p : P) : ((h.unlock p).become p .idle).Inv := by
  unfold unlock
  split
  · rename_i file hfile
    refine ⟨hinv.unnamed, hinv.directory_lt, hinv.entry_lt, ?_⟩
    intro q k hq
    simp only [Host.become, Function.update_apply] at hq ⊢
    split at hq
    · cases hq
    · rename_i hne
      rw [if_neg, hinv.locked q k hq]
      intro hk
      rw [hk] at hq
      have hsame := (hinv.locked p file hfile).symm.trans (hinv.locked q file hq)
      exact hne (Option.some.inj hsame).symm
  · exact hinv.become (by simp [Process.held])

theorem keeps_unlock (hinv : h.Inv) (p : P) : Keeps h ((h.unlock p).become p .idle) where
  inv := hinv.unlock_leave p
  step := by
    have hunlock : (h.unlock p).abstract = h.abstract := by
      unfold unlock
      split <;> rfl
    rw [abstract_become, hunlock]
    exact .leave p

theorem keeps_advance (hinv : h.Inv) {p : P} (hstep : h.advance p = some h') : Keeps h h' := by
  unfold advance at hstep
  split at hstep
  · cases hstep
    exact (tidied_makeDirectory h).keeps_leave hinv p rfl rfl
  · split at hstep <;> cases hstep
    · exact (Tidied.refl h).keeps_leave hinv p rfl rfl
    · exact (Tidied.refl h).keeps_leave hinv p rfl rfl
  · cases hstep
    exact keeps_openLock hinv p _
  · cases hstep
    exact keeps_createLock hinv p _
  · rename_i hp
    split at hstep <;> cases hstep
    rename_i hfree
    exact keeps_take hinv hp hfree
  · rename_i hp
    cases hstep
    exact (tidied_removeListed h _).keeps_held hinv (by simp [hp, Process.waitsFor])
      (by simp [hp, Process.held])
  · rename_i hp
    cases hstep
    exact (tidied_removeDirectory h).keeps_held hinv (by simp [hp, Process.waitsFor])
      (by simp [hp, Process.held])
  · cases hstep
    exact (tidied_removeDirectory h).keeps_leave hinv p rfl rfl
  · cases hstep
    exact (tidied_config h false).keeps_leave hinv p rfl rfl
  · split at hstep <;> cases hstep
    · exact (Tidied.refl h).keeps_leave hinv p rfl rfl
    · exact (Tidied.refl h).keeps_leave hinv p rfl rfl
  · cases hstep

/-- A purge takes the lock's name away, from a file that is open to nobody. -/
theorem keeps_unlink_lock (hinv : h.Inv) {directory : Nat}
    (hunused : ∀ file, (h.entries directory).lookup lockName = some file →
      ∀ q, (h.processes q).waitsFor ≠ some file ∧ (h.processes q).held ≠ some file) :
    Keeps h (h.removeEntry directory lockName) := by
  refine ⟨hinv.removeEntry directory lockName, ?_⟩
  by_cases hdirectory : h.directory = some directory
  · have hnone : (h.removeEntry directory lockName).lockFile = none := by
      have hdirectory' : (h.removeEntry directory lockName).directory = some directory := hdirectory
      simp [lockFile, hdirectory', lookup_removeEntry]
    have habstract : (h.removeEntry directory lockName).abstract =
        { h.abstract with named := none } := by
      simp only [abstract, hnone]
      rfl
    rw [habstract]
    apply NamedLock.Step.unname
    intro file hfile q hopen
    have hlookup : (h.entries directory).lookup lockName = some file := by
      simpa [abstract, lockFile, hdirectory] using hfile
    obtain ⟨hwaits, hheld⟩ := hunused file hlookup q
    rcases hopen with hopen | hopen
    · exact hwaits hopen
    · exact hheld hopen
  · -- a directory without a name has nothing to lose
    have hsame : (h.removeEntry directory lockName).lockFile = h.lockFile := by
      unfold lockFile
      change h.directory.bind _ = h.directory.bind _
      cases hnamed : h.directory with
      | none => rfl
      | some k =>
        have hk : k ≠ directory := by
          intro heq
          exact hdirectory (heq ▸ hnamed)
        simp [lookup_removeEntry, hk]
    have habstract : (h.removeEntry directory lockName).abstract = h.abstract := by
      simp only [abstract, hsame]
      rfl
    rw [habstract]
    exact .stay

theorem keeps_step (hinv : h.Inv) {event : Event P} (hunused : h.Unused event)
    (hstep : h.step event = some h') : Keeps h h' := by
  cases event with
  | acquire p =>
    simp only [step] at hstep
    split at hstep <;> cases hstep
    · exact (Tidied.refl h).keeps_leave hinv p rfl rfl
    · exact (Tidied.refl h).keeps_leave hinv p rfl rfl
  | advance p => exact keeps_advance hinv hstep
  | drop p =>
    simp only [step] at hstep
    split at hstep <;> cases hstep
    exact keeps_unlock hinv p
  | write p name =>
    simp only [step] at hstep
    split at hstep
    · split at hstep <;> cases hstep
      rename_i hdirectory hname
      exact ((tidied_makeDirectory h).trans (tidied_createEntry hdirectory hname)).keeps hinv
    · cases hstep
  | configure p =>
    simp only [step] at hstep
    split at hstep <;> cases hstep
    exact (tidied_config h true).keeps hinv
  | rollback p preexisting =>
    simp only [step] at hstep
    split at hstep <;> cases hstep
    · rename_i hp
      exact (Tidied.refl h).keeps_held hinv (by simp [hp, Process.waitsFor])
        (by simp [hp, Process.held])
    · exact (Tidied.refl h).keeps_leave hinv p rfl rfl
  | uninstall p =>
    simp only [step] at hstep
    split at hstep
    · split at hstep <;> cases hstep
      exact (Tidied.refl h).keeps_leave hinv p rfl rfl
    · cases hstep
  | unlink p name =>
    simp only [step] at hstep
    split at hstep
    · split at hstep <;> cases hstep
      rename_i hname
      exact (tidied_removeEntry h _ hname).keeps hinv
    · rename_i directory hp
      cases hstep
      by_cases hname : name = lockName
      · subst hname
        exact keeps_unlink_lock hinv (hunused directory hp rfl)
      · exact (tidied_removeEntry h directory hname).keeps hinv
    · cases hstep
  | endListing p =>
    simp only [step] at hstep
    split at hstep <;> cases hstep
    · rename_i hp
      exact (Tidied.refl h).keeps_held hinv (by simp [hp, Process.waitsFor])
        (by simp [hp, Process.held])
    · exact (tidied_removeDirectory h).keeps_leave hinv p rfl rfl
  | abort p =>
    cases hstep
    exact keeps_unlock hinv p

/-! ## Runs -/

/-- The states of the runs in which a purge removes the lock file only while it
is unused. -/
inductive UnusedRun (first : Host P) : Host P → Prop
  | start : UnusedRun first first
  | next {h h' event} (run : UnusedRun first h) (unused : h.Unused event)
      (step : h.step event = some h') : UnusedRun first h'

theorem UnusedRun.keeps {first : Host P} (hfirst : first.Initial) (hrun : UnusedRun first h) :
    h.Inv ∧ NamedLock.Sound h.abstract := by
  induction hrun with
  | start => exact ⟨hfirst.inv, hfirst.sound⟩
  | next _ hunused hstep ih =>
    have hkeeps := keeps_step ih.1 hunused hstep
    exact ⟨hkeeps.inv, ih.2.step hkeeps.step⟩

/-- While a purge removes the lock file only when no process has it open, at
most one process has a guard, whatever else is interleaved. -/
theorem exclusion_while_unused {first : Host P} (hfirst : first.Initial)
    (hrun : UnusedRun first h) : h.Exclusive := by
  intro p q hp hq
  exact (hrun.keeps hfirst).2.exclusive hp hq

theorem UnusedRun.run {first : Host P} {events : List (Event P)} (hrun : UnusedRun first h)
    (hunused : ∀ event ∈ events, ∀ h : Host P, h.Unused event) (hh : h.run events = some h') :
    UnusedRun first h' := by
  induction events generalizing h with
  | nil =>
    cases hh
    exact hrun
  | cons event events ih =>
    simp only [Host.run, Option.bind_eq_some_iff] at hh
    obtain ⟨h₁, hstep, hrest⟩ := hh
    have hnext := hrun.next (hunused event (List.mem_cons_self ..) h) hstep
    exact ih hnext (fun e he => hunused e (List.mem_cons_of_mem _ he)) hrest

/-- A deployment with its lock file, nobody at work on it. -/
def deployed : Host Nat where
  directory := some 0
  entries := Function.update (fun _ => []) 0 [(lockName, 1), ("ownership", 2)]
  isFile _ := true
  locks _ := none
  config := true
  next := 3
  processes _ := .idle

theorem deployed_initial : deployed.Initial where
  idle _ := rfl
  unnamed := by
    intro directory hdirectory
    have hne : directory ≠ 0 := by
      intro heq
      exact hdirectory (heq ▸ rfl)
    simp [deployed, hne]
  directory_lt := by simp [deployed]
  entry_lt := by
    intro directory name file hfile
    by_cases hdirectory : directory = 0
    · subst hdirectory
      simp only [deployed, Function.update_self, Assoc.lookup_cons_ite, List.lookup_nil] at hfile
      change file < 3
      split at hfile
      · cases hfile
        decide
      · split at hfile
        · cases hfile
          decide
        · cases hfile
    · simp [deployed, hdirectory] at hfile

/-- One process rolls back under the lock while another waits for it. -/
def rolledBackUnderWaiter : List (Event Nat) :=
  [.acquire 0, .advance 0, .advance 0, .acquire 1, .advance 1,
    .rollback 0 ⟨false, false, true⟩, .advance 0, .endListing 0, .advance 0, .drop 0, .advance 1]

theorem exclusion_while_unused_rollback : ∃ h, UnusedRun deployed h ∧
    (h.processes 1).held = some 1 ∧ h.Exclusive := by
  have hrun : (deployed.run rolledBackUnderWaiter).any
      (fun h => decide ((h.processes 1).held = some 1)) = true := by decide +kernel
  obtain ⟨h, hh, hheld⟩ := (Option.any_eq_true _ _).mp hrun
  have hunused : UnusedRun deployed h := by
    apply UnusedRun.start.run _ hh
    intro event hevent h
    simp only [rolledBackUnderWaiter, List.mem_cons, List.not_mem_nil, or_false] at hevent
    rcases hevent with rfl | rfl | rfl | rfl | rfl | rfl | rfl | rfl | rfl | rfl | rfl <;> trivial
  exact ⟨h, hunused, of_decide_eq_true hheld, exclusion_while_unused deployed_initial hunused⟩

/-! ## A purge under a transaction -/

/-- One process takes the lock, a second purges the deployment, a third takes a
lock of its own. -/
def purgedUnderHolder : List (Event Nat) :=
  [.acquire 0, .advance 0, .advance 0,
    .uninstall 1, .advance 1, .advance 1, .unlink 1 "ownership", .unlink 1 lockName,
    .endListing 1,
    .acquire 2, .advance 2, .advance 2, .advance 2, .advance 2, .advance 2]

theorem purge_parts_holders : ¬ ∀ (P : Type) (_ : DecidableEq P) (first h : Host P)
    (events : List (Event P)), first.Initial → first.run events = some h → h.Exclusive := by
  intro hclaim
  have hrun : (deployed.run purgedUnderHolder).any (fun h =>
      (h.processes 0).held.isSome && (h.processes 2).held.isSome) = true := by decide +kernel
  obtain ⟨h, hh, hheld⟩ := (Option.any_eq_true _ _).mp hrun
  rw [Bool.and_eq_true] at hheld
  exact absurd (hclaim Nat _ deployed h _ deployed_initial hh 0 2 hheld.1 hheld.2) (by decide)

end Host

end OperationLock

end Sbctl
