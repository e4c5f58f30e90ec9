import Sbctl.Lib.Assoc
import Sbctl.Lib.Snapshot
import Sbctl.Lib.Text
import Sbctl.Override

/-!
# The managed files

The cached artifacts, the configuration the running sing-box reads, and the
deployment configuration itself. A file is replaced as a whole, by a rename,
or not at all.

* `restoreReplaced_eq`, `restoreConfigTransactionLocked_eq`: the two rollback
  routines, where none of their writes fails, rewind what was saved.
-/

namespace Sbctl

open Text Assoc Snapshot

abbrev Bytes := List UInt8

/-- A cached artifact by its name on disk, which need not be a text. -/
inductive ManagedFile where
  | artifact (name : Bytes)
  | activeConfig
  | config
  deriving DecidableEq, Repr

structure Store where
  /-- The artifacts directory, in the order it is listed. -/
  artifacts : List (Bytes × Bytes)
  activeConfig : Option Bytes
  config : Option Bytes
  deriving DecidableEq, Repr

namespace Store

def read (store : Store) : ManagedFile → Option Bytes
  | .artifact name => store.artifacts.lookup name
  | .activeConfig => store.activeConfig
  | .config => store.config

def set : ManagedFile → Option Bytes → Store → Store
  | .artifact name, some contents, store =>
    { store with artifacts := put name contents store.artifacts }
  | .artifact name, none, store => { store with artifacts := remove name store.artifacts }
  | .activeConfig, contents, store => { store with activeConfig := contents }
  | .config, contents, store => { store with config := contents }

theorem read_set (store : Store) (file f : ManagedFile) (contents : Option Bytes) :
    (set file contents store).read f = if f = file then contents else store.read f := by
  cases file with
  | artifact name =>
    cases f with
    | artifact n => cases contents <;> simp [set, read, lookup_put, lookup_remove]
    | activeConfig | config => cases contents <;> simp [set, read]
  | activeConfig | config => cases f <;> simp [set, read]

instance : Cells Store ManagedFile Bytes where
  read := read
  set := set
  read_set := read_set

theorem set_none_of_absent {store : Store} {file : ManagedFile} (h : store.read file = none) :
    set file none store = store := by
  cases file with
  | artifact name =>
    have hfresh : name ∉ store.artifacts.map Prod.fst := by
      intro hm
      have hsome := lookup_isSome.mpr hm
      rw [show store.artifacts.lookup name = none from h] at hsome
      cases hsome
    have hkept : remove name store.artifacts = store.artifacts := by
      rw [remove, List.filter_eq_self]
      intro entry hentry
      have hne : entry.1 ≠ name := fun h => hfresh (h ▸ List.mem_map_of_mem hentry)
      simpa using hne
    simp [set, hkept]
  | activeConfig | config =>
    obtain ⟨artifacts, activeConfig, config⟩ := store
    cases h
    rfl

end Store

/-! ## File operations -/

inductive IoError where
  | notFound
  | other (message : String)
  deriving DecidableEq, Repr

/-- A name that is one component of a path. -/
def validateFileName (name : String) : Bool :=
  name ≠ "" && name ≠ "." && name ≠ ".." &&
    !name.toList.any fun c => c == '/' || c == '\\' || c == '\x00'

/-- Replaces a file, unless something keeps it from that. -/
def atomicWrite (fault : Option String) (file : ManagedFile) (contents : Bytes) (store : Store) :
    Except ConfigError Store :=
  match fault with
  | some message => .error (.storage message)
  | none => .ok (store.set file (some contents))

def writeArtifactLocked (fault : Option String) (name : String) (contents : Bytes)
    (store : Store) : Except ConfigError Store :=
  if validateFileName name then atomicWrite fault (.artifact (bytes name)) contents store
  else .error (.invalidValue "artifact name must be a single file name")

def removeFile (fault : Option String) (file : ManagedFile) (store : Store) :
    Except IoError Store :=
  match fault with
  | some message => .error (.other message)
  | none => if store.read file = none then .error .notFound else .ok (store.set file none)

def removeArtifact (fault : Option String) (name : String) (store : Store) :
    Except IoError Store :=
  if validateFileName name then removeFile fault (.artifact (bytes name)) store
  else .error (.other "managed name must be a single file name")

theorem atomicWrite_ok {fault : Option String} {file : ManagedFile} {contents : Bytes}
    {store written : Store} (h : atomicWrite fault file contents store = .ok written) :
    written = store.set file (some contents) := by
  unfold atomicWrite at h
  split at h <;> cases h
  rfl

theorem writeArtifactLocked_ok {fault : Option String} {name : String} {contents : Bytes}
    {store written : Store} (h : writeArtifactLocked fault name contents store = .ok written) :
    validateFileName name ∧ written = store.set (.artifact (bytes name)) (some contents) := by
  unfold writeArtifactLocked at h
  split at h
  · exact ⟨‹_›, atomicWrite_ok h⟩
  · cases h

theorem removeFile_ok {fault : Option String} {file : ManagedFile} {store removed : Store}
    (h : removeFile fault file store = .ok removed) : removed = store.set file none := by
  unfold removeFile at h
  split at h
  · cases h
  · split at h <;> cases h
    rfl

theorem removeArtifact_ok {fault : Option String} {name : String} {store removed : Store}
    (h : removeArtifact fault name store = .ok removed) :
    validateFileName name ∧ removed = store.set (.artifact (bytes name)) none := by
  unfold removeArtifact at h
  split at h
  · exact ⟨‹_›, removeFile_ok h⟩
  · cases h

theorem getD_removeFile (file : ManagedFile) (store : Store) :
    (removeFile none file store).toOption.getD store = store.set file none := by
  simp only [removeFile]
  split
  · exact (Store.set_none_of_absent ‹_›).symm
  · rfl

/-! ## Rollback -/

/-- Names of artifacts with the contents they had. -/
abbrev PriorArtifacts := List (String × Option Bytes)

/-- Whether the active configuration took part in the attempted writes, and
what it held before. -/
inductive ActiveConfigRollback where
  | untouched
  | restore (prior : Option Bytes)
  deriving DecidableEq, Repr

/-- Puts one artifact after the other back. What fails is passed over. -/
def restoreArtifacts (fault : Nat → Option String) : Nat → PriorArtifacts → Store → Store
  | _, [], store => store
  | n, (name, some prior) :: rest, store =>
    restoreArtifacts fault (n + 1) rest
      ((writeArtifactLocked (fault n) name prior store).toOption.getD store)
  | n, (name, none) :: rest, store =>
    restoreArtifacts fault (n + 1) rest
      ((removeArtifact (fault n) name store).toOption.getD store)

/-- The rollback after a write failed. `fault` says which of its own writes
fail. -/
def restoreReplaced (fault : Nat → Option String) (priorArtifacts : PriorArtifacts)
    (active : ActiveConfigRollback) (store : Store) : Store :=
  let store := restoreArtifacts fault 0 priorArtifacts.reverse store
  let last := fault priorArtifacts.length
  match active with
  | .untouched => store
  | .restore (some priorActive) =>
    (atomicWrite last .activeConfig priorActive store).toOption.getD store
  | .restore none => (removeFile last .activeConfig store).toOption.getD store

/-- What every file a transaction can replace held before it. -/
structure DeploymentSnapshot where
  config : Option Bytes
  artifacts : PriorArtifacts
  activeConfig : Option Bytes
  deriving DecidableEq, Repr

/-- Puts the artifacts back up to the first that cannot be written. A file
that should be gone is removed if possible. -/
def restoreSnapshotArtifacts (fault : Nat → Option String) :
    Nat → PriorArtifacts → Store → Store × Except SubscriptionError Unit
  | _, [], store => (store, .ok ())
  | n, (name, some prior) :: rest, store =>
    match writeArtifactLocked (fault n) name prior store with
    | .error error => (store, .error (.storage error))
    | .ok store => restoreSnapshotArtifacts fault (n + 1) rest store
  | n, (name, none) :: rest, store =>
    restoreSnapshotArtifacts fault (n + 1) rest
      ((removeArtifact (fault n) name store).toOption.getD store)

/-- Puts one file back. A file that is already gone need not be removed. -/
def restoreFile (fault : Option String) (file : ManagedFile) (prior : Option Bytes)
    (store : Store) : Except SubscriptionError Store :=
  match prior with
  | some contents => (atomicWrite fault file contents store).mapError .storage
  | none =>
    match removeFile fault file store with
    | .ok store => .ok store
    | .error .notFound => .ok store
    | .error (.other message) => .error (.storage (.storage message))

def restoreConfigTransactionLocked (fault : Nat → Option String) (snapshot : DeploymentSnapshot)
    (store : Store) : Store × Except SubscriptionError Unit :=
  match restoreSnapshotArtifacts fault 0 snapshot.artifacts.reverse store with
  | (store, .error error) => (store, .error error)
  | (store, .ok ()) =>
    match restoreFile (fault snapshot.artifacts.length) .activeConfig snapshot.activeConfig store with
    | .error error => (store, .error error)
    | .ok store =>
      match restoreFile (fault (snapshot.artifacts.length + 1)) .config snapshot.config store with
      | .error error => (store, .error error)
      | .ok store => (store, .ok ())

/-! ## Rollbacks that succeed -/

/-- The files the entries stand for, without the names no operation accepts. -/
def PriorArtifacts.saved (artifacts : PriorArtifacts) : Saved ManagedFile Bytes :=
  (artifacts.filter fun entry => validateFileName entry.1).map fun entry =>
    (.artifact (bytes entry.1), entry.2)

def ActiveConfigRollback.saved : ActiveConfigRollback → Saved ManagedFile Bytes
  | .untouched => []
  | .restore prior => [(.activeConfig, prior)]

def DeploymentSnapshot.saved (snapshot : DeploymentSnapshot) : Saved ManagedFile Bytes :=
  PriorArtifacts.saved snapshot.artifacts.reverse ++
    [(.activeConfig, snapshot.activeConfig), (.config, snapshot.config)]

section
variable {fault : Nat → Option String} (h : ∀ i, fault i = none)
include h

theorem restoreArtifacts_eq (n : Nat) (artifacts : PriorArtifacts) (store : Store) :
    restoreArtifacts fault n artifacts store = artifacts.saved.rewind store := by
  induction artifacts generalizing n store with
  | nil => rfl
  | cons entry rest ih =>
    obtain ⟨name, prior⟩ := entry
    cases hname : validateFileName name with
    | true =>
      have hsaved : PriorArtifacts.saved ((name, prior) :: rest) =
          (.artifact (bytes name), prior) :: PriorArtifacts.saved rest := by
        simp [PriorArtifacts.saved, hname]
      rw [hsaved]
      cases prior with
      | some prior =>
        rw [restoreArtifacts, ih]
        simp [writeArtifactLocked, hname, h, atomicWrite, Except.toOption, Saved.rewind, Cells.set]
      | none =>
        rw [restoreArtifacts, ih, removeArtifact, if_pos hname, h, getD_removeFile]
        rfl
    | false =>
      have hsaved : PriorArtifacts.saved ((name, prior) :: rest) = PriorArtifacts.saved rest := by
        simp [PriorArtifacts.saved, hname]
      rw [hsaved]
      cases prior with
      | some prior =>
        rw [restoreArtifacts, ih]
        simp [writeArtifactLocked, hname, Except.toOption]
      | none =>
        rw [restoreArtifacts, ih]
        simp [removeArtifact, hname, Except.toOption]

theorem restoreReplaced_eq (priorArtifacts : PriorArtifacts) (active : ActiveConfigRollback)
    (store : Store) :
    restoreReplaced fault priorArtifacts active store =
      (PriorArtifacts.saved priorArtifacts.reverse ++ active.saved).rewind store := by
  rw [Saved.rewind_append, ← restoreArtifacts_eq h 0]
  cases active with
  | untouched => rfl
  | restore prior =>
    cases prior with
    | some prior => simp [restoreReplaced, h, atomicWrite, Except.toOption, ActiveConfigRollback.saved,
        Saved.rewind, Cells.set]
    | none =>
      rw [restoreReplaced, h]
      exact getD_removeFile .activeConfig _

theorem restoreSnapshotArtifacts_eq (n : Nat) (artifacts : PriorArtifacts) (store : Store)
    (hnames : ∀ entry ∈ artifacts, entry.2.isSome → validateFileName entry.1) :
    restoreSnapshotArtifacts fault n artifacts store =
      (restoreArtifacts fault n artifacts store, .ok ()) := by
  induction artifacts generalizing n store with
  | nil => rfl
  | cons entry rest ih =>
    obtain ⟨name, prior⟩ := entry
    have hrest := fun e he => hnames e (List.mem_cons_of_mem _ he)
    cases prior with
    | some prior =>
      have hname : validateFileName name := hnames _ List.mem_cons_self rfl
      rw [restoreSnapshotArtifacts, restoreArtifacts, writeArtifactLocked, if_pos hname, h]
      exact ih _ _ hrest
    | none =>
      rw [restoreSnapshotArtifacts, restoreArtifacts]
      exact ih _ _ hrest

theorem restoreFile_eq (i : Nat) (file : ManagedFile) (prior : Option Bytes) (store : Store) :
    restoreFile (fault i) file prior store = .ok (store.set file prior) := by
  rw [h]
  cases prior with
  | some contents => rfl
  | none =>
    simp only [restoreFile, removeFile]
    split
    · rename_i heq
      split at heq <;> cases heq
      rfl
    · rename_i heq
      split at heq <;> cases heq
      rw [Store.set_none_of_absent ‹_›]
    · rename_i heq
      split at heq <;> cases heq

theorem restoreConfigTransactionLocked_eq (snapshot : DeploymentSnapshot) (store : Store)
    (hnames : ∀ entry ∈ snapshot.artifacts, entry.2.isSome → validateFileName entry.1) :
    restoreConfigTransactionLocked fault snapshot store =
      (snapshot.saved.rewind store, .ok ()) := by
  have hnames : ∀ entry ∈ snapshot.artifacts.reverse, entry.2.isSome → validateFileName entry.1 :=
    fun entry he => hnames entry (List.mem_reverse.mp he)
  simp only [restoreConfigTransactionLocked, restoreSnapshotArtifacts_eq h _ _ _ hnames,
    restoreFile_eq h, restoreArtifacts_eq h, DeploymentSnapshot.saved, Saved.rewind_append]
  rfl

end

end Sbctl
