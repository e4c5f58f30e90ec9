import Sbctl.Store

/-!
# Configuration transactions

The deployment configuration, the artifacts generated from it and the active
sing-box configuration are replaced together. Everything is read and checked
before the first write; a write that fails rolls the others back.

* `applyTransactionLocked_error`, `regenerateLocked_error`: a transaction that
  fails leaves every file as it was;
* `applyTransactionLocked_ok`: the snapshot of a successful one covers every
  file it changed;
* `transaction_all_or_nothing`: both, with the restoration of that snapshot.
-/

namespace Sbctl

open Text Assoc Snapshot

def singBoxServerArtifact : String := "sing-box-server.json"
def singBoxFullArtifact : String := "subscription-sing-box-full.json"

/-- Artifacts by name. -/
abbrev Artifacts := List (String × String)

/-- The names this generator owns; any other file is left alone. -/
def isOwnedArtifact (name : String) : Bool :=
  startsWith name.toList "subscription-".toList || name == singBoxServerArtifact

/-- What the generator makes of a configuration. The server's is always among
it. -/
structure Generated where
  artifacts : Artifacts
  server : ∃ contents, artifacts.lookup singBoxServerArtifact = some contents
  owned : ∀ name ∈ artifacts.map Prod.fst, isOwnedArtifact name

/-- What a transaction meets outside the files it manages. A fault is the
message of an operation that fails. -/
structure Surroundings where
  lib : Libraries
  generatedArtifactsForKernel : DeploymentConfig → Except SubscriptionError Generated
  /-- `sing-box check`, where the binary is known. -/
  singBoxBin : Option (String → Except SubscriptionError Unit)
  clientCustomizationIsPresent : Except SubscriptionError Bool
  tomlFromStr : String → Option DeploymentConfig
  tomlToStringPretty : DeploymentConfig → Option String
  /-- Whether the artifacts directory can be listed. -/
  listable : Bool
  readFault : ManagedFile → Option String
  artifactFault : Nat → Option String
  activeFault : Option String
  configFault : Option String
  removalFault : Nat → Option String
  rollbackFault : Nat → Option String

def serverArtifact (artifacts : Artifacts) : Except SubscriptionError String :=
  match artifacts.lookup singBoxServerArtifact with
  | some contents => .ok contents
  | none => .error (.check "no generated sing-box server configuration")

def replaceServer (server : String) : Artifacts → Except SubscriptionError Artifacts
  | [] => .error .missingNodes
  | (name, contents) :: rest =>
    if name = singBoxServerArtifact then .ok ((name, server) :: rest)
    else (replaceServer server rest).map ((name, contents) :: ·)

/-- Puts a staged server configuration, if any, in the place of the generated
one. -/
def stageServer (stagedServer : Option String) (artifacts : Artifacts) :
    Except SubscriptionError Artifacts :=
  match stagedServer with
  | some server => replaceServer server artifacts
  | none => .ok artifacts

def isTemplateArtifact (name : String) : Bool :=
  (startsWith name.toList "subscription-sing-box-".toList && endsWith name.toList ".json".toList) ||
    (startsWith name.toList "subscription-clash".toList && endsWith name.toList ".yaml".toList)

/-- The artifacts on disk that the current ones supersede. -/
def staleArtifactNames (listable : Bool) (current : Artifacts) (clientsOnly : Bool)
    (store : Store) : List String :=
  if listable then
    (store.artifacts.map fun entry => toStringLossy entry.1).filter fun name =>
      (!clientsOnly || isTemplateArtifact name) && isOwnedArtifact name &&
        (current.lookup name).isNone
  else []

namespace Surroundings

variable (s : Surroundings)

def readOptionalFile (file : ManagedFile) (store : Store) :
    Except SubscriptionError (Option Bytes) :=
  match s.readFault file with
  | some message => .error (.artifact message)
  | none => .ok (store.read file)

/-- The active configuration, where it takes part. -/
def readActive (updateActiveConfig : Bool) (store : Store) :
    Except SubscriptionError (Option Bytes) :=
  if updateActiveConfig then s.readOptionalFile .activeConfig store else .ok none

def readArtifacts (store : Store) : List String → Except SubscriptionError PriorArtifacts
  | [] => .ok []
  | name :: rest => do
    let prior ← s.readOptionalFile (.artifact (bytes name)) store
    let priors ← readArtifacts store rest
    return (name, prior) :: priors

/-- Checks the client profile that carries the operator's customization. -/
def checkMerged (check : String → Except SubscriptionError Unit) (customized : Bool)
    (artifacts : Artifacts) : Except SubscriptionError Unit :=
  match artifacts.lookup singBoxFullArtifact with
  | some merged => if customized then check merged else .ok ()
  | none => .ok ()

/-- Writes the artifacts in order, up to the first that fails. -/
def writeArtifacts (fault : Nat → Option String) :
    Nat → Artifacts → Store → Store × Except ConfigError Unit
  | _, [], store => (store, .ok ())
  | n, (name, contents) :: rest, store =>
    match writeArtifactLocked (fault n) name (bytes contents) store with
    | .error error => (store, .error error)
    | .ok store => writeArtifacts fault (n + 1) rest store

/-- Removes artifacts in order, up to the first that cannot be removed. -/
def removeArtifacts (fault : Nat → Option String) : Nat → List String → Store → Store
  | _, [], store => store
  | n, name :: rest, store =>
    match removeArtifact (fault n) name store with
    | .error _ => store
    | .ok store => removeArtifacts fault (n + 1) rest store

/-- Failing to remove a superseded artifact is only warned about. -/
def removeStaleArtifactsInScope (current : Artifacts) (clientsOnly : Bool) (store : Store) : Store :=
  removeArtifacts s.removalFault 0 (staleArtifactNames s.listable current clientsOnly store) store

def replaceLocked (config : DeploymentConfig) (store : Store) : Except ConfigError Store := do
  validate s.lib config
  if store.config.isNone then .error .missing
  else
    match s.tomlToStringPretty config with
    | none => .error .serialize
    | some contents => atomicWrite s.configFault .config (bytes contents) store

/-! ## The transaction -/

/-- What a transaction has read and is going to write. -/
structure Plan where
  artifacts : Artifacts
  server : String
  priorArtifacts : PriorArtifacts
  priorActive : Option Bytes
  priorConfig : Option Bytes

namespace Plan

def artifactsChanged (plan : Plan) : Bool :=
  plan.priorArtifacts.any fun entry =>
    match plan.artifacts.lookup entry.1 with
    | none => true
    | some contents => entry.2 != some (bytes contents)

/-- A deployment without an active configuration is not synced: writing it is
the installation's step. -/
def needActiveSync (plan : Plan) (clientsOnly : Bool) : Bool :=
  !clientsOnly && plan.priorActive.isSome &&
    (plan.artifactsChanged || plan.priorActive != some (bytes plan.server))

def snapshot (plan : Plan) : DeploymentSnapshot where
  config := plan.priorConfig
  artifacts := plan.priorArtifacts
  activeConfig := plan.priorActive

/-- The rollback of the active configuration, once its write was attempted. -/
def activeRollback (plan : Plan) (clientsOnly : Bool) : ActiveConfigRollback :=
  if plan.needActiveSync clientsOnly then .restore plan.priorActive else .untouched

end Plan

def planTransaction (config : DeploymentConfig) (stagedServer : Option String)
    (clientsOnly : Bool) (store : Store) : Except SubscriptionError Plan := do
  (validate s.lib config).mapError SubscriptionError.storage
  let generated ← s.generatedArtifactsForKernel config
  let staged ← stageServer stagedServer generated.artifacts
  let server ← serverArtifact staged
  let artifacts := if clientsOnly then staged.filter fun a => isTemplateArtifact a.1 else staged
  let prior ← s.readArtifacts store (artifacts.map Prod.fst)
  let priorActive ← s.readOptionalFile .activeConfig store
  let priorConfig ← s.readOptionalFile .config store
  -- Superseded artifacts are part of the rollback point too.
  let stale ← s.readArtifacts store (staleArtifactNames s.listable artifacts clientsOnly store)
  return { artifacts, server, priorArtifacts := prior ++ stale, priorActive, priorConfig }

/-- The checks before the first write. -/
def checkPlan (config : DeploymentConfig) (clientsOnly : Bool) (plan : Plan) :
    Except SubscriptionError Unit :=
  match s.singBoxBin with
  | none => .error (.check "configuration change requires a sing-box binary for validation")
  | some check => do
    if clientsOnly then .ok () else check plan.server
    let templateChanged := ((plan.priorConfig.bind fromUtf8).bind s.tomlFromStr).any
      fun previous => previous.clientTemplate ≠ config.clientTemplate
    let customized ← s.clientCustomizationIsPresent
    checkMerged check (customized || !config.clientExtraRuleSets.isEmpty || templateChanged)
      plan.artifacts

/-- Writes the artifacts and the active configuration, or puts both back. -/
def publishPlan (clientsOnly : Bool) (plan : Plan) (store : Store) :
    Store × Except SubscriptionError Unit :=
  match writeArtifacts s.artifactFault 0 plan.artifacts store with
  | (store, .error error) =>
    (restoreReplaced s.rollbackFault plan.priorArtifacts .untouched store, .error (.storage error))
  | (store, .ok ()) =>
    if plan.needActiveSync clientsOnly then
      match atomicWrite s.activeFault .activeConfig (bytes plan.server) store with
      | .error error =>
        (restoreReplaced s.rollbackFault plan.priorArtifacts (.restore plan.priorActive) store,
          .error (.storage error))
      | .ok store => (store, .ok ())
    else (store, .ok ())

/-- Replaces the deployment configuration and prunes what is superseded. -/
def commitPlan (config : DeploymentConfig) (clientsOnly : Bool) (plan : Plan) (store : Store) :
    Store × Except SubscriptionError DeploymentSnapshot :=
  match s.replaceLocked config store with
  | .error error =>
    (restoreReplaced s.rollbackFault plan.priorArtifacts (plan.activeRollback clientsOnly) store,
      .error (.storage error))
  | .ok store =>
    (s.removeStaleArtifactsInScope plan.artifacts clientsOnly store, .ok plan.snapshot)

def applyTransactionLocked (config : DeploymentConfig) (stagedServer : Option String)
    (clientsOnly : Bool) (store : Store) : Store × Except SubscriptionError DeploymentSnapshot :=
  match s.planTransaction config stagedServer clientsOnly store with
  | .error error => (store, .error error)
  | .ok plan =>
    if plan.artifactsChanged || plan.needActiveSync clientsOnly then
      match s.checkPlan config clientsOnly plan with
      | .error error => (store, .error error)
      | .ok () =>
        match s.publishPlan clientsOnly plan store with
        | (store, .error error) => (store, .error error)
        | (store, .ok ()) => s.commitPlan config clientsOnly plan store
    else s.commitPlan config clientsOnly plan store

/-! ## Regeneration -/

/-- The checks a regeneration makes where the binary is known. -/
def checkRegenerated (config : DeploymentConfig) (artifacts : Artifacts) :
    Except SubscriptionError Unit :=
  match s.singBoxBin with
  | none => .ok ()
  | some check => do
    let server ← serverArtifact artifacts
    check server
    let customized ← s.clientCustomizationIsPresent
    checkMerged check (customized || !config.clientExtraRuleSets.isEmpty) artifacts

/-- Writes the regenerated files over the prior ones, or puts those back. -/
def writeRegenerated (artifacts : Artifacts) (updateActiveConfig : Bool) (prior : PriorArtifacts)
    (priorActive : Option Bytes) (store : Store) : Store × Except SubscriptionError Unit :=
  match writeArtifacts s.artifactFault 0 artifacts store with
  | (store, .error error) =>
    (restoreReplaced s.rollbackFault prior .untouched store, .error (.storage error))
  | (store, .ok ()) =>
    if updateActiveConfig then
      match serverArtifact artifacts with
      | .error error => (store, .error error)
      | .ok server =>
        match atomicWrite s.activeFault .activeConfig (bytes server) store with
        | .error error =>
          (restoreReplaced s.rollbackFault prior (.restore priorActive) store,
            .error (.storage error))
        | .ok store => (s.removeStaleArtifactsInScope artifacts false store, .ok ())
    else (s.removeStaleArtifactsInScope artifacts false store, .ok ())

def regenerateLocked (config : DeploymentConfig) (updateActiveConfig : Bool) (store : Store) :
    Store × Except SubscriptionError Unit :=
  let read : Except SubscriptionError (Generated × PriorArtifacts × Option Bytes) := do
    let generated ← s.generatedArtifactsForKernel config
    s.checkRegenerated config generated.artifacts
    let prior ← s.readArtifacts store (generated.artifacts.map Prod.fst)
    let priorActive ← s.readActive updateActiveConfig store
    return (generated, prior, priorActive)
  match read with
  | .error error => (store, .error error)
  | .ok (generated, prior, priorActive) =>
    s.writeRegenerated generated.artifacts updateActiveConfig prior priorActive store

end Surroundings

/-! ## What was read and what was written -/

/-- Every entry is what `store` held. -/
def PriorArtifacts.Of (artifacts : PriorArtifacts) (store : Store) : Prop :=
  ∀ entry ∈ artifacts, store.read (.artifact (bytes entry.1)) = entry.2

theorem PriorArtifacts.Of.saved {artifacts : PriorArtifacts} {store : Store}
    (h : artifacts.Of store) : (PriorArtifacts.saved artifacts).Of store := by
  intro entry hentry
  obtain ⟨prior, hprior, rfl⟩ := List.mem_map.mp hentry
  exact h prior (List.mem_filter.mp hprior).1

theorem covers_saved {artifacts : PriorArtifacts} {file : ManagedFile} :
    (PriorArtifacts.saved artifacts).Covers file ↔
      ∃ name ∈ artifacts.map Prod.fst, validateFileName name ∧ file = .artifact (bytes name) := by
  simp only [Saved.Covers, PriorArtifacts.saved, List.mem_map, List.mem_filter]
  constructor
  · rintro ⟨_, ⟨entry, ⟨hentry, hname⟩, rfl⟩, rfl⟩
    exact ⟨entry.1, ⟨entry, hentry, rfl⟩, hname, rfl⟩
  · rintro ⟨_, ⟨entry, hentry, rfl⟩, hname, rfl⟩
    exact ⟨_, ⟨entry, ⟨hentry, hname⟩, rfl⟩, rfl⟩

/-- The files a transaction may have written before it rolls back. -/
def WrittenFile (artifacts : Artifacts) (active : ActiveConfigRollback) (file : ManagedFile) : Prop :=
  (∃ name ∈ artifacts.map Prod.fst, validateFileName name ∧ file = .artifact (bytes name)) ∨
    active.saved.Covers file

/-- The files transactions are about. -/
def ManagedFile.IsOwned : ManagedFile → Prop
  | .artifact encoded => ∃ name, isOwnedArtifact name ∧ encoded = bytes name
  | .activeConfig | .config => True

namespace Surroundings

variable {s : Surroundings} {store : Store}

theorem readOptionalFile_ok {file : ManagedFile} {contents : Option Bytes}
    (h : s.readOptionalFile file store = .ok contents) : store.read file = contents := by
  unfold readOptionalFile at h
  split at h
  · cases h
  · exact Except.ok.inj h

theorem replaceLocked_ok {config : DeploymentConfig} {replaced : Store}
    (h : s.replaceLocked config store = .ok replaced) :
    ∃ contents, replaced = store.set .config (some contents) := by
  obtain ⟨-, -, h⟩ := bind_ok.mp h
  split at h
  · cases h
  · split at h
    · cases h
    · exact ⟨_, atomicWrite_ok h⟩

theorem readArtifacts_ok {names : List String} {artifacts : PriorArtifacts}
    (h : s.readArtifacts store names = .ok artifacts) :
    artifacts.map Prod.fst = names ∧ artifacts.Of store := by
  induction names generalizing artifacts with
  | nil =>
    cases h
    exact ⟨rfl, fun entry hentry => absurd hentry List.not_mem_nil⟩
  | cons name rest ih =>
    obtain ⟨prior, hprior, h⟩ := bind_ok.mp h
    obtain ⟨priors, hpriors, h⟩ := bind_ok.mp h
    cases h
    obtain ⟨hnames, hof⟩ := ih hpriors
    refine ⟨by simp [hnames], ?_⟩
    intro entry hentry
    cases hentry with
    | head => exact readOptionalFile_ok hprior
    | tail _ hentry => exact hof entry hentry

theorem writeArtifacts_agree (fault : Nat → Option String) (active : ActiveConfigRollback) (n : Nat)
    (artifacts : Artifacts) (store : Store) :
    Agree (WrittenFile artifacts active) store (writeArtifacts fault n artifacts store).1 := by
  induction artifacts generalizing n store with
  | nil => exact Agree.refl _ _
  | cons entry rest ih =>
    obtain ⟨name, contents⟩ := entry
    rw [writeArtifacts]
    cases hwrite : writeArtifactLocked (fault n) name (bytes contents) store with
    | error error => exact Agree.refl _ _
    | ok written =>
      obtain ⟨hname, rfl⟩ := writeArtifactLocked_ok hwrite
      have hset : Agree (WrittenFile ((name, contents) :: rest) active) store
          (store.set (.artifact (bytes name)) (some (bytes contents))) :=
        agree_set store _ (.inl ⟨name, List.mem_cons_self, hname, rfl⟩)
      refine hset.trans ((ih (n + 1) _).mono ?_)
      intro file hfile
      cases hfile with
      | inl h =>
        obtain ⟨m, hm, hfile⟩ := h
        exact .inl ⟨m, List.mem_cons_of_mem _ hm, hfile⟩
      | inr h => exact .inr h

theorem removeArtifacts_agree (fault : Nat → Option String) (n : Nat) (names : List String)
    (store : Store) :
    Agree (fun file => ∃ name ∈ names, validateFileName name ∧ file = .artifact (bytes name))
      store (removeArtifacts fault n names store) := by
  induction names generalizing n store with
  | nil => exact Agree.refl _ _
  | cons name rest ih =>
    rw [removeArtifacts]
    cases hremove : removeArtifact (fault n) name store with
    | error error => exact Agree.refl _ _
    | ok removed =>
      obtain ⟨hname, rfl⟩ := removeArtifact_ok hremove
      refine (agree_set store none ⟨name, List.mem_cons_self, hname, rfl⟩).trans
        ((ih (n + 1) _).mono ?_)
      rintro file ⟨m, hm, hfile⟩
      exact ⟨m, List.mem_cons_of_mem _ hm, hfile⟩

/-- What is superseded after the artifacts were written was so before: a name
on disk that is not the encoding of a current one was not written. -/
theorem staleArtifactNames_subset {artifacts : Artifacts} {active : ActiveConfigRollback}
    {listable clientsOnly : Bool} {written : Store}
    (h : Agree (WrittenFile artifacts active) store written) {name : String}
    (hname : name ∈ staleArtifactNames listable artifacts clientsOnly written) :
    name ∈ staleArtifactNames listable artifacts clientsOnly store := by
  cases listable with
  | false => exact hname
  | true =>
    obtain ⟨hmem, hkept⟩ := List.mem_filter.mp hname
    refine List.mem_filter.mpr ⟨?_, hkept⟩
    obtain ⟨entry, hentry, rfl⟩ := List.mem_map.mp hmem
    have hunwritten : ¬ WrittenFile artifacts active (.artifact entry.1) := by
      intro hscope
      cases hscope with
      | inl hcurrent =>
        obtain ⟨current, hcurrent, -, heq⟩ := hcurrent
        rw [ManagedFile.artifact.inj heq, toStringLossy_bytes] at hkept
        have hsome := lookup_isSome.mpr hcurrent
        have hnone := Option.isNone_iff_eq_none.mp (Bool.and_eq_true_iff.mp hkept).2
        exact Option.isSome_iff_ne_none.mp hsome hnone
      | inr hactive => cases active <;> simp [ActiveConfigRollback.saved, Saved.Covers] at hactive
    have hread : written.read (.artifact entry.1) = store.read (.artifact entry.1) :=
      h _ hunwritten
    have hwritten : (written.artifacts.lookup entry.1).isSome :=
      lookup_isSome.mpr (List.mem_map_of_mem hentry)
    rw [show written.artifacts.lookup entry.1 = store.read (.artifact entry.1) from hread]
      at hwritten
    obtain ⟨prior, hprior⟩ := Option.isSome_iff_exists.mp hwritten
    exact List.mem_map.mpr ⟨_, mem_of_lookup hprior, rfl⟩

/-! ## The rollback -/

/-- A rollback none of whose writes fails leaves every file as it was. -/
theorem read_restoreReplaced (hfaults : ∀ i, s.rollbackFault i = none) {artifacts : Artifacts}
    {priorArtifacts : PriorArtifacts} {active : ActiveConfigRollback} {written : Store}
    (hnames : ∀ name ∈ artifacts.map Prod.fst, name ∈ priorArtifacts.map Prod.fst)
    (hprior : priorArtifacts.Of store)
    (hactive : active.saved.Of store)
    (h : Agree (WrittenFile artifacts active) store written) (file : ManagedFile) :
    (restoreReplaced s.rollbackFault priorArtifacts active written).read file =
      store.read file := by
  rw [restoreReplaced_eq hfaults]
  refine Saved.read_rewind_of_agree ?_ (h.mono ?_) file
  · intro entry hentry
    cases List.mem_append.mp hentry with
    | inl hartifact =>
      have hreversed : PriorArtifacts.Of priorArtifacts.reverse store :=
        fun e he => hprior e (List.mem_reverse.mp he)
      exact hreversed.saved entry hartifact
    | inr hentry => exact hactive entry hentry
  · intro file hfile
    rw [Saved.covers_append]
    cases hfile with
    | inl hartifact =>
      obtain ⟨name, hname, hvalid, rfl⟩ := hartifact
      refine .inl (covers_saved.mpr ⟨name, ?_, hvalid, rfl⟩)
      rw [List.map_reverse, List.mem_reverse]
      exact hnames name hname
    | inr hfile => exact .inr hfile

/-! ## The transaction -/

/-- A plan that was read from `store`. -/
structure Plan.ReadFrom (s : Surroundings) (store : Store) (clientsOnly : Bool) (plan : Plan) :
    Prop where
  artifacts_of : plan.priorArtifacts.Of store
  active_eq : plan.priorActive = store.read .activeConfig
  config_eq : plan.priorConfig = store.read .config
  covers_current : ∀ name ∈ plan.artifacts.map Prod.fst, name ∈ plan.priorArtifacts.map Prod.fst
  covers_stale : ∀ name ∈ staleArtifactNames s.listable plan.artifacts clientsOnly store,
    name ∈ plan.priorArtifacts.map Prod.fst

theorem planTransaction_ok {config : DeploymentConfig} {stagedServer : Option String}
    {clientsOnly : Bool} {plan : Plan}
    (h : s.planTransaction config stagedServer clientsOnly store = .ok plan) :
    plan.ReadFrom s store clientsOnly := by
  obtain ⟨-, -, h⟩ := bind_ok.mp h
  obtain ⟨generated, -, h⟩ := bind_ok.mp h
  obtain ⟨staged, -, h⟩ := bind_ok.mp h
  obtain ⟨server, -, h⟩ := bind_ok.mp h
  obtain ⟨prior, hprior, h⟩ := bind_ok.mp h
  obtain ⟨priorActive, hactive, h⟩ := bind_ok.mp h
  obtain ⟨priorConfig, hconfig, h⟩ := bind_ok.mp h
  obtain ⟨stale, hstale, h⟩ := bind_ok.mp h
  cases h
  obtain ⟨hnames, hof⟩ := readArtifacts_ok hprior
  obtain ⟨hstaleNames, hstaleOf⟩ := readArtifacts_ok hstale
  constructor
  · intro entry hentry
    cases List.mem_append.mp hentry with
    | inl hentry => exact hof entry hentry
    | inr hentry => exact hstaleOf entry hentry
  · exact (readOptionalFile_ok hactive).symm
  · exact (readOptionalFile_ok hconfig).symm
  · intro name hname
    rw [List.map_append, hnames]
    exact List.mem_append_left _ hname
  · intro name hname
    rw [List.map_append, hstaleNames]
    exact List.mem_append_right _ hname

/-- A publication that succeeds has written no other file. -/
theorem publishPlan_ok {clientsOnly : Bool} {plan : Plan} {written : Store}
    (h : s.publishPlan clientsOnly plan store = (written, .ok ())) :
    Agree (WrittenFile plan.artifacts (plan.activeRollback clientsOnly)) store written := by
  have hagree := writeArtifacts_agree s.artifactFault (plan.activeRollback clientsOnly) 0
    plan.artifacts store
  unfold publishPlan at h
  split at h
  · cases h
  · rename_i partly heq
    rw [heq] at hagree
    split at h
    · rename_i hsync
      split at h
      · cases h
      · rename_i synced hwrite
        cases h
        rw [atomicWrite_ok hwrite]
        refine hagree.trans (agree_set partly (some (bytes plan.server)) (.inr ?_))
        simp [Plan.activeRollback, hsync, ActiveConfigRollback.saved, Saved.Covers]
    · cases h
      exact hagree

section
variable {config : DeploymentConfig} {clientsOnly : Bool} {plan : Plan} {written : Store}
  (hplan : plan.ReadFrom s store clientsOnly)
include hplan

theorem activeRollback_of : (plan.activeRollback clientsOnly).saved.Of store := by
  unfold Plan.activeRollback
  split
  · intro entry hentry
    cases List.mem_singleton.mp hentry
    exact hplan.active_eq.symm
  · intro entry hentry
    cases hentry

theorem publishPlan_error (hfaults : ∀ i, s.rollbackFault i = none) {error : SubscriptionError}
    (h : s.publishPlan clientsOnly plan store = (written, .error error)) (file : ManagedFile) :
    written.read file = store.read file := by
  have hagree (active : ActiveConfigRollback) :=
    writeArtifacts_agree s.artifactFault active 0 plan.artifacts store
  unfold publishPlan at h
  split at h
  · rename_i partly _ heq
    cases h
    have hagree := hagree .untouched
    rw [heq] at hagree
    refine read_restoreReplaced hfaults hplan.covers_current hplan.artifacts_of ?_ hagree file
    intro entry hentry
    cases hentry
  · rename_i partly heq
    split at h
    · rename_i hsync
      split at h
      · cases h
        have hagree := hagree (.restore plan.priorActive)
        rw [heq] at hagree
        have hactive := activeRollback_of hplan
        rw [Plan.activeRollback, if_pos hsync] at hactive
        exact read_restoreReplaced hfaults hplan.covers_current hplan.artifacts_of hactive hagree file
      · cases h
    · cases h

theorem commitPlan_error (hfaults : ∀ i, s.rollbackFault i = none) {error : SubscriptionError}
    {after : Store}
    (hagree : Agree (WrittenFile plan.artifacts (plan.activeRollback clientsOnly)) store written)
    (h : s.commitPlan config clientsOnly plan written = (after, .error error))
    (file : ManagedFile) : after.read file = store.read file := by
  unfold commitPlan at h
  split at h
  · cases h
    exact read_restoreReplaced hfaults hplan.covers_current hplan.artifacts_of
      (activeRollback_of hplan) hagree file
  · cases h

theorem saved_of : plan.snapshot.saved.Of store := by
  intro entry hentry
  cases List.mem_append.mp hentry with
  | inl hartifact =>
    have hreversed : PriorArtifacts.Of plan.snapshot.artifacts.reverse store :=
      fun e he => hplan.artifacts_of e (List.mem_reverse.mp he)
    exact hreversed.saved entry hartifact
  | inr hentry =>
    cases hentry with
    | head => exact hplan.active_eq.symm
    | tail _ hentry =>
      cases List.mem_singleton.mp hentry
      exact hplan.config_eq.symm

/-- The snapshot covers what the transaction wrote and what it pruned. -/
theorem commitPlan_ok {snapshot : DeploymentSnapshot} {after : Store}
    (hagree : Agree (WrittenFile plan.artifacts (plan.activeRollback clientsOnly)) store written)
    (h : s.commitPlan config clientsOnly plan written = (after, .ok snapshot)) :
    snapshot = plan.snapshot ∧ Agree snapshot.saved.Covers store after := by
  have hcovers {name : String} (hname : name ∈ plan.priorArtifacts.map Prod.fst)
      (hvalid : validateFileName name) :
      plan.snapshot.saved.Covers (.artifact (bytes name)) := by
    refine Saved.covers_append.mpr (.inl (covers_saved.mpr ⟨name, ?_, hvalid, rfl⟩))
    rw [List.map_reverse, List.mem_reverse]
    exact hname
  have hrest : plan.snapshot.saved.Covers .activeConfig ∧ plan.snapshot.saved.Covers .config := by
    simp [DeploymentSnapshot.saved, Saved.Covers]
  unfold commitPlan at h
  split at h
  · cases h
  rename_i replaced hreplace
  cases h
  refine ⟨rfl, ?_⟩
  obtain ⟨contents, rfl⟩ := replaceLocked_ok hreplace
  have hset : Agree plan.snapshot.saved.Covers store (written.set .config (some contents)) := by
    refine (hagree.mono ?_).trans (agree_set written (some contents) hrest.2)
    intro file hfile
    cases hfile with
    | inl hartifact =>
      obtain ⟨name, hname, hvalid, rfl⟩ := hartifact
      exact hcovers (hplan.covers_current name hname) hvalid
    | inr hactive =>
      unfold Plan.activeRollback at hactive
      split at hactive
      · simp only [ActiveConfigRollback.saved, Saved.Covers, List.map_cons, List.map_nil,
          List.mem_singleton] at hactive
        exact hactive ▸ hrest.1
      · cases hactive
  refine hset.trans ((removeArtifacts_agree s.removalFault 0 _ _).mono ?_)
  rintro file ⟨name, hname, hvalid, rfl⟩
  have hstale : name ∈ staleArtifactNames s.listable plan.artifacts clientsOnly store :=
    staleArtifactNames_subset hagree hname
  exact hcovers (hplan.covers_stale name hstale) hvalid

end

variable {config : DeploymentConfig} {stagedServer : Option String} {clientsOnly : Bool}

theorem applyTransactionLocked_error (hfaults : ∀ i, s.rollbackFault i = none) {after : Store}
    {error : SubscriptionError}
    (h : s.applyTransactionLocked config stagedServer clientsOnly store = (after, .error error))
    (file : ManagedFile) : after.read file = store.read file := by
  unfold applyTransactionLocked at h
  split at h
  · cases h
    rfl
  rename_i plan hplan
  have hread := planTransaction_ok hplan
  split at h
  · split at h
    · cases h
      rfl
    split at h
    · rename_i hpublish
      cases h
      exact publishPlan_error hread hfaults hpublish file
    · rename_i hpublish
      exact commitPlan_error hread hfaults (publishPlan_ok hpublish) h file
  · exact commitPlan_error hread hfaults (Agree.refl _ _) h file

theorem applyTransactionLocked_ok {after : Store} {snapshot : DeploymentSnapshot}
    (h : s.applyTransactionLocked config stagedServer clientsOnly store = (after, .ok snapshot)) :
    snapshot.saved.Of store ∧ Agree snapshot.saved.Covers store after := by
  unfold applyTransactionLocked at h
  split at h
  · cases h
  rename_i plan hplan
  have hread := planTransaction_ok hplan
  split at h
  · split at h
    · cases h
    split at h
    · cases h
    · rename_i hpublish
      obtain ⟨rfl, hagree⟩ := commitPlan_ok hread (publishPlan_ok hpublish) h
      exact ⟨saved_of hread, hagree⟩
  · obtain ⟨rfl, hagree⟩ := commitPlan_ok hread (Agree.refl _ _) h
    exact ⟨saved_of hread, hagree⟩

/-! ## What any transaction can write -/

theorem restoreArtifacts_agree (fault : Nat → Option String) (n : Nat) {artifacts : PriorArtifacts}
    (howned : ∀ entry ∈ artifacts, isOwnedArtifact entry.1) (store : Store) :
    Agree ManagedFile.IsOwned store (restoreArtifacts fault n artifacts store) := by
  induction artifacts generalizing n store with
  | nil => exact Agree.refl _ _
  | cons entry rest ih =>
    obtain ⟨name, prior⟩ := entry
    have hname : ManagedFile.IsOwned (.artifact (bytes name)) :=
      ⟨name, howned _ List.mem_cons_self, rfl⟩
    have hrest := ih (n + 1) fun e he => howned e (List.mem_cons_of_mem _ he)
    cases prior with
    | some prior =>
      rw [restoreArtifacts]
      refine Agree.trans ?_ (hrest _)
      cases hwrite : writeArtifactLocked (fault n) name prior store with
      | error error => exact Agree.refl _ _
      | ok written =>
        obtain ⟨-, rfl⟩ := writeArtifactLocked_ok hwrite
        exact agree_set store (some prior) hname
    | none =>
      rw [restoreArtifacts]
      refine Agree.trans ?_ (hrest _)
      cases hremove : removeArtifact (fault n) name store with
      | error error => exact Agree.refl _ _
      | ok removed =>
        obtain ⟨-, rfl⟩ := removeArtifact_ok hremove
        exact agree_set store none hname

theorem restoreReplaced_agree (fault : Nat → Option String) {artifacts : PriorArtifacts}
    (howned : ∀ entry ∈ artifacts, isOwnedArtifact entry.1) (active : ActiveConfigRollback)
    (store : Store) : Agree ManagedFile.IsOwned store (restoreReplaced fault artifacts active store) := by
  have hartifacts := restoreArtifacts_agree fault 0
    (fun entry hentry => howned entry (List.mem_reverse.mp hentry)) store
  have hactive : ManagedFile.IsOwned .activeConfig := trivial
  unfold restoreReplaced
  cases active with
  | untouched => exact hartifacts
  | restore prior =>
    refine hartifacts.trans ?_
    cases prior with
    | some prior =>
      cases hwrite : atomicWrite (fault artifacts.length) .activeConfig prior
          (restoreArtifacts fault 0 artifacts.reverse store) with
      | error error =>
        simp only [hwrite]
        exact Agree.refl _ _
      | ok written =>
        simp only [hwrite]
        rw [atomicWrite_ok hwrite]
        exact agree_set _ (some prior) hactive
    | none =>
      cases hremove : removeFile (fault artifacts.length) .activeConfig
          (restoreArtifacts fault 0 artifacts.reverse store) with
      | error error =>
        simp only [hremove]
        exact Agree.refl _ _
      | ok removed =>
        simp only [hremove]
        rw [removeFile_ok hremove]
        exact agree_set _ none hactive

/-- Every artifact a plan writes or may put back is the generator's. -/
structure Plan.Owned (plan : Plan) : Prop where
  artifacts : ∀ name ∈ plan.artifacts.map Prod.fst, isOwnedArtifact name
  prior : ∀ entry ∈ plan.priorArtifacts, isOwnedArtifact entry.1

theorem stageServer_names {stagedServer : Option String} {artifacts staged : Artifacts}
    (h : stageServer stagedServer artifacts = .ok staged) :
    staged.map Prod.fst = artifacts.map Prod.fst := by
  cases stagedServer with
  | none =>
    cases h
    rfl
  | some server =>
    change replaceServer server artifacts = .ok staged at h
    induction artifacts generalizing staged with
    | nil => cases h
    | cons entry rest ih =>
      obtain ⟨name, contents⟩ := entry
      rw [replaceServer] at h
      split at h
      · cases h
        rfl
      · obtain ⟨others, hothers, rfl⟩ := map_ok.mp h
        simp [ih hothers]

theorem isOwned_of_stale {listable clientsOnly : Bool} {current : Artifacts} {name : String}
    (h : name ∈ staleArtifactNames listable current clientsOnly store) : isOwnedArtifact name := by
  cases listable with
  | false => cases h
  | true =>
    have hkept := (List.mem_filter.mp h).2
    rw [Bool.and_eq_true, Bool.and_eq_true] at hkept
    exact hkept.1.2

theorem planTransaction_owned {config : DeploymentConfig} {stagedServer : Option String}
    {clientsOnly : Bool} {plan : Plan}
    (h : s.planTransaction config stagedServer clientsOnly store = .ok plan) : plan.Owned := by
  obtain ⟨-, -, h⟩ := bind_ok.mp h
  obtain ⟨generated, -, h⟩ := bind_ok.mp h
  obtain ⟨staged, hstaged, h⟩ := bind_ok.mp h
  obtain ⟨server, -, h⟩ := bind_ok.mp h
  obtain ⟨prior, hprior, h⟩ := bind_ok.mp h
  obtain ⟨priorActive, -, h⟩ := bind_ok.mp h
  obtain ⟨priorConfig, -, h⟩ := bind_ok.mp h
  obtain ⟨stale, hstale, h⟩ := bind_ok.mp h
  cases h
  have hcurrent : ∀ name ∈ (if clientsOnly then staged.filter fun a => isTemplateArtifact a.1
      else staged).map Prod.fst, isOwnedArtifact name := by
    intro name hname
    apply generated.owned
    rw [← stageServer_names hstaged]
    split at hname
    · exact List.map_subset Prod.fst (List.filter_subset_self _) hname
    · exact hname
  obtain ⟨hnames, -⟩ := readArtifacts_ok hprior
  obtain ⟨hstaleNames, -⟩ := readArtifacts_ok hstale
  refine ⟨hcurrent, fun entry hentry => ?_⟩
  cases List.mem_append.mp hentry with
  | inl hentry => exact hcurrent _ (hnames ▸ List.mem_map_of_mem hentry)
  | inr hentry =>
    have hname : entry.1 ∈ stale.map Prod.fst := List.mem_map_of_mem hentry
    rw [hstaleNames] at hname
    exact isOwned_of_stale hname

theorem WrittenFile.isOwned {artifacts : Artifacts} {active : ActiveConfigRollback}
    (howned : ∀ name ∈ artifacts.map Prod.fst, isOwnedArtifact name) {file : ManagedFile}
    (h : WrittenFile artifacts active file) : file.IsOwned := by
  cases h with
  | inl hartifact =>
    obtain ⟨name, hname, -, rfl⟩ := hartifact
    exact ⟨name, howned name hname, rfl⟩
  | inr hactive =>
    cases active with
    | untouched => cases hactive
    | restore prior =>
      cases List.mem_singleton.mp hactive
      trivial

theorem publishPlan_agree {clientsOnly : Bool} {plan : Plan} (hplan : plan.Owned) (store : Store) :
    Agree ManagedFile.IsOwned store (s.publishPlan clientsOnly plan store).1 := by
  have hwritten := (writeArtifacts_agree s.artifactFault .untouched 0 plan.artifacts store).mono
    fun _ => WrittenFile.isOwned hplan.artifacts
  unfold publishPlan
  split
  · rename_i heq
    rw [heq] at hwritten
    exact hwritten.trans (restoreReplaced_agree _ hplan.prior _ _)
  · rename_i heq
    rw [heq] at hwritten
    split
    · split
      · exact hwritten.trans (restoreReplaced_agree _ hplan.prior _ _)
      · rename_i hwrite
        rw [atomicWrite_ok hwrite]
        exact hwritten.trans (agree_set _ _ trivial)
    · exact hwritten

theorem commitPlan_agree {config : DeploymentConfig} {clientsOnly : Bool} {plan : Plan}
    (hplan : plan.Owned) (store : Store) :
    Agree ManagedFile.IsOwned store (s.commitPlan config clientsOnly plan store).1 := by
  unfold commitPlan
  split
  · exact restoreReplaced_agree _ hplan.prior _ _
  · rename_i replaced hreplace
    obtain ⟨contents, rfl⟩ := replaceLocked_ok hreplace
    have hset : Agree ManagedFile.IsOwned store (Store.set .config (some contents) store) :=
      agree_set store (some contents) trivial
    refine hset.trans ((removeArtifacts_agree s.removalFault 0 _ _).mono ?_)
    rintro file ⟨name, hname, -, rfl⟩
    exact ⟨name, isOwned_of_stale hname, rfl⟩

/-- Whatever fails, a transaction writes only its own files. -/
theorem applyTransactionLocked_agree (s : Surroundings) (config : DeploymentConfig)
    (stagedServer : Option String) (clientsOnly : Bool) (store : Store) :
    Agree ManagedFile.IsOwned store
      (s.applyTransactionLocked config stagedServer clientsOnly store).1 := by
  unfold applyTransactionLocked
  split
  · exact Agree.refl _ _
  rename_i plan hplan
  have howned := planTransaction_owned hplan
  split
  · split
    · exact Agree.refl _ _
    have hpublished : Agree ManagedFile.IsOwned store (s.publishPlan clientsOnly plan store).1 :=
      publishPlan_agree howned store
    split
    · rename_i heq
      rwa [heq] at hpublished
    · rename_i heq
      rw [heq] at hpublished
      exact hpublished.trans (commitPlan_agree howned _)
  · exact commitPlan_agree howned store

/-! ## Regeneration -/

theorem writeRegenerated_error (hfaults : ∀ i, s.rollbackFault i = none) {generated : Generated}
    {updateActiveConfig : Bool} {prior : PriorArtifacts} {priorActive : Option Bytes}
    {after : Store} {error : SubscriptionError}
    (hnames : ∀ name ∈ generated.artifacts.map Prod.fst, name ∈ prior.map Prod.fst)
    (hprior : prior.Of store)
    (hactive : updateActiveConfig = true → store.read .activeConfig = priorActive)
    (h : s.writeRegenerated generated.artifacts updateActiveConfig prior priorActive store =
      (after, .error error)) (file : ManagedFile) : after.read file = store.read file := by
  have hagree (active : ActiveConfigRollback) :=
    writeArtifacts_agree s.artifactFault active 0 generated.artifacts store
  unfold writeRegenerated at h
  split at h
  · rename_i heq
    cases h
    have hagree := hagree .untouched
    rw [heq] at hagree
    refine read_restoreReplaced hfaults hnames hprior ?_ hagree file
    intro entry hentry
    cases hentry
  · rename_i heq
    split at h
    · rename_i hupdate
      -- The server's artifact was generated: looking for it cannot fail.
      obtain ⟨server, hserver⟩ := generated.server
      simp only [serverArtifact, hserver] at h
      split at h
      · cases h
        have hagree := hagree (.restore priorActive)
        rw [heq] at hagree
        refine read_restoreReplaced hfaults hnames hprior ?_ hagree file
        intro entry hentry
        cases List.mem_singleton.mp hentry
        exact hactive hupdate
      · cases h
    · cases h

theorem regenerateLocked_error (hfaults : ∀ i, s.rollbackFault i = none)
    {updateActiveConfig : Bool} {after : Store} {error : SubscriptionError}
    (h : s.regenerateLocked config updateActiveConfig store = (after, .error error))
    (file : ManagedFile) : after.read file = store.read file := by
  unfold regenerateLocked at h
  dsimp only at h
  split at h
  · cases h
    rfl
  rename_i generated prior priorActive hread
  obtain ⟨_, -, hread⟩ := bind_ok.mp hread
  obtain ⟨-, -, hread⟩ := bind_ok.mp hread
  obtain ⟨_, hprior, hread⟩ := bind_ok.mp hread
  obtain ⟨_, hactive, hread⟩ := bind_ok.mp hread
  cases hread
  obtain ⟨hnames, hof⟩ := readArtifacts_ok hprior
  refine writeRegenerated_error hfaults ?_ hof ?_ h file
  · intro name hname
    rwa [hnames]
  · intro hupdate
    rw [readActive, if_pos hupdate] at hactive
    exact readOptionalFile_ok hactive

/-! ## The result -/

/-- Where the rollback's own writes succeed, a transaction or regeneration that
fails leaves every file as it was; and the snapshot of a transaction that
succeeds brings every file back, whatever happened to the covered ones since. -/
theorem transaction_all_or_nothing (s : Surroundings) (hfaults : ∀ i, s.rollbackFault i = none)
    (config : DeploymentConfig) (stagedServer : Option String)
    (clientsOnly updateActiveConfig : Bool) (store : Store) :
    (∀ after error,
      s.applyTransactionLocked config stagedServer clientsOnly store = (after, .error error) →
        ∀ file, after.read file = store.read file) ∧
    (∀ after error,
      s.regenerateLocked config updateActiveConfig store = (after, .error error) →
        ∀ file, after.read file = store.read file) ∧
    ∀ after snapshot,
      s.applyTransactionLocked config stagedServer clientsOnly store = (after, .ok snapshot) →
        -- A write of a name that is not a file name would not succeed.
        (∀ entry ∈ snapshot.artifacts, entry.2.isSome → validateFileName entry.1) →
        ∀ later, Agree snapshot.saved.Covers after later →
          ∃ restored,
            restoreConfigTransactionLocked s.rollbackFault snapshot later = (restored, .ok ()) ∧
              ∀ file, restored.read file = store.read file := by
  refine ⟨fun after error h => applyTransactionLocked_error hfaults h,
    fun after error h => regenerateLocked_error hfaults h, ?_⟩
  intro after snapshot h hnames later hlater
  obtain ⟨hof, hagree⟩ := applyTransactionLocked_ok h
  refine ⟨_, restoreConfigTransactionLocked_eq hfaults snapshot later hnames, fun file => ?_⟩
  exact Saved.read_rewind_of_agree hof (hagree.trans hlater) file

end Surroundings

/-- A sample deployment with a profile no longer generated. -/
def sampleStore : Store where
  artifacts := [(bytes singBoxServerArtifact, bytes "old"), (bytes "subscription-clash-1.yaml", [1])]
  activeConfig := some (bytes "old")
  config := some (bytes "")

/-- Surroundings in which nothing but, perhaps, the active configuration's
write fails. -/
def sampleSurroundings (activeFault : Option String) : Surroundings where
  lib := sampleLibraries
  generatedArtifactsForKernel _ := .ok ⟨[(singBoxServerArtifact, "new"), ("subscription-uri.txt", "")],
    ⟨"new", by decide⟩, by decide⟩
  singBoxBin := some fun _ => .ok ()
  clientCustomizationIsPresent := .ok false
  tomlFromStr _ := none
  tomlToStringPretty _ := some "config"
  listable := true
  readFault _ := none
  artifactFault _ := none
  activeFault := activeFault
  configFault := none
  removalFault _ := none
  rollbackFault _ := none

namespace Surroundings

theorem transaction_all_or_nothing_sample :
    (∃ after error, (sampleSurroundings (some "no space")).applyTransactionLocked sampleConfig none
        false sampleStore = (after, .error error) ∧
      ∀ file, after.read file = sampleStore.read file) ∧
    ∃ after snapshot restored, (sampleSurroundings none).applyTransactionLocked sampleConfig none
        false sampleStore = (after, .ok snapshot) ∧
      after.read (.artifact (bytes "subscription-clash-1.yaml")) = none ∧
      restoreConfigTransactionLocked (fun _ => none) snapshot after = (restored, .ok ()) ∧
      ∀ file, restored.read file = sampleStore.read file := by
  have hfails : (sampleSurroundings (some "no space")).applyTransactionLocked sampleConfig none false
      sampleStore = (sampleStore, .error (.storage (.storage "no space"))) := by decide +kernel
  let after : Store := ⟨[(bytes singBoxServerArtifact, bytes "new"),
    (bytes "subscription-uri.txt", [])], some (bytes "new"), some (bytes "config")⟩
  let snapshot : DeploymentSnapshot := ⟨some (bytes ""), [(singBoxServerArtifact, some (bytes "old")),
    ("subscription-uri.txt", none), ("subscription-clash-1.yaml", some [1])], some (bytes "old")⟩
  have hsucceeds : (sampleSurroundings none).applyTransactionLocked sampleConfig none false
      sampleStore = (after, .ok snapshot) := by decide +kernel
  obtain ⟨hrestored, -, -⟩ := transaction_all_or_nothing (sampleSurroundings (some "no space"))
    (fun _ => rfl) sampleConfig none false true sampleStore
  obtain ⟨-, -, hsnapshot⟩ := transaction_all_or_nothing (sampleSurroundings none)
    (fun _ => rfl) sampleConfig none false true sampleStore
  obtain ⟨restored, hok, hread⟩ := hsnapshot after snapshot hsucceeds (by decide +kernel) after
    (Agree.refl _ _)
  exact ⟨⟨_, _, hfails, hrestored _ _ hfails⟩, after, snapshot, restored, hsucceeds,
    by decide +kernel, hok, hread⟩

end Surroundings

end Sbctl
