import Sbctl.Validate
import Sbctl.Merge
import Sbctl.Lib.Text

/-!
# Override documents

An operator extends the server configuration with override documents: one base
file, then the drop-in files in the order of their names. Each is parsed,
guarded and merged into the generated configuration in that order.

* `rejectProtectedServerInbounds_entries`: what the guard lets through;
* `applyServerOverride_ok`: which layers a successful run has merged.
-/

namespace Sbctl

open Json Assoc

/-- The JSON library. Its objects are maps, so no parsed object has a key
twice. -/
structure Serde where
  fromStr : String → Except String Json
  toString : Json → String
  toStringPretty : Json → Except String String
  /-- Prints a text in quotes. -/
  debugString : String → String
  wellFormed : ∀ {text value}, fromStr text = .ok value → value.WellFormed

inductive OverrideError where
  | json (path message : String)
  | yaml (path message : String)
  | notMapping (path : String)
  | rulesMode (path value : String)
  | protectedField (path field : String)
  | inboundTags (path : String)
  | io (message : String)
  deriving DecidableEq, Repr

def OverrideError.text (serde : Serde) : OverrideError → String
  | .json path message => path ++ " is not valid JSON: " ++ message
  | .yaml path message => path ++ " is not valid YAML: " ++ message
  | .notMapping path =>
    path ++ " must contain a JSON object or YAML mapping at the top level"
  | .rulesMode path value =>
    path ++ " has rules_mode " ++ serde.debugString value ++
      "; expected \"prepend\", \"append\" or \"replace\""
  | .protectedField path field =>
    path ++ " may not override " ++ field ++ ": server-side credentials belong to the " ++
      "generated configuration (use the client overrides for your own nodes)"
  | .inboundTags path =>
    path ++ ": server inbounds must be objects with distinct, nonempty tags"
  | .io message => "override read failed: " ++ message

/-- The failures of the subscription artifacts that the model can meet. -/
inductive SubscriptionError where
  | missingNodes
  | artifact (message : String)
  | certificate (message : String)
  | check (message : String)
  | override (message : String)
  | storage (error : ConfigError)
  deriving DecidableEq, Repr

def singBoxOverrideRelativePath : String := "etc/sbctl/overrides/sing-box-override.json"
def singBoxServerOverrideRelativePath : String := "etc/sbctl/overrides/sing-box-server.json"
def rulesModeKey : String := "rules_mode"

def protectedServerFields : List String :=
  ["users", "password", "private_key", "short_id", "uuid", "certificate", "key",
    "ca_certificate_path"]

/-! ## The guard -/

mutual

def rejectProtectedInboundValue (path : String) (insideInbounds : Bool) :
    Json → Except OverrideError Unit
  | .obj entries => rejectProtectedEntries path insideInbounds entries
  | .arr items => rejectProtectedItems path insideInbounds items
  | _ => .ok ()

def rejectProtectedEntries (path : String) (insideInbounds : Bool) :
    List (String × Json) → Except OverrideError Unit
  | [] => .ok ()
  | (key, nested) :: rest =>
    if insideInbounds ∧ key ∈ protectedServerFields then .error (.protectedField path key)
    else
      match rejectProtectedInboundValue path (insideInbounds || key == "inbounds") nested with
      | .error error => .error error
      | .ok () => rejectProtectedEntries path insideInbounds rest

def rejectProtectedItems (path : String) (insideInbounds : Bool) :
    List Json → Except OverrideError Unit
  | [] => .ok ()
  | item :: rest =>
    match rejectProtectedInboundValue path insideInbounds item with
    | .error error => .error error
    | .ok () => rejectProtectedItems path insideInbounds rest

end

/-- An explicit custom namespace cannot collide with generated tags. -/
def isCustomTag (tag : String) : Bool :=
  "custom-".toList.isPrefixOf tag.toList && decide (7 < tag.utf8ByteSize)

/-- The entries of `inbounds`, where `tags` are those already seen. -/
def rejectInboundEntries (path : String) (tags : List String) :
    List Json → Except OverrideError Unit
  | [] => .ok ()
  | entry :: rest =>
    match (identifier "tag" entry).filter fun tag => tag != "" && !tags.contains tag with
    | none => do
      rejectProtectedInboundValue path true entry
      .error (.inboundTags path)
    | some tag =>
      if isCustomTag tag then rejectInboundEntries path (tag :: tags) rest
      else do
        rejectProtectedInboundValue path true entry
        rejectInboundEntries path (tag :: tags) rest

def rejectProtectedServerInbounds (document : Json) (path : String) :
    Except OverrideError Unit :=
  match document.get? "inbounds" with
  | none => .ok ()
  | some (.arr entries) => rejectInboundEntries path [] entries
  | some _ => .error (.inboundTags path)

/-- Inside `inbounds`, the guard passes what names no protected field. -/
theorem rejectProtectedInboundValue_avoids {path : String} {v : Json}
    (h : rejectProtectedInboundValue path true v = .ok ()) : Avoids protectedServerFields v := by
  induction v using Json.induct with
  | null => exact .null
  | bool b => exact .bool b
  | num n => exact .num n
  | str s => exact .str s
  | arr items ih =>
    rw [rejectProtectedInboundValue] at h
    rw [avoids_arr]
    induction items with
    | nil => simp
    | cons item rest ihrest =>
      rw [rejectProtectedItems] at h
      cases hitem : rejectProtectedInboundValue path true item with
      | error e => simp [hitem] at h
      | ok u =>
        rw [hitem] at h
        exact List.forall_mem_cons.mpr ⟨ih item List.mem_cons_self hitem,
          ihrest (fun x hx => ih x (List.mem_cons_of_mem _ hx)) h⟩
  | obj entries ih =>
    rw [rejectProtectedInboundValue] at h
    rw [avoids_obj]
    induction entries with
    | nil => simp
    | cons entry rest ihrest =>
      obtain ⟨key, nested⟩ := entry
      rw [rejectProtectedEntries] at h
      split at h
      · cases h
      rename_i hkey
      have hkey : key ∉ protectedServerFields := fun hk => hkey ⟨rfl, hk⟩
      rw [Bool.true_or] at h
      cases hnested : rejectProtectedInboundValue path true nested with
      | error e => simp [hnested] at h
      | ok u =>
        rw [hnested] at h
        exact List.forall_mem_cons.mpr ⟨⟨hkey, ih (key, nested) List.mem_cons_self hnested⟩,
          ihrest (fun x hx => ih x (List.mem_cons_of_mem _ hx)) h⟩

/-- Every entry the guard lets through has a tag, and one outside the custom
namespace names no protected field. -/
theorem rejectInboundEntries_ok {path : String} {tags : List String} {entries : List Json}
    (h : rejectInboundEntries path tags entries = .ok ()) :
    ∀ entry ∈ entries, ∃ tag, identifier "tag" entry = some tag ∧
      (isCustomTag tag ∨ Avoids protectedServerFields entry) := by
  induction entries generalizing tags with
  | nil => simp
  | cons entry rest ih =>
    rw [rejectInboundEntries] at h
    split at h
    · cases hr : rejectProtectedInboundValue path true entry <;> rw [hr] at h <;> cases h
    · rename_i tag htag
      have htag : identifier "tag" entry = some tag := (Option.filter_eq_some_iff.mp htag).1
      split at h
      · rename_i hcustom
        exact List.forall_mem_cons.mpr ⟨⟨tag, htag, .inl hcustom⟩, ih h⟩
      · cases hr : rejectProtectedInboundValue path true entry with
        | error e => rw [hr] at h; cases h
        | ok u =>
          rw [hr] at h
          exact List.forall_mem_cons.mpr
            ⟨⟨tag, htag, .inr (rejectProtectedInboundValue_avoids hr)⟩, ih h⟩

theorem rejectProtectedServerInbounds_entries {document : Json} {path : String}
    (h : rejectProtectedServerInbounds document path = .ok ()) :
    document.get? "inbounds" = none ∨ ∃ entries, document.get? "inbounds" = some (.arr entries) ∧
      ∀ entry ∈ entries, ∃ tag, identifier "tag" entry = some tag ∧
        (isCustomTag tag ∨ Avoids protectedServerFields entry) := by
  unfold rejectProtectedServerInbounds at h
  split at h
  · exact .inl ‹_›
  · exact .inr ⟨_, ‹_›, rejectInboundEntries_ok h⟩
  · cases h

/-! ## Loading -/

/-- What reading a file gives. -/
inductive FileRead where
  | missing
  | text (contents : String)
  | failed (message : String)
  deriving DecidableEq, Repr

/-- A base document and its drop-in files in the order of their names, if the
directory can be listed. -/
structure LayerFiles where
  base : FileRead
  dropIns : Except String (List (String × FileRead))

def loadJsonIfPresent (serde : Serde) (path : String) (file : FileRead) :
    Except OverrideError (Option Json) :=
  match file with
  | .missing => .ok none
  | .failed message => .error (.io message)
  | .text contents =>
    if Text.trim contents.toList = [] then .ok none
    else
      match serde.fromStr contents with
      | .error message => .error (.json path message)
      | .ok (.obj entries) => .ok (some (.obj entries))
      | .ok _ => .error (.notMapping path)

/-- The documents of the drop-in files, none of which may be blank. -/
def loadDropIns (serde : Serde) : List (String × FileRead) → Except OverrideError (List (String × Json))
  | [] => .ok []
  | (path, file) :: rest =>
    match loadJsonIfPresent serde path file with
    | .error error => .error error
    | .ok none => .error (.notMapping path)
    | .ok (some value) => (loadDropIns serde rest).map ((path, value) :: ·)

/-- Takes the document's merge mode out of it. -/
def takeRulesMode (serde : Serde) (document : Json) (path : String) :
    Except OverrideError (RulesMode × Json) :=
  match document with
  | .obj entries =>
    match entries.lookup rulesModeKey with
    | none => .ok (.prepend, document)
    | some value =>
      let document := .obj (remove rulesModeKey entries)
      match value with
      | .str "prepend" => .ok (.prepend, document)
      | .str "append" => .ok (.append, document)
      | .str "replace" => .ok (.replace, document)
      | _ => .error (.rulesMode path (serde.toString value))
  | _ => .ok (.prepend, document)

/-- The documents with their merge modes, in the order they merge. -/
abbrev JsonLayers := List (RulesMode × Json)

def JsonLayers.applyTo (layers : JsonLayers) (base : Json) (policy : MergePolicy) : Json :=
  layers.foldl (fun base layer => deepMergeWith { policy with rules := layer.1 } base layer.2) base

def isEmptyObject : Json → Bool
  | .obj entries => entries.isEmpty
  | _ => false

/-- Guards the server's documents and keeps those that are not empty. -/
def loadLayers (serde : Serde) (baseRelative : String) :
    List (String × Json) → Except OverrideError JsonLayers
  | [] => .ok []
  | (path, document) :: rest => do
    if baseRelative = singBoxServerOverrideRelativePath then
      rejectProtectedServerInbounds document path
    else .ok ()
    let layer ← takeRulesMode serde document path
    let layers ← loadLayers serde baseRelative rest
    return if isEmptyObject layer.2 then layers else layer :: layers

def loadJsonLayered (serde : Serde) (root baseRelative : String) (files : LayerFiles) :
    Except OverrideError (Option JsonLayers) := do
  let path := root ++ "/" ++ baseRelative
  let base ← loadJsonIfPresent serde path files.base
  let listed ← files.dropIns.mapError OverrideError.io
  let dropIns ← loadDropIns serde listed
  let layers ← loadLayers serde baseRelative (base.toList.map (path, ·) ++ dropIns)
  return if layers.isEmpty then none else some layers

/-- The override files of a deployment. Of the clash overrides it only matters
here whether they load. -/
structure OverrideFiles where
  singBox : LayerFiles
  singBoxServer : LayerFiles
  clash : Except OverrideError Unit

structure Overrides where
  singBox : Option JsonLayers
  singBoxServer : Option JsonLayers

def Overrides.load (serde : Serde) (root : String) (files : OverrideFiles) :
    Except OverrideError Overrides := do
  let singBoxServer ←
    loadJsonLayered serde root singBoxServerOverrideRelativePath files.singBoxServer
  let singBox ← loadJsonLayered serde root singBoxOverrideRelativePath files.singBox
  files.clash
  return { singBox, singBoxServer }

def serverMergePolicy : MergePolicy where
  keyedArrays := [("inbounds", "tag"), ("outbounds", "tag")]

def applyServerOverride (serde : Serde) (root : String) (files : OverrideFiles)
    (generated : String) : Except SubscriptionError String := do
  let overrides ← (Overrides.load serde root files).mapError fun error =>
    SubscriptionError.override (error.text serde)
  match overrides.singBoxServer with
  | none => .ok generated
  | some document =>
    let value ← (serde.fromStr generated).mapError SubscriptionError.override
    (serde.toStringPretty (document.applyTo value serverMergePolicy)).mapError
      SubscriptionError.override

/-! ## What the loaded layers are -/

/-- A document that may merge into the server configuration. -/
structure Guarded (document : Json) : Prop where
  wellFormed : document.WellFormed
  object : ∃ entries, document = .obj entries
  inbounds : document.get? "inbounds" = none ∨
    ∃ entries, document.get? "inbounds" = some (.arr entries) ∧
      ∀ entry ∈ entries, ∃ tag, identifier "tag" entry = some tag ∧
        (isCustomTag tag ∨ Avoids protectedServerFields entry)

theorem loadJsonIfPresent_ok {serde : Serde} {path : String} {file : FileRead} {value : Json}
    (h : loadJsonIfPresent serde path file = .ok (some value)) :
    value.WellFormed ∧ ∃ entries, value = .obj entries := by
  unfold loadJsonIfPresent at h
  split at h
  · cases h
  · cases h
  split at h
  · cases h
  split at h
  · cases h
  · rename_i hparsed
    cases h
    exact ⟨serde.wellFormed hparsed, _, rfl⟩
  · cases h

theorem loadDropIns_ok {serde : Serde} {files : List (String × FileRead)}
    {documents : List (String × Json)} (h : loadDropIns serde files = .ok documents) :
    ∀ document ∈ documents, document.2.WellFormed ∧ ∃ entries, document.2 = .obj entries := by
  induction files generalizing documents with
  | nil =>
    cases h
    simp
  | cons file rest ih =>
    obtain ⟨path, file⟩ := file
    rw [loadDropIns] at h
    split at h
    · cases h
    · cases h
    · rename_i value hvalue
      cases hrest : loadDropIns serde rest with
      | error e => rw [hrest] at h; cases h
      | ok documents' =>
        rw [hrest] at h
        cases h
        exact List.forall_mem_cons.mpr ⟨loadJsonIfPresent_ok hvalue, ih hrest⟩

theorem takeRulesMode_ok {serde : Serde} {document : Json} {path : String}
    {layer : RulesMode × Json} (h : takeRulesMode serde document path = .ok layer) :
    layer.2 = document ∨ ∃ entries, document = .obj entries ∧
      layer.2 = .obj (remove rulesModeKey entries) := by
  unfold takeRulesMode at h
  split at h
  · split at h
    · cases h
      exact .inl rfl
    · split at h <;> cases h <;> exact .inr ⟨_, rfl, rfl⟩
  · cases h
    exact .inl rfl

/-- Taking the merge mode out of a document leaves it guarded. -/
theorem Guarded.takeRulesMode {serde : Serde} {document : Json} {path : String}
    {layer : RulesMode × Json} (h : Guarded document)
    (hlayer : takeRulesMode serde document path = .ok layer) : Guarded layer.2 := by
  rcases takeRulesMode_ok hlayer with heq | ⟨entries, rfl, heq⟩
  · rwa [heq]
  · have hget : layer.2.get? "inbounds" = (Json.obj entries).get? "inbounds" := by
      rw [heq]
      exact (lookup_remove _ _ _).trans (if_neg (by decide))
    refine ⟨?_, ⟨_, heq⟩, ?_⟩
    · rw [heq]
      exact h.wellFormed.filter _
    · rw [hget]
      exact h.inbounds

theorem loadLayers_guarded {serde : Serde} {documents : List (String × Json)}
    {layers : JsonLayers}
    (hdocuments : ∀ document ∈ documents, document.2.WellFormed ∧ ∃ entries, document.2 = .obj entries)
    (h : loadLayers serde singBoxServerOverrideRelativePath documents = .ok layers) :
    ∀ layer ∈ layers, Guarded layer.2 := by
  induction documents generalizing layers with
  | nil =>
    cases h
    simp
  | cons document rest ih =>
    obtain ⟨path, document⟩ := document
    obtain ⟨⟨hwf, hobj⟩, hrest⟩ := List.forall_mem_cons.mp hdocuments
    rw [loadLayers, if_pos rfl] at h
    cases hguard : rejectProtectedServerInbounds document path with
    | error e => rw [hguard] at h; cases h
    | ok u =>
    cases hlayer : takeRulesMode serde document path with
    | error e => rw [hguard, hlayer] at h; cases h
    | ok layer =>
    cases hlayers : loadLayers serde singBoxServerOverrideRelativePath rest with
    | error e => rw [hguard, hlayer, hlayers] at h; cases h
    | ok layers' =>
      have hguarded : Guarded document :=
        ⟨hwf, hobj, rejectProtectedServerInbounds_entries hguard⟩
      rw [hguard, hlayer, hlayers] at h
      cases h
      change ∀ l ∈ (if isEmptyObject layer.2 then layers' else layer :: layers'), Guarded l.2
      split
      · exact ih hrest hlayers
      · exact List.forall_mem_cons.mpr ⟨hguarded.takeRulesMode hlayer, ih hrest hlayers⟩

theorem loadJsonLayered_guarded {serde : Serde} {root : String} {files : LayerFiles}
    {layers : JsonLayers}
    (h : loadJsonLayered serde root singBoxServerOverrideRelativePath files = .ok (some layers)) :
    ∀ layer ∈ layers, Guarded layer.2 := by
  unfold loadJsonLayered at h
  simp only [bind_ok] at h
  obtain ⟨base, hbase, listed, hlisted, dropIns, hdropIns, layers', hlayers, h⟩ := h
  have hdocuments : ∀ document ∈
      base.toList.map (root ++ "/" ++ singBoxServerOverrideRelativePath, ·) ++ dropIns,
      document.2.WellFormed ∧ ∃ entries, document.2 = .obj entries := by
    intro document hm
    rcases List.mem_append.mp hm with hm | hm
    · obtain ⟨value, hvalue, rfl⟩ := List.mem_map.mp hm
      rw [Option.mem_toList] at hvalue
      rw [Option.mem_def.mp hvalue] at hbase
      exact loadJsonIfPresent_ok hbase
    · exact loadDropIns_ok hdropIns document hm
  split at h
  · cases h
  · cases h
    exact loadLayers_guarded hdocuments hlayers

/-- The layers of the server configuration, none where there is no override. -/
def Overrides.serverLayers (overrides : Overrides) : JsonLayers :=
  overrides.singBoxServer.getD []

theorem Overrides.load_guarded {serde : Serde} {root : String} {files : OverrideFiles}
    {overrides : Overrides} (h : Overrides.load serde root files = .ok overrides) :
    ∀ layer ∈ overrides.serverLayers, Guarded layer.2 := by
  unfold Overrides.load at h
  simp only [bind_ok] at h
  obtain ⟨singBoxServer, hserver, _, _, _, _, h⟩ := h
  cases h
  cases singBoxServer with
  | none => simp [serverLayers]
  | some layers => exact loadJsonLayered_guarded hserver

/-- A successful run prints the generated configuration with the guarded layers
merged into it, or passes it on where there are none. -/
theorem applyServerOverride_ok {serde : Serde} {root : String} {files : OverrideFiles}
    {generated text : String} {value : Json} (hparsed : serde.fromStr generated = .ok value)
    (h : applyServerOverride serde root files generated = .ok text) :
    ∃ overrides, Overrides.load serde root files = .ok overrides ∧
      (overrides.singBoxServer = none ∧ text = generated ∨
        serde.toStringPretty (overrides.serverLayers.applyTo value serverMergePolicy) =
          .ok text) := by
  unfold applyServerOverride at h
  cases hload : Overrides.load serde root files with
  | error e => rw [hload] at h; cases h
  | ok overrides =>
    refine ⟨overrides, rfl, ?_⟩
    rw [hload] at h
    cases hlayers : overrides.singBoxServer with
    | none =>
      simp only [Except.mapError, bind, Except.bind, hlayers] at h
      cases h
      exact .inl ⟨rfl, rfl⟩
    | some layers =>
      right
      simp only [Except.mapError, bind, Except.bind, hlayers, hparsed] at h
      rw [Overrides.serverLayers, hlayers]
      cases hprint : serde.toStringPretty (layers.applyTo value serverMergePolicy) with
      | error e => rw [hprint] at h; cases h
      | ok printed =>
        rw [hprint] at h
        cases h
        exact hprint

end Sbctl
