import Sbctl.Store

/-!
# Certificate generations

A flat certificate directory is published as one generation. The new one is
staged beside it: the files that are not replaced are linked over, the
replacements are written, and where anything differs from the previous
generation the refresh marker is created anew.

* `stage_ok`: what a staged generation holds;
* `replaceFilesWithMarker_some`, `replaceFilesWithMarker_none`: what a
  publication that succeeds leaves visible.
-/

namespace Sbctl

open Text Assoc

def maxEntries : Nat := 1024
def maxMaterialBytes : Nat := 1024 * 1024

structure Metadata where
  uid : Nat
  gid : Nat
  mode : Nat
  deriving DecidableEq, Repr

/-- What a directory entry names: a file, or something that is not one. -/
structure Material where
  regular : Bool
  metadata : Metadata
  bytes : Bytes
  deriving DecidableEq, Repr

def readMaterial (material : Material) : Except String Bytes :=
  if material.regular then
    if material.bytes.length ≤ maxMaterialBytes then .ok material.bytes
    else .error "certificate material is too large"
  else .error "certificate material must be a regular file"

theorem readMaterial_ok {material : Material} {contents : Bytes}
    (h : readMaterial material = .ok contents) : material.bytes = contents := by
  unfold readMaterial at h
  split at h
  · split at h
    · exact Except.ok.inj h
    · cases h
  · cases h

/-- A directory names each of its entries once. -/
structure Directory where
  metadata : Metadata
  entries : List (Bytes × Material)
  nodup : (entries.map Prod.fst).Nodup
  deriving DecidableEq

namespace Directory

def read (d : Directory) (name : Bytes) : Option Material := d.entries.lookup name

def names (d : Directory) : List Bytes := d.entries.map Prod.fst

def empty (metadata : Metadata) : Directory := ⟨metadata, [], List.nodup_nil⟩

/-- Adds an entry. A name that is taken is refused. -/
def create (name : Bytes) (material : Material) (d : Directory) : Except String Directory :=
  if h : name ∈ d.names then .error "file exists"
  else .ok ⟨d.metadata, (name, material) :: d.entries, List.nodup_cons.mpr ⟨h, d.nodup⟩⟩

def unlink (name : Bytes) (d : Directory) : Directory :=
  ⟨d.metadata, remove name d.entries, d.nodup.sublist (List.filter_sublist.map Prod.fst)⟩

def regularFile (d : Directory) (name : Bytes) : Except String Material :=
  match d.read name with
  | none => .error "no such file"
  | some material =>
    if material.regular then .ok material
    else .error "certificate directory may contain regular files only"

/-- The names in a directory, if it is not too large to handle. -/
def entryNames (d : Directory) : Except String (List Bytes) :=
  if maxEntries < d.names.length then .error "certificate directory has too many entries"
  else if d.names.all fun name => validateFileName (toStringLossy name) then .ok d.names
  else .error "managed name must be a single file name"

theorem read_create {d d' : Directory} {name : Bytes} {material : Material}
    (h : d.create name material = .ok d') (k : Bytes) :
    d'.read k = if k = name then some material else d.read k := by
  unfold create at h
  split at h <;> cases h
  exact lookup_cons_ite _ _ _ _

theorem read_of_create {d d' : Directory} {name : Bytes} {material : Material}
    (h : d.create name material = .ok d') : d.read name = none := by
  unfold create at h
  split at h <;> cases h
  exact lookup_eq_none ‹_›

theorem create_metadata {d d' : Directory} {name : Bytes} {material : Material}
    (h : d.create name material = .ok d') : d'.metadata = d.metadata := by
  unfold create at h
  split at h <;> cases h
  rfl

theorem read_unlink (d : Directory) (name k : Bytes) :
    (d.unlink name).read k = if k = name then none else d.read k :=
  lookup_remove _ _ _

theorem read_eq_none {d : Directory} {name : Bytes} (h : name ∉ d.names) : d.read name = none :=
  lookup_eq_none h

theorem regularFile_ok {d : Directory} {name : Bytes} {material : Material}
    (h : d.regularFile name = .ok material) :
    d.read name = some material ∧ material.regular = true := by
  unfold regularFile at h
  split at h
  · cases h
  · split at h <;> cases h
    exact ⟨‹_›, ‹_›⟩

theorem entryNames_ok {d : Directory} {names : List Bytes} (h : d.entryNames = .ok names) :
    names = d.names := by
  unfold entryNames at h
  split at h
  · cases h
  · split at h <;> cases h
    rfl

end Directory

/-! ## Publishing -/

/-- A set of files to publish, with the metadata new files and directories get
and what the policies make of it. -/
structure Request where
  files : List (String × Bytes)
  marker : Option String
  newFile : Metadata
  newDirectory : Metadata
  filePolicy : Metadata → Metadata
  directoryPolicy : Metadata → Metadata

/-- The replacements, where `prior` are the names before them. -/
def validateReplacements (prior : List String) : List (String × Bytes) → Except String Unit
  | [] => .ok ()
  | (name, contents) :: rest =>
    if !validateFileName name then .error "managed name must be a single file name"
    else if maxMaterialBytes < contents.length then .error "certificate material is too large"
    else if name ∈ prior then .error "duplicate certificate file name"
    else validateReplacements (name :: prior) rest

namespace Request

variable (r : Request)

def validateSize : Except String Unit :=
  if r.files.isEmpty || maxEntries < r.files.length then
    .error "invalid certificate generation size"
  else .ok ()

def validateMarker : Except String Unit :=
  match r.marker with
  | none => .ok ()
  | some marker =>
    if !validateFileName marker then .error "managed name must be a single file name"
    else if (r.files.map Prod.fst).contains marker then
      .error "refresh marker overlaps material"
    else .ok ()

def validate : Except String Unit := do
  r.validateSize
  validateReplacements [] r.files
  r.validateMarker

/-- Whether an entry is replaced. -/
def replaces (name : Bytes) : Bool := r.files.any fun file => bytes file.1 == name

/-- The file written for a replacement. -/
def material (contents : Bytes) : Material := ⟨true, r.filePolicy r.newFile, contents⟩

def markerMaterial : Material := ⟨true, r.newFile, []⟩

def checkSize (names : List Bytes) : Except String Unit :=
  let retained := (names.filter fun name => !r.replaces name).length
  let extraMarker := match r.marker with
    | some marker => if names.contains (bytes marker) then 0 else 1
    | none => 0
  if maxEntries < retained + r.files.length + extraMarker then
    .error "certificate generation has too many entries"
  else .ok ()

/-- Links an entry into the staged directory, unless it is replaced. Every
entry must be a file. -/
def linkEntry (previous : Directory) (name : Bytes) (staged : Directory) :
    Except String Directory := do
  let source ← previous.regularFile name
  if r.replaces name then .ok staged else staged.create name source

def linkEntries (previous : Directory) : List Bytes → Directory → Except String Directory
  | [], staged => .ok staged
  | name :: rest, staged => do
    let staged ← r.linkEntry previous name staged
    linkEntries previous rest staged

def writeFile (file : String × Bytes) (staged : Directory) : Except String Directory :=
  staged.create (bytes file.1) (r.material file.2)

def writeFiles : List (String × Bytes) → Directory → Except String Directory
  | [], staged => .ok staged
  | file :: rest, staged => do
    let staged ← r.writeFile file staged
    writeFiles rest staged

def applyDirectoryPolicy (staged : Directory) : Directory :=
  { staged with metadata := r.directoryPolicy staged.metadata }

def stage (previous : Directory) : Except String Directory := do
  r.validate
  let names ← previous.entryNames
  r.checkSize names
  let staged ← r.linkEntries previous names (.empty r.newDirectory)
  let staged ← r.writeFiles r.files staged
  return r.applyDirectoryPolicy staged

end Request

/-- Whether a replacement is what is there already. -/
def compareFile (previous staged : Directory) (name : String) (contents : Bytes) :
    Except String Bool :=
  match previous.read (bytes name) with
  | none => .ok false
  | some old =>
    if old.regular then do
      let new ← staged.regularFile (bytes name)
      return old.metadata == new.metadata && (readMaterial old).toOption == some contents
    else .error "certificate directory may contain regular files only"

def compareFiles (previous staged : Directory) : List (String × Bytes) → Except String Bool
  | [] => .ok true
  | (name, contents) :: rest => do
    let same ← compareFile previous staged name contents
    let others ← compareFiles previous staged rest
    return same && others

namespace Request

variable (r : Request)

def unchanged (previous staged : Directory) : Except String Bool := do
  let same ← compareFiles previous staged r.files
  return previous.metadata == staged.metadata && same

/-- Creates the refresh marker in the staged directory, in place of a retained
one. -/
def mark (staged : Directory) : Except String Directory :=
  match r.marker with
  | none => .ok staged
  | some marker => (staged.unlink (bytes marker)).create (bytes marker) r.markerMaterial

/-- The generation a publication exchanges in, if it needs to. -/
def replaceFilesWithMarker (previous : Directory) : Except String (Option Directory) := do
  let staged ← r.stage previous
  let unchanged ← r.unchanged previous staged
  if unchanged then .ok none else (r.mark staged).map some

/-! ## What is staged -/

variable {r}

theorem replaces_iff {name : Bytes} : r.replaces name ↔ ∃ file ∈ r.files, bytes file.1 = name := by
  simp [replaces]

theorem linkEntries_read {previous staged linked : Directory} {names : List Bytes}
    (h : r.linkEntries previous names staged = .ok linked) (k : Bytes) :
    linked.read k = if k ∈ names ∧ ¬ r.replaces k then previous.read k else staged.read k := by
  induction names generalizing staged with
  | nil =>
    cases h
    simp
  | cons name rest ih =>
    obtain ⟨next, hnext, h⟩ := bind_ok.mp h
    obtain ⟨source, hsource, hnext⟩ := bind_ok.mp hnext
    obtain ⟨hread, -⟩ := Directory.regularFile_ok hsource
    rw [ih h]
    by_cases hname : r.replaces name = true
    · rw [if_pos hname] at hnext
      cases hnext
      by_cases hk : k = name
      · subst hk
        simp [hname]
      · simp [hk]
    · rw [if_neg hname] at hnext
      rw [Directory.read_create hnext]
      by_cases hk : k = name
      · subst hk
        simp [hname, hread]
      · simp [hk]

theorem linkEntries_metadata {previous staged linked : Directory} {names : List Bytes}
    (h : r.linkEntries previous names staged = .ok linked) : linked.metadata = staged.metadata := by
  induction names generalizing staged with
  | nil =>
    cases h
    rfl
  | cons name rest ih =>
    obtain ⟨next, hnext, h⟩ := bind_ok.mp h
    obtain ⟨source, -, hnext⟩ := bind_ok.mp hnext
    rw [ih h]
    split at hnext
    · cases hnext
      rfl
    · exact Directory.create_metadata hnext

theorem writeFiles_metadata {files : List (String × Bytes)} {staged written : Directory}
    (h : r.writeFiles files staged = .ok written) : written.metadata = staged.metadata := by
  induction files generalizing staged with
  | nil =>
    cases h
    rfl
  | cons file rest ih =>
    obtain ⟨next, hnext, h⟩ := bind_ok.mp h
    rw [ih h, Directory.create_metadata hnext]

/-- Writing never replaces an entry of the staged directory. -/
theorem writeFiles_keeps {files : List (String × Bytes)} {staged written : Directory}
    (h : r.writeFiles files staged = .ok written) {k : Bytes} {material : Material}
    (hk : staged.read k = some material) : written.read k = some material := by
  induction files generalizing staged with
  | nil =>
    cases h
    exact hk
  | cons file rest ih =>
    obtain ⟨next, hnext, h⟩ := bind_ok.mp h
    apply ih h
    rw [Directory.read_create hnext, if_neg]
    · exact hk
    · rintro rfl
      rw [Directory.read_of_create hnext] at hk
      cases hk

theorem writeFiles_read {files : List (String × Bytes)} {staged written : Directory}
    (h : r.writeFiles files staged = .ok written) :
    (∀ file ∈ files, written.read (bytes file.1) = some (r.material file.2)) ∧
      ∀ k, (∀ file ∈ files, bytes file.1 ≠ k) → written.read k = staged.read k := by
  induction files generalizing staged with
  | nil =>
    cases h
    exact ⟨fun file hfile => absurd hfile List.not_mem_nil, fun _ _ => rfl⟩
  | cons file rest ih =>
    obtain ⟨next, hnext, h⟩ := bind_ok.mp h
    obtain ⟨hwritten, hkept⟩ := ih h
    constructor
    · intro f hf
      cases hf with
      | head =>
        apply writeFiles_keeps h
        rw [Directory.read_create hnext, if_pos rfl]
      | tail _ hf => exact hwritten f hf
    · intro k hk
      have hne : k ≠ bytes file.1 := (hk file List.mem_cons_self).symm
      rw [hkept k fun f hf => hk f (List.mem_cons_of_mem _ hf), Directory.read_create hnext,
        if_neg hne]

theorem stage_ok {previous staged : Directory} (h : r.stage previous = .ok staged) :
    (∀ file ∈ r.files, staged.read (bytes file.1) = some (r.material file.2)) ∧
    (∀ name, ¬ r.replaces name → staged.read name = previous.read name) ∧
    staged.metadata = r.directoryPolicy r.newDirectory := by
  obtain ⟨-, -, h⟩ := bind_ok.mp h
  obtain ⟨names, hnames, h⟩ := bind_ok.mp h
  obtain ⟨-, -, h⟩ := bind_ok.mp h
  obtain ⟨linked, hlinked, h⟩ := bind_ok.mp h
  obtain ⟨written, hwritten, h⟩ := bind_ok.mp h
  cases h
  cases Directory.entryNames_ok hnames
  obtain ⟨hfiles, hrest⟩ := writeFiles_read hwritten
  refine ⟨hfiles, fun name hname => ?_, ?_⟩
  · have hunwritten : ∀ file ∈ r.files, bytes file.1 ≠ name :=
      fun file hfile heq => hname (replaces_iff.mpr ⟨file, hfile, heq⟩)
    have hread : written.read name = linked.read name := hrest name hunwritten
    change written.read name = previous.read name
    rw [hread, linkEntries_read hlinked]
    by_cases hmem : name ∈ previous.names
    · rw [if_pos ⟨hmem, hname⟩]
    · rw [if_neg fun h => hmem h.1, Directory.read_eq_none hmem]
      rfl
  · change r.directoryPolicy written.metadata = _
    rw [writeFiles_metadata hwritten, linkEntries_metadata hlinked]
    rfl

theorem mark_read {staged marked : Directory} (h : r.mark staged = .ok marked) (k : Bytes) :
    marked.read k =
      if ∃ marker, r.marker = some marker ∧ bytes marker = k then some r.markerMaterial
      else staged.read k := by
  unfold mark at h
  split at h
  · rename_i hmarker
    cases h
    simp [hmarker]
  · rename_i marker hmarker
    rw [Directory.read_create h, Directory.read_unlink]
    by_cases hk : k = bytes marker
    · subst hk
      rw [if_pos rfl, if_pos ⟨marker, hmarker, rfl⟩]
    · rw [if_neg hk, if_neg hk, if_neg]
      rintro ⟨m, hm, rfl⟩
      rw [hmarker] at hm
      exact hk (congrArg bytes (Option.some.inj hm).symm)

/-! ## What a publication leaves -/

variable (r) in
/-- No material and no metadata differs from what is requested. -/
def Holds (d : Directory) : Prop :=
  d.metadata = r.directoryPolicy r.newDirectory ∧
    ∀ file ∈ r.files, d.read (bytes file.1) = some (r.material file.2)

theorem replaceFilesWithMarker_of_stage {previous staged : Directory} {unchanged : Bool}
    (hstage : r.stage previous = .ok staged) (h : r.unchanged previous staged = .ok unchanged) :
    r.replaceFilesWithMarker previous =
      if unchanged then .ok none else (r.mark staged).map some := by
  rw [replaceFilesWithMarker, hstage]
  change (r.unchanged previous staged).bind _ = _
  rw [h]
  rfl

theorem compareFiles_true {previous staged : Directory} {files : List (String × Bytes)}
    (h : compareFiles previous staged files = .ok true) (file : String × Bytes)
    (hfile : file ∈ files) : ∃ old new, previous.read (bytes file.1) = some old ∧
      staged.read (bytes file.1) = some new ∧ old.regular = true ∧ old.metadata = new.metadata ∧
      old.bytes = file.2 := by
  induction files with
  | nil => exact absurd hfile List.not_mem_nil
  | cons head rest ih =>
    obtain ⟨same, hsame, h⟩ := bind_ok.mp h
    obtain ⟨others, hothers, h⟩ := bind_ok.mp h
    obtain ⟨rfl, rfl⟩ : same = true ∧ others = true := by
      cases h' : same <;> cases h'' : others <;> simp_all [pure, Except.pure]
    cases hfile with
    | tail _ hfile => exact ih hothers hfile
    | head =>
      unfold compareFile at hsame
      split at hsame
      · cases hsame
      rename_i old hold
      split at hsame
      · rename_i hregular
        obtain ⟨new, hnew, hsame⟩ := bind_ok.mp hsame
        obtain ⟨hnew, -⟩ := Directory.regularFile_ok hnew
        have hequal := Except.ok.inj hsame
        rw [Bool.and_eq_true, beq_iff_eq, beq_iff_eq] at hequal
        refine ⟨old, new, hold, hnew, hregular, hequal.1, ?_⟩
        have hbytes := hequal.2
        unfold readMaterial at hbytes
        rw [if_pos hregular] at hbytes
        split at hbytes
        · exact Option.some.inj hbytes
        · cases hbytes
      · cases hsame

theorem replaceFilesWithMarker_none {previous : Directory}
    (h : r.replaceFilesWithMarker previous = .ok none) : r.Holds previous := by
  obtain ⟨staged, hstaged, h⟩ := bind_ok.mp h
  obtain ⟨unchanged, hunchanged, h⟩ := bind_ok.mp h
  cases unchanged with
  | false =>
    obtain ⟨_, -, hnone⟩ := map_ok.mp h
    cases hnone
  | true =>
    obtain ⟨same, hsame, hunchanged⟩ := bind_ok.mp hunchanged
    have hequal := Except.ok.inj hunchanged
    rw [Bool.and_eq_true, beq_iff_eq] at hequal
    obtain ⟨hmetadata, rfl⟩ := hequal
    obtain ⟨hfiles, -, hpolicy⟩ := stage_ok hstaged
    refine ⟨hmetadata.trans hpolicy, fun file hfile => ?_⟩
    obtain ⟨old, new, hold, hnew, hregular, hsame, hbytes⟩ := compareFiles_true hsame file hfile
    rw [hfiles file hfile] at hnew
    cases hnew
    rw [hold]
    obtain ⟨regular, metadata, contents⟩ := old
    exact congrArg some (by simp_all [material])

theorem marker_not_replaced {previous staged : Directory} (h : r.stage previous = .ok staged)
    {marker : String} (hmarker : r.marker = some marker) : ¬ r.replaces (bytes marker) := by
  obtain ⟨_, hvalid, -⟩ := bind_ok.mp h
  obtain ⟨-, -, hvalid⟩ := bind_ok.mp hvalid
  obtain ⟨-, -, hvalid⟩ := bind_ok.mp hvalid
  simp only [validateMarker, hmarker] at hvalid
  split at hvalid
  · cases hvalid
  split at hvalid
  · cases hvalid
  rename_i hfresh
  intro hreplaces
  obtain ⟨file, hfile, heq⟩ := replaces_iff.mp hreplaces
  apply hfresh
  rw [List.contains_iff_mem]
  exact bytes_injective heq ▸ List.mem_map_of_mem hfile

theorem replaceFilesWithMarker_some {previous published : Directory}
    (h : r.replaceFilesWithMarker previous = .ok (some published)) :
    (∀ file ∈ r.files, published.read (bytes file.1) = some (r.material file.2)) ∧
    (∀ name, ¬ r.replaces name → (∀ marker, r.marker = some marker → bytes marker ≠ name) →
      published.read name = previous.read name) ∧
    ∀ marker, r.marker = some marker → published.read (bytes marker) = some r.markerMaterial := by
  obtain ⟨staged, hstaged, h⟩ := bind_ok.mp h
  obtain ⟨unchanged, -, h⟩ := bind_ok.mp h
  cases unchanged with
  | true => cases h
  | false =>
    obtain ⟨marked, hmarked, hsome⟩ := map_ok.mp h
    cases hsome
    obtain ⟨hfiles, hrest, -⟩ := stage_ok hstaged
    have hread := mark_read hmarked
    refine ⟨fun file hfile => ?_, fun name hname hother => ?_, fun marker hmarker => ?_⟩
    · rw [hread, if_neg, hfiles file hfile]
      rintro ⟨marker, hmarker, heq⟩
      exact marker_not_replaced hstaged hmarker (replaces_iff.mpr ⟨file, hfile, heq.symm⟩)
    · rw [hread, if_neg, hrest name hname]
      rintro ⟨marker, hmarker, heq⟩
      exact hother marker hmarker heq
    · rw [hread, if_pos ⟨marker, hmarker, rfl⟩]

end Request

end Sbctl
