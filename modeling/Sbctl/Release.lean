import Sbctl.Lib.Base64
import Sbctl.Lib.CanonicalJson
import Sbctl.Lib.Lines
import Sbctl.Lib.Machine
import Sbctl.Lib.Spelling
import Sbctl.Lib.Traverse

/-!
# Signed release manifests

A manifest names fixed versions and digests, and carries a signature over its
canonical text: all fields but the signature, with sorted keys and no spaces.

* `canonicalBytes_inj`: the signed bytes are those of one release;
* `release_determined`: so a signed manifest is read and verified as it was signed.
-/

namespace Sbctl

open Text
open Json (number asNat? asStr? openBrace closeBrace printString)

/-! ## Manifests -/

structure ReleaseArtifact where
  version : String
  sha256 : String
  url : Option String
  deriving DecidableEq

/-- An inclusive range of sing-box versions. -/
structure CompatibilityRange where
  min : Option String
  max : Option String
  deriving DecidableEq

structure ReleaseManifest where
  schema : UInt32
  sbctl : ReleaseArtifact
  singBox : ReleaseArtifact
  singBoxCompatibility : List CompatibilityRange
  signature : Option String
  deriving DecidableEq

inductive ReleaseError where
  | missingTrustAnchor
  | invalidTrustAnchor
  | manifestParse
  | schemaMismatch (schema : UInt32)
  | unsignedManifest
  | invalidSignature
  | invalidDigest (name : String)
  | floatingVersion (name version : String)
  | malformedVersion (version name : String)
  | emptyCompatibilityMatrix
  | compatibilityMismatch (version ranges : String)
  | invalidKeySeed (message : String)
  deriving DecidableEq

/-! ## The fields of a manifest -/

/-- The numbers of a version, of which those missing are zero. -/
def versionParts (error : ReleaseError) :
    Nat → List (List Char) → Except ReleaseError (List Nat)
  | n, [] => .ok (List.replicate n 0)
  | 0, _ :: _ => .error error
  | n + 1, part :: parts =>
    if part = [] ∨ ¬ part.all Char.isDigit then .error error
    else match parseUnsigned Machine.maxU64 part with
      | none => .error error
      | some number => do
        let rest ← versionParts error n parts
        return number :: rest

/-- Parses `major.minor.patch`, with an optional leading `v`. -/
def parseVersion (value name : String) : Except ReleaseError (List Nat) :=
  let value := (stripPrefix ['v'] value.toList).getD value.toList
  versionParts (.malformedVersion (String.ofList value) name) 3 (splitChar '.' value)

def floatingVersions : List String := ["latest", "main", "master"]

def rejectFloatingVersion (version name : String) : Except ReleaseError Unit :=
  if version ∈ floatingVersions then .error (.floatingVersion name version) else .ok ()

def validateDigest (name digest : String) : Except ReleaseError Unit :=
  if digest.utf8ByteSize = 64 ∧ digest.toList.all fun c => (hexValue c).isSome then .ok ()
  else .error (.invalidDigest name)

def rangeDisplay (range : CompatibilityRange) : String :=
  range.min.getD "*" ++ "..=" ++ range.max.getD "*"

/-- A boundary that is there has to be a version. -/
def parseBoundary (name : String) : Option String → Except ReleaseError (Option (List Nat))
  | none => .ok none
  | some value => (parseVersion value name).map some

def parseRange (range : CompatibilityRange) :
    Except ReleaseError (Option (List Nat) × Option (List Nat)) := do
  let min ← parseBoundary "sing-box compatibility min" range.min
  let max ← parseBoundary "sing-box compatibility max" range.max
  return (min, max)

/-- Whether a version lies between two boundaries, as far as they are there. -/
def inRange (version : List Nat) (range : Option (List Nat) × Option (List Nat)) : Bool :=
  range.1.all (fun min => ¬ version < min) && range.2.all (fun max => ¬ max < version)

def checkCompatibilityMatrix (manifest : ReleaseManifest) : Except ReleaseError Unit :=
  if manifest.singBoxCompatibility = [] then .error .emptyCompatibilityMatrix
  else do
    let version ← parseVersion manifest.singBox.version "sing-box"
    let parsed ← manifest.singBoxCompatibility.mapM parseRange
    if parsed.any (inRange version) then .ok ()
    else
      .error (.compatibilityMismatch manifest.singBox.version
        (", ".intercalate (manifest.singBoxCompatibility.map rangeDisplay)))

def manifestSchemaVersion : UInt32 := 1

/-- Every field but the signature. -/
def validateManifestFields (manifest : ReleaseManifest) : Except ReleaseError Unit := do
  if manifest.schema ≠ manifestSchemaVersion then .error (.schemaMismatch manifest.schema)
  else
    rejectFloatingVersion manifest.sbctl.version "sbctl"
    rejectFloatingVersion manifest.singBox.version "sing-box"
    validateDigest "sbctl" manifest.sbctl.sha256
    validateDigest "sing-box" manifest.singBox.sha256
    checkCompatibilityMatrix manifest

/-! ## Values of manifests -/

def optionText : Option String → Json
  | some s => .str s
  | none => .null

def ReleaseArtifact.toValue (artifact : ReleaseArtifact) : Json :=
  .obj [("version", .str artifact.version), ("sha256", .str artifact.sha256),
    ("url", optionText artifact.url)]

def CompatibilityRange.toValue (range : CompatibilityRange) : Json :=
  .obj [("min", optionText range.min), ("max", optionText range.max)]

/-- The fields that are signed: the signature is skipped. -/
def ReleaseManifest.fields (manifest : ReleaseManifest) : List (String × Json) :=
  [("schema", number manifest.schema.toNat), ("sbctl", manifest.sbctl.toValue),
    ("sing_box", manifest.singBox.toValue),
    ("sing_box_compatibility", .arr (manifest.singBoxCompatibility.map (·.toValue)))]

def ReleaseManifest.toValue (manifest : ReleaseManifest) : Json := .obj manifest.fields

/-! ## Reading a manifest -/

/-- A structure is read from an object, or from an array of its fields in order. -/
def structFields (names : List String) : Json → Option (List (String × Json))
  | .obj entries => some entries
  | .arr items => if items.length ≤ names.length then some (names.zip items) else none
  | _ => none

/-- The value of a field, if it is there; no field may be there twice. -/
def fieldValue (fields : List (String × Json)) (name : String) : Option (Option Json) :=
  match fields.filter (·.1 = name) with
  | [] => some none
  | [(_, v)] => some (some v)
  | _ => none

def requiredField {α : Type} (fields : List (String × Json)) (name : String)
    (read : Json → Option α) : Option α := do
  match ← fieldValue fields name with
  | none => none
  | some v => read v

def defaultedField {α : Type} (fields : List (String × Json)) (name : String)
    (read : Json → Option α) (default : α) : Option α := do
  match ← fieldValue fields name with
  | none => some default
  | some v => read v

def readOptionText : Json → Option (Option String)
  | .null => some none
  | .str s => some (some s)
  | _ => none

def ReleaseArtifact.ofValue (v : Json) : Option ReleaseArtifact := do
  let fields ← structFields ["version", "sha256", "url"] v
  let version ← requiredField fields "version" asStr?
  let sha256 ← requiredField fields "sha256" asStr?
  let url ← defaultedField fields "url" readOptionText none
  return { version, sha256, url }

def CompatibilityRange.ofValue (v : Json) : Option CompatibilityRange := do
  let fields ← structFields ["min", "max"] v
  let min ← defaultedField fields "min" readOptionText none
  let max ← defaultedField fields "max" readOptionText none
  return { min, max }

def readCompatibility : Json → Option (List CompatibilityRange)
  | .arr items => items.mapM CompatibilityRange.ofValue
  | _ => none

def readU32 (v : Json) : Option UInt32 := (asNat? (UInt32.size - 1) v).map UInt32.ofNat

def ReleaseManifest.ofValue (v : Json) : Option ReleaseManifest := do
  let fields ← structFields
    ["schema", "sbctl", "sing_box", "sing_box_compatibility", "signature"] v
  let schema ← requiredField fields "schema" readU32
  let sbctl ← requiredField fields "sbctl" ReleaseArtifact.ofValue
  let singBox ← requiredField fields "sing_box" ReleaseArtifact.ofValue
  let singBoxCompatibility ← defaultedField fields "sing_box_compatibility" readCompatibility []
  let signature ← defaultedField fields "signature" readOptionText none
  return { schema, sbctl, singBox, singBoxCompatibility, signature }

def ReleaseManifest.ofSlice (contents : List UInt8) : Except ReleaseError ReleaseManifest :=
  let value := (fromUtf8 contents).bind fun text => Json.parse text.toList
  match value.bind ReleaseManifest.ofValue with
  | some manifest => .ok manifest
  | none => .error .manifestParse

/-! ## The canonical text -/

mutual

/-- Compact text with the keys of every object in order. -/
def writeCanonicalJson : Json → List Char
  | .obj entries =>
    openBrace :: ([','].intercalate ((KeyOrder.sortKeys (writtenEntries entries)).map fun entry =>
      printString entry.1 ++ ':' :: entry.2) ++ [closeBrace])
  | .arr items => '[' :: ([','].intercalate (writtenItems items) ++ [']'])
  | .null => Json.print Json.compact 0 .null
  | .bool b => Json.print Json.compact 0 (.bool b)
  | .num n => Json.print Json.compact 0 (.num n)
  | .str s => Json.print Json.compact 0 (.str s)

def writtenItems : List Json → List (List Char)
  | [] => []
  | v :: vs => writeCanonicalJson v :: writtenItems vs

def writtenEntries : List (String × Json) → List (String × List Char)
  | [] => []
  | (k, v) :: es => (k, writeCanonicalJson v) :: writtenEntries es

end

/-- The order a map keeps its entries in. -/
structure MapOrder where
  arrange : Json → Json
  reorders : ∀ v, Json.Reorders v (arrange v)

def MapOrder.insertion : MapOrder := ⟨id, .refl⟩

def MapOrder.sorted : MapOrder := ⟨Json.canonical, Json.reorders_canonical⟩

/-- The payload the signature covers. -/
def canonicalBytes (order : MapOrder) (manifest : ReleaseManifest) : List UInt8 :=
  bytes (String.ofList (writeCanonicalJson (order.arrange manifest.toValue)))

/-! ## Signatures -/

abbrev Key := Vector UInt8 32

/-- Ed25519, as the library has it. -/
structure Ed25519 where
  publicKey : Key → Key
  sign : Key → List UInt8 → Vector UInt8 64
  acceptsKey : Key → Bool
  verifyStrict : Key → List UInt8 → Vector UInt8 64 → Bool

/-- What a key signs is verified with the key that belongs to it. -/
structure Ed25519.Correct (ed : Ed25519) : Prop where
  accepts : ∀ seed, ed.acceptsKey (ed.publicKey seed) = true
  verifies : ∀ seed message,
    ed.verifyStrict (ed.publicKey seed) message (ed.sign seed message) = true

def signatureFromSlice (encoded : List UInt8) : Option (Vector UInt8 64) :=
  if h : encoded.length = 64 then some ⟨encoded.toArray, h⟩ else none

def signManifest (ed : Ed25519) (order : MapOrder) (manifest : ReleaseManifest) (seed : Key) :
    String :=
  String.ofList (Base64.encode .standard (ed.sign seed (canonicalBytes order manifest)).toList)

def verifySignature (ed : Ed25519) (order : MapOrder) (trusted : Except ReleaseError Key)
    (manifest : ReleaseManifest) : Except ReleaseError Unit :=
  match manifest.signature with
  | none => .error .unsignedManifest
  | some encoded =>
    match (Base64.decode .standard encoded.toList).bind signatureFromSlice with
    | none => .error .invalidSignature
    | some signature => do
      let key ← trusted
      if ed.acceptsKey key ∧ ed.verifyStrict key (canonicalBytes order manifest) signature then
        .ok ()
      else .error .invalidSignature

/-- The whole chain of trust of a manifest. -/
def verifyTrusted (ed : Ed25519) (order : MapOrder) (trusted : Except ReleaseError Key)
    (manifest : ReleaseManifest) : Except ReleaseError Unit := do
  validateManifestFields manifest
  verifySignature ed order trusted manifest

/-- Reads and verifies a manifest file. -/
def verifyManifest (ed : Ed25519) (order : MapOrder) (trusted : Except ReleaseError Key)
    (contents : List UInt8) : Except ReleaseError ReleaseManifest := do
  let manifest ← ReleaseManifest.ofSlice contents
  verifyTrusted ed order trusted manifest
  return manifest

def insertField (name : String) (v : Json) : Json → Json
  | .obj entries => .obj (Assoc.put name v entries)
  | other => other

/-- The text of a manifest file, with the signature the canonical text leaves out. -/
def manifestJsonWithSignature (order : MapOrder) (manifest : ReleaseManifest) : List UInt8 :=
  let value := order.arrange manifest.toValue
  let value := match manifest.signature with
    | some signature => order.arrange (insertField "signature" (.str signature) value)
    | none => value
  bytes (String.ofList (Json.print Json.pretty 0 value))

/-! ## Keys -/

def hexBytes : List Char → Option (List UInt8)
  | [] => some []
  | [_] => none
  | high :: low :: rest => do
    let high ← hexValue high
    let low ← hexValue low
    let rest ← hexBytes rest
    return UInt8.ofNat (16 * high + low) :: rest

def keyFromSlice (key : List UInt8) : Option Key :=
  if h : key.length = 32 then some ⟨key.toArray, h⟩ else none

/-- Reads a key from the first line that is no comment. -/
def parseSeedHex (contents : String) : Except ReleaseError Key :=
  match ((lines contents.toList).map trim).find? fun line => line ≠ [] ∧ line.head? ≠ some '#' with
  | none => .error (.invalidKeySeed "no seed line found")
  | some line =>
    let hex := (stripPrefix ['0', 'x'] line).getD line
    match (hexBytes hex).bind keyFromSlice with
    | some key => .ok key
    | none => .error (.invalidKeySeed "expected exactly 64 hex digits")

def hexDigits (byte : UInt8) : List Char :=
  [Nat.digitChar (byte.toNat / 16), Nat.digitChar (byte.toNat % 16)]

def formatHex (key : Key) : String := String.ofList (key.toList.flatMap hexDigits)

/-- The public key of the development seed, which anyone may sign with. -/
def developmentPublicKey : Key :=
  #v[0x24, 0x7F, 0x88, 0xE1, 0x63, 0x24, 0x29, 0x86, 0xB7, 0x10, 0x7E, 0xB7, 0x04, 0xA9, 0x83, 0xE1,
    0x21, 0x86, 0xD2, 0x69, 0x7A, 0x39, 0x27, 0xB7, 0xE6, 0xB4, 0x2E, 0xC2, 0xB3, 0x64, 0x27, 0x2B]

/-- The key a build trusts. -/
def productionPublicKey (ed : Ed25519) (configured : Option String) : Except ReleaseError Key :=
  match configured.filter fun text => trim text.toList ≠ [] with
  | none => .error .missingTrustAnchor
  | some text =>
    match parseSeedHex text with
    | .error _ => .error .invalidTrustAnchor
    | .ok key =>
      if key = developmentPublicKey ∨ ¬ ed.acceptsKey key then .error .invalidTrustAnchor
      else .ok key

/-- Signs the manifest of a file, whose fields are valid. -/
def signManifestFile (ed : Ed25519) (order : MapOrder) (contents seed : String) :
    Except ReleaseError (List UInt8) := do
  let seed ← parseSeedHex seed
  let manifest ← ReleaseManifest.ofSlice (bytes contents)
  validateManifestFields manifest
  return manifestJsonWithSignature order
    { manifest with signature := some (signManifest ed order manifest seed) }

/-! ## The canonical text is that of the canonical value -/

section
open Json (print compact canonical canonicalItems canonicalEntries)

theorem writtenItems_eq (items : List Json) :
    writtenItems items = items.map writeCanonicalJson := by
  induction items with
  | nil => rfl
  | cons v vs ih => rw [writtenItems, ih, List.map_cons]

theorem writtenEntries_eq (entries : List (String × Json)) :
    writtenEntries entries = entries.map fun e => (e.1, writeCanonicalJson e.2) := by
  induction entries with
  | nil => rfl
  | cons e es ih => rw [writtenEntries, ih, List.map_cons]

/-- What is written is the compact text of the canonical value. -/
theorem writeCanonicalJson_eq (v : Json) : writeCanonicalJson v = print compact 0 v.canonical := by
  induction v using Json.induct with
  | null => rfl
  | bool b => rfl
  | num n => rfl
  | str s => rfl
  | arr items ih =>
    rw [writeCanonicalJson, writtenItems_eq, canonical, Json.canonicalItems_eq,
      Json.print_compact_arr, List.map_map, List.map_congr_left ih]
    rfl
  | obj entries ih =>
    have hwritten : writtenEntries entries =
        (canonicalEntries entries).map fun e => (e.1, print compact 0 e.2) := by
      rw [writtenEntries_eq, Json.canonicalEntries_eq, List.map_map]
      refine List.map_congr_left fun e he => ?_
      rw [ih e he]
      rfl
    rw [writeCanonicalJson, hwritten, canonical, Json.print_compact_obj,
      KeyOrder.sortKeys_map, List.map_map]
    rfl

end

/-! ## Readers do not see the order of keys -/

section
open Json (canonical canonicalEntries WellFormed)

/-- A reader that gives the same for the canonical form of a value. -/
def Unordered {α : Type} (read : Json → Option α) : Prop :=
  ∀ v, v.WellFormed → read v.canonical = read v

theorem unordered_asStr : Unordered asStr? := fun v _ => by cases v <;> rfl

theorem unordered_readU32 : Unordered readU32 := fun v _ => by cases v <;> rfl

theorem unordered_readOptionText : Unordered readOptionText := fun v _ => by cases v <;> rfl

theorem fieldValue_of_nodup {fields : List (String × Json)} (h : (fields.map Prod.fst).Nodup)
    (name : String) : fieldValue fields name = some (fields.lookup name) := by
  induction fields with
  | nil => rfl
  | cons e es ih =>
    obtain ⟨k, v⟩ := e
    obtain ⟨hfresh, hrest⟩ := List.nodup_cons.mp h
    rw [Assoc.lookup_cons_ite]
    by_cases hk : k = name
    · subst hk
      have hnone : es.filter (fun e => decide (e.1 = k)) = [] := by
        rw [List.filter_eq_nil_iff]
        intro e he heq
        exact hfresh (List.mem_map.mpr ⟨e, he, of_decide_eq_true heq⟩)
      rw [if_pos rfl, fieldValue, List.filter_cons_of_pos (by simp), hnone]
    · have hsame : fieldValue ((k, v) :: es) name = fieldValue es name := by
        rw [fieldValue, List.filter_cons_of_neg (by simpa using hk)]
        rfl
      rw [if_neg (Ne.symm hk), hsame, ih hrest]

theorem fieldValue_map (f : Json → Json) (fields : List (String × Json)) (name : String) :
    fieldValue (fields.map fun e => (e.1, f e.2)) name =
      (fieldValue fields name).map (Option.map f) := by
  have hfilter : (fields.map fun e => (e.1, f e.2)).filter (fun e => decide (e.1 = name)) =
      (fields.filter fun e => decide (e.1 = name)).map fun e => (e.1, f e.2) := by
    rw [List.filter_map]
    rfl
  rw [fieldValue, fieldValue, hfilter]
  generalize fields.filter (fun e => decide (e.1 = name)) = found
  rcases found with _ | ⟨e, _ | ⟨e', es⟩⟩ <;> rfl

/-- Two lists of fields with the same values, up to the order of keys. -/
structure SameFields (fields others : List (String × Json)) : Prop where
  values : ∀ name, fieldValue others name = (fieldValue fields name).map (Option.map canonical)
  wellFormed : ∀ e ∈ fields, e.2.WellFormed

theorem mem_of_fieldValue {fields : List (String × Json)} {name : String} {v : Json}
    (h : fieldValue fields name = some (some v)) : (name, v) ∈ fields := by
  unfold fieldValue at h
  split at h
  · cases h
  · rename_i k w heq
    cases h
    have hmem : (k, v) ∈ fields.filter (fun e => decide (e.1 = name)) := by simp [heq]
    obtain ⟨hfield, hname⟩ := List.mem_filter.mp hmem
    exact of_decide_eq_true hname ▸ hfield
  · cases h

theorem structFields_canonical {v : Json} (hv : v.WellFormed) (names : List String) :
    (structFields names v = none ∧ structFields names v.canonical = none) ∨
      ∃ fields others, structFields names v = some fields ∧
        structFields names v.canonical = some others ∧ SameFields fields others := by
  cases hv with
  | null => exact .inl ⟨rfl, rfl⟩
  | bool b => exact .inl ⟨rfl, rfl⟩
  | num n => exact .inl ⟨rfl, rfl⟩
  | str s => exact .inl ⟨rfl, rfl⟩
  | @arr items inside =>
    rw [Json.canonical, Json.canonicalItems_eq]
    by_cases hlength : items.length ≤ names.length
    · have hlength' : (items.map canonical).length ≤ names.length := by rwa [List.length_map]
      rw [structFields, if_pos hlength, structFields, if_pos hlength']
      refine .inr ⟨_, _, rfl, rfl, fun name => ?_, fun e he => inside _ (List.of_mem_zip he).2⟩
      have hzip : names.zip (items.map canonical) =
          (names.zip items).map fun e => (e.1, canonical e.2) := by
        rw [List.zip_map_right]
        rfl
      rw [hzip, fieldValue_map]
    · have hlength' : ¬ (items.map canonical).length ≤ names.length := by rwa [List.length_map]
      rw [structFields, if_neg hlength, structFields, if_neg hlength']
      exact .inl ⟨rfl, rfl⟩
  | @obj entries distinct inside =>
    rw [Json.canonical]
    refine .inr ⟨_, _, rfl, rfl, fun name => ?_, inside⟩
    have hdistinct : ((KeyOrder.sortKeys (canonicalEntries entries)).map Prod.fst).Nodup := by
      refine ((KeyOrder.sortKeys_perm _).map Prod.fst).nodup_iff.mpr ?_
      rw [Json.canonicalEntries_keys]
      exact distinct
    rw [fieldValue_of_nodup hdistinct, fieldValue_of_nodup distinct, Json.lookup_canonical distinct]
    rfl

section
variable {α : Type} {fields others : List (String × Json)} {read : Json → Option α}

theorem SameFields.required (h : SameFields fields others) (hread : Unordered read)
    (name : String) :
    requiredField others name read = requiredField fields name read := by
  rw [requiredField, requiredField, h.values]
  cases hvalue : fieldValue fields name with
  | none => rfl
  | some found =>
    cases found with
    | none => rfl
    | some v => exact hread v (h.wellFormed _ (mem_of_fieldValue hvalue))

theorem SameFields.defaulted (h : SameFields fields others) (hread : Unordered read) (name : String)
    (default : α) :
    defaultedField others name read default = defaultedField fields name read default := by
  rw [defaultedField, defaultedField, h.values]
  cases hvalue : fieldValue fields name with
  | none => rfl
  | some found =>
    cases found with
    | none => rfl
    | some v => exact hread v (h.wellFormed _ (mem_of_fieldValue hvalue))

end

theorem unordered_artifact : Unordered ReleaseArtifact.ofValue := by
  intro v hv
  rcases structFields_canonical hv ["version", "sha256", "url"] with ⟨hnone, hnone'⟩ |
    ⟨fields, others, hfields, hothers, hsame⟩
  · rw [ReleaseArtifact.ofValue, ReleaseArtifact.ofValue, hnone, hnone']
  · rw [ReleaseArtifact.ofValue, ReleaseArtifact.ofValue, hfields, hothers]
    simp only [Option.bind_eq_bind, Option.bind_some, hsame.required unordered_asStr,
      hsame.defaulted unordered_readOptionText]

theorem unordered_range : Unordered CompatibilityRange.ofValue := by
  intro v hv
  rcases structFields_canonical hv ["min", "max"] with ⟨hnone, hnone'⟩ |
    ⟨fields, others, hfields, hothers, hsame⟩
  · rw [CompatibilityRange.ofValue, CompatibilityRange.ofValue, hnone, hnone']
  · rw [CompatibilityRange.ofValue, CompatibilityRange.ofValue, hfields, hothers]
    simp only [Option.bind_eq_bind, Option.bind_some, hsame.defaulted unordered_readOptionText]

theorem unordered_compatibility : Unordered readCompatibility := by
  intro v hv
  cases hv with
  | null => rfl
  | bool b => rfl
  | num n => rfl
  | str s => rfl
  | obj distinct inside => rfl
  | @arr items inside =>
    rw [Json.canonical, Json.canonicalItems_eq, readCompatibility, readCompatibility, List.mapM_map]
    exact Traverse.mapM_congr fun item hitem => unordered_range item (inside item hitem)

theorem unordered_manifest : Unordered ReleaseManifest.ofValue := by
  intro v hv
  rcases structFields_canonical hv
      ["schema", "sbctl", "sing_box", "sing_box_compatibility", "signature"] with
    ⟨hnone, hnone'⟩ | ⟨fields, others, hfields, hothers, hsame⟩
  · rw [ReleaseManifest.ofValue, ReleaseManifest.ofValue, hnone, hnone']
  · rw [ReleaseManifest.ofValue, ReleaseManifest.ofValue, hfields, hothers]
    simp only [Option.bind_eq_bind, Option.bind_some, hsame.required unordered_readU32,
      hsame.required unordered_artifact, hsame.defaulted unordered_compatibility,
      hsame.defaulted unordered_readOptionText]

/-- A value read in any order of its keys. -/
theorem Unordered.reorders {α : Type} {read : Json → Option α} (hread : Unordered read)
    {v w : Json} (hv : v.WellFormed) (h : Json.Reorders v w) : read w = read v := by
  obtain ⟨hw, heq⟩ := h.canonical_eq hv
  rw [← hread w hw, ← heq, hread v hv]

end

/-! ## A manifest read back -/

section
open Json (WellFormed Printable Reorders)
variable {order : MapOrder} {manifest : ReleaseManifest}

def ReleaseManifest.unsigned (manifest : ReleaseManifest) : ReleaseManifest :=
  { manifest with signature := none }

theorem wellFormed_optionText (text : Option String) : (optionText text).WellFormed := by
  cases text with
  | none => exact .null
  | some s => exact .str s

theorem wellFormed_artifact (artifact : ReleaseArtifact) : artifact.toValue.WellFormed := by
  refine .obj (by simp) ?_
  simp only [List.forall_mem_cons]
  exact ⟨.str _, .str _, wellFormed_optionText _, nofun⟩

theorem wellFormed_range (range : CompatibilityRange) : range.toValue.WellFormed := by
  refine .obj (by simp) ?_
  simp only [List.forall_mem_cons]
  exact ⟨wellFormed_optionText _, wellFormed_optionText _, nofun⟩

theorem wellFormed_fields (more : List (String × Json))
    (hfresh : ((manifest.fields ++ more).map Prod.fst).Nodup)
    (hmore : ∀ e ∈ more, e.2.WellFormed) : WellFormed (.obj (manifest.fields ++ more)) := by
  have hfields : ∀ e ∈ manifest.fields, e.2.WellFormed := by
    simp only [ReleaseManifest.fields, List.forall_mem_cons]
    refine ⟨.num _, wellFormed_artifact _, wellFormed_artifact _, ?_, nofun⟩
    refine .arr fun item hitem => ?_
    obtain ⟨range, -, rfl⟩ := List.mem_map.mp hitem
    exact wellFormed_range range
  exact .obj hfresh (List.forall_mem_append.mpr ⟨hfields, hmore⟩)

theorem wellFormed_toValue : manifest.toValue.WellFormed := by
  have h := @wellFormed_fields manifest [] (by simp [ReleaseManifest.fields]) nofun
  rwa [List.append_nil] at h

theorem printable_optionText (text : Option String) : Printable (optionText text) := by
  cases text with
  | none => exact .null
  | some s => exact .str s

theorem printable_fields (more : List (String × Json)) (hmore : ∀ e ∈ more, Printable e.2) :
    Printable (.obj (manifest.fields ++ more)) := by
  have hartifact : ∀ artifact : ReleaseArtifact, Printable artifact.toValue := by
    intro artifact
    refine .obj ?_
    simp only [List.forall_mem_cons]
    exact ⟨.str _, .str _, printable_optionText _, nofun⟩
  have hfields : ∀ e ∈ manifest.fields, Printable e.2 := by
    simp only [ReleaseManifest.fields, List.forall_mem_cons]
    refine ⟨Json.printable_number _, hartifact _, hartifact _, ?_, nofun⟩
    refine .arr fun item hitem => ?_
    obtain ⟨range, -, rfl⟩ := List.mem_map.mp hitem
    refine .obj ?_
    simp only [List.forall_mem_cons]
    exact ⟨printable_optionText _, printable_optionText _, nofun⟩
  exact .obj (List.forall_mem_append.mpr ⟨hfields, hmore⟩)

theorem printable_toValue : Printable manifest.toValue := by
  have h := @printable_fields manifest [] nofun
  rwa [List.append_nil] at h

theorem readOptionText_optionText (text : Option String) :
    readOptionText (optionText text) = some text := by
  cases text <;> rfl

theorem ofValue_artifact (artifact : ReleaseArtifact) :
    ReleaseArtifact.ofValue artifact.toValue = some artifact := by
  simp [ReleaseArtifact.ofValue, ReleaseArtifact.toValue, structFields, requiredField,
    defaultedField, fieldValue, readOptionText_optionText, asStr?]

theorem ofValue_range (range : CompatibilityRange) :
    CompatibilityRange.ofValue range.toValue = some range := by
  simp [CompatibilityRange.ofValue, CompatibilityRange.toValue, structFields, defaultedField,
    fieldValue, readOptionText_optionText]

theorem readU32_number (n : UInt32) : readU32 (number n.toNat) = some n := by
  have hbound : n.toNat ≤ UInt32.size - 1 := Nat.le_pred_of_lt n.toNat_lt
  rw [readU32, Json.asNat_number hbound]
  simp

theorem readCompatibility_map (ranges : List CompatibilityRange) :
    readCompatibility (.arr (ranges.map (·.toValue))) = some ranges := by
  have hread := (@Traverse.mapM_eq_some_map _ _ (fun range : CompatibilityRange =>
    CompatibilityRange.ofValue range.toValue) id ranges).mpr fun range _ => ofValue_range range
  rw [List.map_id] at hread
  rw [readCompatibility, List.mapM_map]
  exact hread

theorem ofValue_toValue : ReleaseManifest.ofValue manifest.toValue = some manifest.unsigned := by
  simp [ReleaseManifest.ofValue, ReleaseManifest.toValue, ReleaseManifest.fields, structFields,
    requiredField, defaultedField, fieldValue, readU32_number, ofValue_artifact,
    readCompatibility_map, ReleaseManifest.unsigned]

theorem ofValue_signed (signature : String) :
    ReleaseManifest.ofValue (.obj (manifest.fields ++ [("signature", .str signature)])) =
      some { manifest with signature := some signature } := by
  simp [ReleaseManifest.ofValue, ReleaseManifest.fields, structFields, requiredField,
    defaultedField, fieldValue, readU32_number, ofValue_artifact, readCompatibility_map,
    readOptionText]

theorem ofValue_arrange :
    ReleaseManifest.ofValue (order.arrange manifest.toValue) = some manifest.unsigned := by
  rw [unordered_manifest.reorders wellFormed_toValue (order.reorders _), ofValue_toValue]

/-- The payload is that of one release, in whatever order the maps are. -/
theorem canonicalBytes_inj {other : MapOrder} {manifest' : ReleaseManifest} :
    canonicalBytes order manifest = canonicalBytes other manifest' ↔
      manifest.unsigned = manifest'.unsigned := by
  have hreorder := (order.reorders manifest.toValue).canonical_eq wellFormed_toValue
  have hreorder' := (other.reorders manifest'.toValue).canonical_eq wellFormed_toValue
  constructor
  · intro h
    have htext := String.ofList_injective (bytes_injective h)
    rw [writeCanonicalJson_eq, writeCanonicalJson_eq] at htext
    have heq := Json.print_canonical_inj ((order.reorders _).printable printable_toValue)
      ((other.reorders _).printable printable_toValue) htext
    have hread := unordered_manifest _ hreorder.1
    rw [heq, unordered_manifest _ hreorder'.1, ofValue_arrange, ofValue_arrange] at hread
    exact (Option.some.inj hread).symm
  · intro h
    have hvalue : manifest.unsigned.toValue = manifest'.unsigned.toValue :=
      congrArg ReleaseManifest.toValue h
    change manifest.toValue = manifest'.toValue at hvalue
    rw [canonicalBytes, canonicalBytes, writeCanonicalJson_eq, writeCanonicalJson_eq, ← hreorder.2,
      ← hreorder'.2, hvalue]

/-- Whatever manifest is published, it is what is read. -/
theorem ofSlice_published (order : MapOrder) (manifest : ReleaseManifest) :
    ReleaseManifest.ofSlice (manifestJsonWithSignature order manifest) = .ok manifest := by
  have hread : ∀ {v : Json}, Printable v → ReleaseManifest.ofSlice
      (bytes (String.ofList (Json.print Json.pretty 0 v))) =
        match ReleaseManifest.ofValue v with
        | some manifest => .ok manifest
        | none => .error .manifestParse := by
    intro v hv
    rw [ReleaseManifest.ofSlice, fromUtf8_bytes, Option.bind_some, String.toList_ofList,
      Json.parse_print hv, Option.bind_some]
  rw [manifestJsonWithSignature]
  cases hsignature : manifest.signature with
  | none =>
    have hsame : manifest.unsigned = manifest := by
      rw [ReleaseManifest.unsigned, ← hsignature]
    simp only
    rw [hread ((order.reorders _).printable printable_toValue), ofValue_arrange, hsame]
  | some signature =>
    obtain ⟨fields, harrange, hkeys, hmore⟩ :=
      (order.reorders manifest.toValue).append [("signature", .str signature)]
    have hfresh : "signature" ∉ fields.map Prod.fst := by
      rw [← hkeys.mem_iff]
      simp [ReleaseManifest.fields]
    have hinsert : insertField "signature" (.str signature) (order.arrange manifest.toValue) =
        .obj (fields ++ [("signature", .str signature)]) := by
      rw [harrange, insertField, Assoc.put_of_fresh hfresh]
    have hreorders := hmore.trans (order.reorders _)
    have hwell : WellFormed (.obj (manifest.fields ++ [("signature", .str signature)])) := by
      refine wellFormed_fields _ (by simp [ReleaseManifest.fields]) ?_
      exact List.forall_mem_singleton.mpr (.str _)
    have hprintable : Printable (.obj (manifest.fields ++ [("signature", .str signature)])) :=
      printable_fields _ (List.forall_mem_singleton.mpr (.str _))
    have hsame : { manifest with signature := some signature } = manifest := by
      rw [← hsignature]
    simp only
    rw [hinsert, hread (hreorders.printable hprintable),
      unordered_manifest.reorders hwell hreorders, ofValue_signed, hsame]

/-! ## Signing and verifying -/

theorem signatureFromSlice_toList (signature : Vector UInt8 64) :
    signatureFromSlice signature.toList = some signature := by
  have hlength : signature.toList.length = 64 := Vector.length_toList
  rw [signatureFromSlice, dif_pos hlength]
  rfl

def ReleaseManifest.signed (ed : Ed25519) (order : MapOrder) (seed : Key)
    (manifest : ReleaseManifest) : ReleaseManifest :=
  { manifest with signature := some (signManifest ed order manifest seed) }

theorem verifySignature_signed {ed : Ed25519} (hed : ed.Correct) (order other : MapOrder)
    (manifest : ReleaseManifest) (seed : Key) :
    verifySignature ed other (.ok (ed.publicKey seed)) (manifest.signed ed order seed) =
      .ok () := by
  have hbytes : canonicalBytes other (manifest.signed ed order seed) =
      canonicalBytes order manifest := canonicalBytes_inj.mpr rfl
  have hdecode : (Base64.decode .standard (signManifest ed order manifest seed).toList).bind
      signatureFromSlice = some (ed.sign seed (canonicalBytes order manifest)) := by
    rw [signManifest, String.toList_ofList, Base64.decode_encode, Option.bind_some,
      signatureFromSlice_toList]
  have hverifies : ed.verifyStrict (ed.publicKey seed)
      (canonicalBytes other (manifest.signed ed order seed))
      (ed.sign seed (canonicalBytes order manifest)) = true := by
    rw [hbytes]
    exact hed.verifies seed _
  have hsignature : (manifest.signed ed order seed).signature =
      some (signManifest ed order manifest seed) := rfl
  rw [verifySignature, hsignature]
  simp only [hdecode]
  exact if_pos ⟨hed.accepts seed, hverifies⟩

/-- The signature is no field of its own validation. -/
theorem validateManifestFields_signed (ed : Ed25519) (order : MapOrder) (seed : Key)
    (manifest : ReleaseManifest) :
    validateManifestFields (manifest.signed ed order seed) = validateManifestFields manifest := rfl

theorem verifyManifest_published {ed : Ed25519} (hed : ed.Correct)
    (signing printing reading : MapOrder) {manifest : ReleaseManifest}
    (h : validateManifestFields manifest = .ok ()) (seed : Key) :
    verifyManifest ed reading (.ok (ed.publicKey seed))
        (manifestJsonWithSignature printing (manifest.signed ed signing seed)) =
      .ok (manifest.signed ed signing seed) := by
  have htrusted : verifyTrusted ed reading (.ok (ed.publicKey seed))
      (manifest.signed ed signing seed) = .ok () := by
    rw [verifyTrusted, validateManifestFields_signed, h]
    exact verifySignature_signed hed signing reading manifest seed
  rw [verifyManifest, ofSlice_published]
  simp only [bind, Except.bind, htrusted]
  rfl

/-- The signed payload determines the release, and a signed manifest survives
publication: it is read and verified as it was signed. -/
theorem release_determined {ed : Ed25519} (hed : ed.Correct) :
    (∀ (order other : MapOrder) (manifest manifest' : ReleaseManifest),
      canonicalBytes order manifest = canonicalBytes other manifest' ↔
        manifest.unsigned = manifest'.unsigned) ∧
    ∀ (signing printing reading : MapOrder) (manifest : ReleaseManifest) (seed : Key),
      validateManifestFields manifest = .ok () →
        verifyManifest ed reading (.ok (ed.publicKey seed))
            (manifestJsonWithSignature printing (manifest.signed ed signing seed)) =
          .ok (manifest.signed ed signing seed) :=
  ⟨fun _ _ _ _ => canonicalBytes_inj,
    fun signing printing reading _ seed h =>
      verifyManifest_published hed signing printing reading h seed⟩

end

/-! ## A signed sample -/

def sampleManifest : ReleaseManifest where
  schema := 1
  sbctl :=
    { version := "0.1.14", url := some "https://example.test/sbctl"
      sha256 := "aaaaaaaaaaaaaaaaaaaaaaaaaaaaaaaaaaaaaaaaaaaaaaaaaaaaaaaaaaaaaaaa" }
  singBox :=
    { version := "1.12.0", url := none
      sha256 := "bbbbbbbbbbbbbbbbbbbbbbbbbbbbbbbbbbbbbbbbbbbbbbbbbbbbbbbbbbbbbbbb" }
  singBoxCompatibility := [{ min := some "1.12.0", max := none }]
  signature := none

theorem sampleManifest_valid : validateManifestFields sampleManifest = .ok () := by
  decide

def developmentSeed : Key :=
  #v[0x62, 0xAC, 0x3D, 0x58, 0x01, 0xB5, 0x2A, 0x11, 0xDA, 0x92, 0x3E, 0xBB, 0xBC, 0xCB, 0x88, 0xA6,
    0x7F, 0x15, 0x4B, 0xDE, 0x43, 0x39, 0x59, 0x6F, 0x05, 0x1E, 0xE2, 0x73, 0x2E, 0x9A, 0x36, 0x5F]

/-- The signature of the sample under the development seed. -/
def sampleSignature : Vector UInt8 64 :=
  #v[0x60, 0x2D, 0x9D, 0x67, 0x67, 0xDE, 0x52, 0x11, 0xBE, 0x0F, 0x15, 0xB5, 0xE1, 0xAA, 0x0B, 0x63,
    0x29, 0x4A, 0xA0, 0xC5, 0x8E, 0x3C, 0x34, 0x7C, 0x37, 0x50, 0x58, 0x51, 0xA1, 0x6E, 0x48, 0x51,
    0x85, 0x1A, 0x0B, 0x3A, 0xB9, 0xE2, 0xDB, 0x02, 0x28, 0x6B, 0x57, 0x12, 0x7D, 0xD6, 0xE1, 0x1D,
    0x8D, 0xC9, 0xF1, 0x55, 0x09, 0xF1, 0xFA, 0x08, 0x9A, 0x54, 0x9B, 0xC1, 0x24, 0xC7, 0xDF, 0x0E]

def sampleTag (key : Key) (message : List UInt8) : Vector UInt8 64 :=
  if key = developmentPublicKey ∧ message = canonicalBytes .insertion sampleManifest then
    sampleSignature
  else key ++ key

/-- Ed25519 on the sample; elsewhere the key stands for its signatures. -/
def sampleEd25519 : Ed25519 where
  publicKey seed := if seed = developmentSeed then developmentPublicKey else seed
  sign seed := sampleTag (if seed = developmentSeed then developmentPublicKey else seed)
  acceptsKey _ := true
  verifyStrict key message signature := signature = sampleTag key message

theorem sampleEd25519_correct : sampleEd25519.Correct where
  accepts _ := rfl
  verifies _ _ := decide_eq_true rfl

theorem release_determined_sample : sampleEd25519.Correct ∧
    validateManifestFields sampleManifest = .ok () ∧
      verifyManifest sampleEd25519 .sorted (.ok (sampleEd25519.publicKey developmentSeed))
          (manifestJsonWithSignature .insertion
            (sampleManifest.signed sampleEd25519 .insertion developmentSeed)) =
        .ok (sampleManifest.signed sampleEd25519 .insertion developmentSeed) :=
  ⟨sampleEd25519_correct, sampleManifest_valid,
    (release_determined sampleEd25519_correct).2 .insertion .insertion .sorted sampleManifest
      developmentSeed sampleManifest_valid⟩

end Sbctl
