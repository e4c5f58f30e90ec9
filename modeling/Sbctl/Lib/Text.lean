import Mathlib.Data.List.Basic

/-!
# Text as lists of characters

The string operations of the standard library that validation and parsing
use, on the list of a string's characters so that they evaluate in the kernel;
and texts as the bytes of their encoding.
-/

namespace Text

/-- The Unicode White_Space property. -/
def isWhitespace (c : Char) : Bool :=
  let n := c.toNat
  9 ≤ n && n ≤ 13 || n == 0x20 || n == 0x85 || n == 0xA0 || n == 0x1680 ||
    0x2000 ≤ n && n ≤ 0x200A || n == 0x2028 || n == 0x2029 || n == 0x202F || n == 0x205F ||
    n == 0x3000

/-- The Unicode category Cc. -/
def isControl (c : Char) : Bool :=
  let n := c.toNat
  n ≤ 0x1F || 0x7F ≤ n && n ≤ 0x9F

def isAsciiAlphanumeric (c : Char) : Bool :=
  'a' ≤ c && c ≤ 'z' || 'A' ≤ c && c ≤ 'Z' || '0' ≤ c && c ≤ '9'

def isAsciiAlphabetic (c : Char) : Bool := 'a' ≤ c && c ≤ 'z' || 'A' ≤ c && c ≤ 'Z'

/-- Drops the white space on both sides. -/
def trim (cs : List Char) : List Char :=
  ((cs.dropWhile isWhitespace).reverse.dropWhile isWhitespace).reverse

def toAsciiLowercase (s : String) : String := String.ofList (s.toList.map Char.toLower)

theorem toLower_toLower (c : Char) : c.toLower.toLower = c.toLower := by
  unfold Char.toLower
  split
  · rename_i h
    obtain ⟨hlow, hhigh⟩ := h
    rw [dif_neg]
    rintro ⟨-, h⟩
    simp only [UInt32.le_iff_toNat_le, UInt32.toNat_add] at hlow hhigh h
    have : 'A'.val.toNat = 65 := rfl
    have : 'Z'.val.toNat = 90 := rfl
    have : ('a'.val - 'A'.val).toNat = 32 := rfl
    omega
  · rfl

theorem map_toLower_map_toLower (cs : List Char) :
    (cs.map Char.toLower).map Char.toLower = cs.map Char.toLower := by
  rw [List.map_map]
  exact List.map_congr_left fun c _ => toLower_toLower c

theorem toAsciiLowercase_idem (s : String) :
    toAsciiLowercase (toAsciiLowercase s) = toAsciiLowercase s := by
  rw [toAsciiLowercase, toAsciiLowercase, String.toList_ofList, map_toLower_map_toLower]

def eqIgnoreAsciiCase (a b : String) : Bool :=
  a.toList.map Char.toLower == b.toList.map Char.toLower

/-- The pieces between the separators; a text without one is a single piece. -/
def splitChar (sep : Char) : List Char → List (List Char)
  | [] => [[]]
  | c :: cs =>
    if c = sep then [] :: splitChar sep cs
    else match splitChar sep cs with
      | [] => [[c]]
      | piece :: pieces => (c :: piece) :: pieces

def stripPrefix : List Char → List Char → Option (List Char)
  | [], cs => some cs
  | _ :: _, [] => none
  | p :: ps, c :: cs => if p = c then stripPrefix ps cs else none

def endsWith (cs suffix : List Char) : Bool := (stripPrefix suffix.reverse cs.reverse).isSome

def startsWith (cs pre : List Char) : Bool := (stripPrefix pre cs).isSome

def contains (part : List Char) : List Char → Bool
  | [] => part.isEmpty
  | c :: cs => startsWith (c :: cs) part || contains part cs

def digitValue (c : Char) : Option Nat :=
  if '0' ≤ c ∧ c ≤ '9' then some (c.toNat - '0'.toNat) else none

/-- The number a run of decimal digits denotes, added after `n`. -/
def digitsFrom (n : Nat) : List Char → Option Nat
  | [] => some n
  | c :: cs => (digitValue c).bind fun d => digitsFrom (10 * n + d) cs

/-- Decimal digits, with an optional plus sign before them, up to a bound. -/
def parseUnsigned (bound : Nat) (cs : List Char) : Option Nat :=
  let digits := match cs with
    | '+' :: rest => rest
    | cs => cs
  if digits.isEmpty then none
  else (digitsFrom 0 digits).filter (· ≤ bound)

/-- Decimal digits, with an optional sign before them, between two bounds. -/
def parseSigned (lower upper : Int) (cs : List Char) : Option Int :=
  let (negative, digits) := match cs with
    | '+' :: rest => (false, rest)
    | '-' :: rest => (true, rest)
    | cs => (false, cs)
  if digits.isEmpty then none
  else ((digitsFrom 0 digits).map fun n => if negative then -(n : Int) else n).filter
    fun i => lower ≤ i ∧ i ≤ upper

/-! ## Lower case -/

/-- An upper-case letter moves by 32, any other character stays. -/
theorem toLower_cases (c : Char) :
    c.toLower = c ∧ ¬ (65 ≤ c.toNat ∧ c.toNat ≤ 90) ∨
      c.toLower.toNat = c.toNat + 32 ∧ 65 ≤ c.toNat ∧ c.toNat ≤ 90 := by
  unfold Char.toLower
  split
  · rename_i h
    obtain ⟨hlow, hhigh⟩ := h
    simp only [UInt32.le_iff_toNat_le] at hlow hhigh
    have h65 : 'A'.val.toNat = 65 := rfl
    have h90 : 'Z'.val.toNat = 90 := rfl
    have h32 : ('a'.val - 'A'.val).toNat = 32 := rfl
    refine Or.inr ⟨?_, h65 ▸ hlow, h90 ▸ hhigh⟩
    simp only [Char.toNat, UInt32.toNat_add, h32]
    omega
  · rename_i h
    refine Or.inl ⟨rfl, fun hc => h ?_⟩
    simp only [UInt32.le_iff_toNat_le]
    exact hc

theorem le_iff_toNat_le {a b : Char} : a ≤ b ↔ a.toNat ≤ b.toNat := by
  rw [Char.le_def, UInt32.le_iff_toNat_le]
  rfl

theorem utf8Size_toLower (c : Char) : c.toLower.utf8Size = c.utf8Size := by
  have hone : ∀ d : Char, d.toNat ≤ 127 → d.utf8Size = 1 := fun d hd =>
    if_pos (UInt32.le_iff_toNat_le.mpr (show d.val.toNat ≤ 127 from hd))
  rcases toLower_cases c with ⟨h, -⟩ | ⟨h, hlow, hhigh⟩
  · rw [h]
  · rw [hone c (by omega), hone c.toLower (by omega)]

theorem isAsciiAlphanumeric_toLower (c : Char) :
    isAsciiAlphanumeric c.toLower = isAsciiAlphanumeric c := by
  rcases toLower_cases c with ⟨h, -⟩ | ⟨h, hlow, hhigh⟩
  · rw [h]
  · rw [Bool.eq_iff_iff]
    simp only [isAsciiAlphanumeric, Bool.or_eq_true, Bool.and_eq_true, decide_eq_true_eq,
      le_iff_toNat_le, h, Char.reduceToNat]
    omega

/-- A character that is no letter is its own lower case and that of no other. -/
theorem toLower_eq_iff {c sep : Char} (hsep : isAsciiAlphabetic sep = false) :
    c.toLower = sep ↔ c = sep := by
  simp only [isAsciiAlphabetic, Bool.or_eq_false_iff, Bool.and_eq_false_iff, decide_eq_false_iff_not,
    le_iff_toNat_le, Char.reduceToNat] at hsep
  rcases toLower_cases c with ⟨h, -⟩ | ⟨h, hlow, hhigh⟩
  · rw [h]
  · constructor
    · rintro rfl
      omega
    · rintro rfl
      omega

theorem utf8Encode_toLower_size (cs : List Char) :
    (cs.map Char.toLower).utf8Encode.size = cs.utf8Encode.size := by
  induction cs with
  | nil => rfl
  | cons c cs ih =>
    have hc : [c.toLower].utf8Encode.size = [c].utf8Encode.size := by
      simp [List.utf8Encode_singleton, utf8Size_toLower]
    rw [List.map_cons, List.utf8Encode_cons, ByteArray.size_append, hc, ih,
      ← ByteArray.size_append, ← List.utf8Encode_cons]

theorem toAsciiLowercase_utf8ByteSize (s : String) :
    (toAsciiLowercase s).utf8ByteSize = s.utf8ByteSize := by
  rw [toAsciiLowercase, ← String.size_toByteArray, String.toByteArray_ofList,
    utf8Encode_toLower_size, String.utf8Encode_toList, String.size_toByteArray]

theorem toAsciiLowercase_eq_empty {s : String} : toAsciiLowercase s = "" ↔ s = "" := by
  rw [← String.utf8ByteSize_eq_zero_iff, toAsciiLowercase_utf8ByteSize,
    String.utf8ByteSize_eq_zero_iff]

@[simp] theorem toAsciiLowercase_toList (s : String) :
    (toAsciiLowercase s).toList = s.toList.map Char.toLower := by
  simp [toAsciiLowercase]

theorem splitChar_toLower {sep : Char} (hsep : isAsciiAlphabetic sep = false) (cs : List Char) :
    splitChar sep (cs.map Char.toLower) = (splitChar sep cs).map (·.map Char.toLower) := by
  induction cs with
  | nil => rfl
  | cons c cs ih =>
    rw [List.map_cons, splitChar, splitChar, ih]
    by_cases hc : c = sep
    · rw [if_pos ((toLower_eq_iff hsep).mpr hc), if_pos hc]
      rfl
    · rw [if_neg fun h => hc ((toLower_eq_iff hsep).mp h), if_neg hc]
      cases splitChar sep cs <;> rfl

theorem eqIgnoreAsciiCase_lower (a b : String) :
    eqIgnoreAsciiCase a (toAsciiLowercase b) = eqIgnoreAsciiCase a b := by
  rw [eqIgnoreAsciiCase, toAsciiLowercase, String.toList_ofList, map_toLower_map_toLower]
  rfl

/-! ## Encoded texts -/

def bytes (s : String) : List UInt8 := s.toByteArray.data.toList

theorem bytes_injective {a b : String} (h : bytes a = bytes b) : a = b := by
  apply String.toByteArray_inj.mp
  apply ByteArray.ext
  exact Array.toList_inj.mp h

def fromUtf8 (encoded : List UInt8) : Option String := String.fromUTF8? ⟨encoded.toArray⟩

theorem fromUtf8_bytes (s : String) : fromUtf8 (bytes s) = some s := by
  have hdata : (⟨(bytes s).toArray⟩ : ByteArray) = s.toByteArray := by
    simp [bytes]
  rw [fromUtf8, hdata, String.fromUTF8?, dif_pos s.isValidUTF8]
  exact congrArg some (String.toByteArray_inj.mp rfl)

/-- The ranges of the bytes that may follow the first byte of a character. -/
def continuations (lead : UInt8) : List (UInt8 × UInt8) :=
  let tail : UInt8 × UInt8 := (0x80, 0xBF)
  if lead < 0xC2 then []
  else if lead ≤ 0xDF then [tail]
  else if lead = 0xE0 then [(0xA0, 0xBF), tail]
  else if lead = 0xED then [(0x80, 0x9F), tail]
  else if lead ≤ 0xEF then [tail, tail]
  else if lead = 0xF0 then [(0x90, 0xBF), tail, tail]
  else if lead ≤ 0xF3 then [tail, tail, tail]
  else if lead = 0xF4 then [(0x80, 0x8F), tail, tail]
  else []

/-- How many of the bytes fit the ranges, one after the other. -/
def fitting : List (UInt8 × UInt8) → List UInt8 → Nat
  | (low, high) :: ranges, byte :: rest =>
    if low ≤ byte ∧ byte ≤ high then fitting ranges rest + 1 else 0
  | _, _ => 0

/-- Decodes character by character. What begins no character becomes a
replacement character, at the byte where it stops fitting. -/
def replaceInvalid : Nat → List UInt8 → List Char
  | 0, _ => []
  | _, [] => []
  | fuel + 1, lead :: rest =>
    match (⟨(lead :: rest).toArray⟩ : ByteArray).utf8DecodeChar? 0 with
    | some c => c :: replaceInvalid fuel (rest.drop (c.utf8Size - 1))
    | none => '\uFFFD' :: replaceInvalid fuel (rest.drop (fitting (continuations lead) rest))

def toStringLossy (encoded : List UInt8) : String :=
  match fromUtf8 encoded with
  | some s => s
  | none => String.ofList (replaceInvalid encoded.length encoded)

theorem toStringLossy_bytes (s : String) : toStringLossy (bytes s) = s := by
  simp [toStringLossy, fromUtf8_bytes]

end Text
