import Sbctl.Lib.Spelling

/-!
# Percent encoding

A text as the bytes of its encoding, where bytes outside a small alphabet are
written as two hexadecimal digits after a percent sign.

* `decodeText_percentEncode`: an encoded text reads back;
* `decodeText_literal`: a text without percent signs reads as itself;
* `eq_of_decodeText_begins`: no shorter text reads as a given one.
-/

namespace Text

/-! ## Bytes of a text -/

theorem bytes_cons (c : Char) (cs : List Char) :
    bytes (String.ofList (c :: cs)) = String.utf8EncodeChar c ++ bytes (String.ofList cs) := by
  simp only [bytes, String.toByteArray_ofList]
  rw [List.utf8Encode_cons, List.utf8Encode_singleton]
  simp

theorem utf8EncodeChar_of_ascii {c : Char} (h : c.toNat < 128) :
    String.utf8EncodeChar c = [UInt8.ofNat c.toNat] := by
  have hsize : c.utf8Size = 1 := by
    rw [Char.utf8Size_eq_one_iff]
    simp only [UInt32.le_iff_toNat_le]
    have : c.val.toNat = c.toNat := rfl
    have : (0x7F : UInt32).toNat = 127 := rfl
    omega
  rw [String.utf8EncodeChar_eq_singleton hsize]
  congr 1

theorem length_le_bytes (cs : List Char) : cs.length ≤ (bytes (String.ofList cs)).length := by
  induction cs with
  | nil => exact Nat.le_refl _
  | cons c cs ih =>
    have hpos := c.utf8Size_pos
    rw [bytes_cons, List.length_append, String.length_utf8EncodeChar, List.length_cons]
    omega

/-! ## Hexadecimal digits -/

def hexDigit (n : Nat) : Char := (Nat.digitChar n).toUpper

def hexValue (c : Char) : Option Nat :=
  if '0' ≤ c ∧ c ≤ '9' then some (c.toNat - 48)
  else if 'A' ≤ c ∧ c ≤ 'F' then some (c.toNat - 55)
  else if 'a' ≤ c ∧ c ≤ 'f' then some (c.toNat - 87)
  else none

theorem hexValue_hexDigit {n : Nat} (h : n < 16) : hexValue (hexDigit n) = some n := by
  have hall : ∀ n : Fin 16, hexValue (hexDigit n) = some n.val := by decide
  exact hall ⟨n, h⟩

/-! ## Encoding -/

def isUnreserved (c : Char) : Bool :=
  isAsciiAlphanumeric c || c == '-' || c == '.' || c == '_' || c == '~'

def encodeByte (byte : UInt8) : List Char :=
  let c := Char.ofNat byte.toNat
  if byte < 128 ∧ isUnreserved c then [c]
  else ['%', hexDigit (byte.toNat / 16), hexDigit (byte.toNat % 16)]

def percentEncode (s : String) : List Char := (bytes s).flatMap encodeByte

/-- Every percent sign takes the two digits after it. -/
def percentDecode : List Char → Option (List UInt8)
  | [] => some []
  | c :: cs =>
    if c = '%' then
      match cs with
      | high :: low :: rest => do
        let high ← hexValue high
        let low ← hexValue low
        let decoded ← percentDecode rest
        return UInt8.ofNat (16 * high + low) :: decoded
      | _ => none
    else (percentDecode cs).map (String.utf8EncodeChar c ++ ·)

def decodeText (cs : List Char) : Option String := (percentDecode cs).bind fromUtf8

theorem percentDecode_cons {c : Char} (hc : c ≠ '%') (cs : List Char) :
    percentDecode (c :: cs) = (percentDecode cs).map (String.utf8EncodeChar c ++ ·) := by
  rcases cs with _ | ⟨high, _ | ⟨low, rest⟩⟩
  · simp [percentDecode, hc]
  · simp [percentDecode, hc]
  · rw [percentDecode, if_neg hc]

theorem percentDecode_percent (high low : Char) (rest : List Char) :
    percentDecode ('%' :: high :: low :: rest) = (do
      let high ← hexValue high
      let low ← hexValue low
      let decoded ← percentDecode rest
      return UInt8.ofNat (16 * high + low) :: decoded) := by
  rw [percentDecode, if_pos rfl]

theorem percentDecode_encodeByte (byte : UInt8) (rest : List Char) :
    percentDecode (encodeByte byte ++ rest) = (percentDecode rest).map (byte :: ·) := by
  unfold encodeByte
  simp only
  split
  · rename_i h
    obtain ⟨hascii, hunreserved⟩ := h
    have hlt : byte.toNat < 128 := hascii
    have hvalid : byte.toNat.isValidChar := .inl (by omega)
    have hnat : (Char.ofNat byte.toNat).toNat = byte.toNat := by
      rw [Char.ofNat, dif_pos hvalid]
      rfl
    have hne : Char.ofNat byte.toNat ≠ '%' := by
      intro heq
      rw [heq] at hunreserved
      revert hunreserved
      decide
    rw [List.singleton_append, percentDecode_cons hne,
      utf8EncodeChar_of_ascii (by rw [hnat]; exact hlt), hnat, UInt8.ofNat_toNat]
    rfl
  · have hlt := byte.toNat_lt
    have hhigh : byte.toNat / 16 < 16 := by omega
    have hlow : byte.toNat % 16 < 16 := Nat.mod_lt _ (by decide)
    have hsum : 16 * (byte.toNat / 16) + byte.toNat % 16 = byte.toNat := Nat.div_add_mod _ _
    rw [List.cons_append, List.cons_append, List.cons_append, List.nil_append,
      percentDecode_percent]
    simp only [hexValue_hexDigit hhigh, hexValue_hexDigit hlow, Option.bind_eq_bind,
      Option.bind_some, hsum, UInt8.ofNat_toNat]
    cases percentDecode rest <;> rfl

theorem percentDecode_flatMap (encoded : List UInt8) (rest : List Char) :
    percentDecode (encoded.flatMap encodeByte ++ rest) =
      (percentDecode rest).map (encoded ++ ·) := by
  induction encoded with
  | nil => cases h : percentDecode rest <;> simp [h]
  | cons byte encoded ih =>
    rw [List.flatMap_cons, List.append_assoc, percentDecode_encodeByte, ih, Option.map_map]
    rfl

/-- Texts decode one after the other. -/
theorem percentDecode_append {cs : List Char} {decoded : List UInt8}
    (h : percentDecode cs = some decoded) (rest : List Char) :
    percentDecode (cs ++ rest) = (percentDecode rest).map (decoded ++ ·) := by
  induction cs using percentDecode.induct generalizing decoded with
  | case1 =>
    cases h
    cases hrest : percentDecode rest <;> simp [hrest]
  | case2 high low cs ih =>
    rw [percentDecode_percent] at h
    simp only [Option.bind_eq_bind, Option.bind_eq_some_iff, Option.pure_def,
      Option.some.injEq] at h
    obtain ⟨upper, hupper, lower, hlower, tail, htail, rfl⟩ := h
    rw [List.cons_append, List.cons_append, List.cons_append, percentDecode_percent, hupper, hlower,
      ih htail]
    cases percentDecode rest <;> rfl
  | case3 cs hshort =>
    rw [percentDecode, if_pos rfl] at h
    · cases h
    · exact hshort
  | case4 c cs hc ih =>
    rw [percentDecode_cons hc, Option.map_eq_some_iff] at h
    obtain ⟨tail, htail, rfl⟩ := h
    rw [List.cons_append, percentDecode_cons hc, ih htail, Option.map_map]
    simp [Function.comp_def]

/-- An encoded text reads back. -/
theorem decodeText_percentEncode (s : String) : decodeText (percentEncode s) = some s := by
  have h := percentDecode_flatMap (bytes s) []
  rw [List.append_nil, percentDecode, Option.map_some, List.append_nil] at h
  rw [decodeText, percentEncode, h, Option.bind_some, fromUtf8_bytes]

theorem mem_percentEncode {s : String} {c : Char} (h : c ∈ percentEncode s) :
    isUnreserved c = true ∨ c = '%' ∨ ∃ n < 16, c = hexDigit n := by
  obtain ⟨byte, -, hc⟩ := List.mem_flatMap.mp h
  unfold encodeByte at hc
  simp only at hc
  split at hc
  · rename_i hbyte
    rw [List.mem_singleton.mp hc]
    exact .inl hbyte.2
  · have hlt := byte.toNat_lt
    simp only [List.mem_cons, List.not_mem_nil, or_false] at hc
    rcases hc with rfl | rfl | rfl
    · exact .inr (.inl rfl)
    · exact .inr (.inr ⟨_, by omega, rfl⟩)
    · exact .inr (.inr ⟨_, Nat.mod_lt _ (by decide), rfl⟩)

/-- Nothing outside the alphabet and the percent sign is written. -/
theorem notMem_percentEncode {c : Char} (h : isUnreserved c = false) (hc : c ≠ '%') (s : String) :
    c ∉ percentEncode s := by
  intro hmem
  rcases mem_percentEncode hmem with hunreserved | hpercent | ⟨n, hn, rfl⟩
  · rw [h] at hunreserved
    cases hunreserved
  · exact hc hpercent
  · have hall : ∀ n : Fin 16, isUnreserved (hexDigit n) = true := by decide
    have hdigit := hall ⟨n, hn⟩
    rw [h] at hdigit
    cases hdigit

/-! ## Literal texts -/

theorem percentDecode_literal {cs : List Char} (h : '%' ∉ cs) :
    percentDecode cs = some (bytes (String.ofList cs)) := by
  induction cs with
  | nil => rfl
  | cons c cs ih =>
    rw [List.mem_cons, not_or] at h
    obtain ⟨hc, hcs⟩ := h
    rw [percentDecode_cons (Ne.symm hc), ih hcs, bytes_cons]
    rfl

/-- A text without percent signs reads as itself. -/
theorem decodeText_literal {cs : List Char} (h : '%' ∉ cs) :
    decodeText cs = some (String.ofList cs) := by
  rw [decodeText, percentDecode_literal h, Option.bind_some, fromUtf8_bytes]

theorem hexValue_ne_percent {c : Char} {n : Nat} (h : hexValue c = some n) : c ≠ '%' := by
  rintro rfl
  cases h

/-- Decoding shortens a text by two for each percent sign. -/
theorem length_percentDecode {cs : List Char} {decoded : List UInt8}
    (hascii : ∀ c ∈ cs, c.toNat < 128) (h : percentDecode cs = some decoded) :
    decoded.length + 2 * cs.count '%' = cs.length := by
  induction hlen : cs.length using Nat.strongRecOn generalizing cs decoded with
  | ind n ih =>
    cases cs with
    | nil =>
      cases h
      simpa using hlen
    | cons c cs =>
      by_cases hc : c = '%'
      · subst hc
        rcases cs with _ | ⟨high, _ | ⟨low, rest⟩⟩
        · simp [percentDecode] at h
        · simp [percentDecode] at h
        · rw [percentDecode_percent] at h
          simp only [Option.bind_eq_bind, Option.bind_eq_some_iff, Option.pure_def,
            Option.some.injEq] at h
          obtain ⟨_, hhigh, _, hlow, rest', hrest, rfl⟩ := h
          have hshorter := ih rest.length (by simp at hlen; omega)
            (fun d hd => hascii d (by simp [hd])) hrest rfl
          rw [List.count_cons_self, List.count_cons_of_ne (hexValue_ne_percent hhigh),
            List.count_cons_of_ne (hexValue_ne_percent hlow), List.length_cons]
          simp only [List.length_cons] at hlen
          omega
      · rw [percentDecode_cons hc] at h
        obtain ⟨rest, hrest, rfl⟩ := Option.map_eq_some_iff.mp h
        have hshorter := ih cs.length (by simp at hlen; omega)
          (fun d hd => hascii d (List.mem_cons_of_mem _ hd)) hrest rfl
        rw [List.count_cons_of_ne hc, List.length_append,
          utf8EncodeChar_of_ascii (hascii c List.mem_cons_self), List.length_singleton]
        simp only [List.length_cons] at hlen
        omega

/-- No shorter text reads as a given one, and none with percent signs. -/
theorem eq_of_decodeText_begins {cs : List Char} {s : String} (hascii : ∀ c ∈ cs, c.toNat < 128)
    (hbegins : cs <+: s.toList) (h : decodeText cs = some s) : cs = s.toList ∧ '%' ∉ cs := by
  obtain ⟨decoded, hdecoded, hs⟩ := Option.bind_eq_some_iff.mp h
  have hlength := length_percentDecode hascii hdecoded
  have hbytes : decoded = bytes s := by
    unfold fromUtf8 at hs
    rw [String.fromUTF8?] at hs
    split at hs
    · cases hs
      simp [bytes, String.fromUTF8]
    · cases hs
  have hle : s.toList.length ≤ decoded.length := by
    rw [hbytes, ← String.ofList_toList (s := s)]
    simpa using length_le_bytes s.toList
  have hshort := hbegins.length_le
  refine ⟨hbegins.eq_of_length (by omega), ?_⟩
  rw [← List.count_eq_zero]
  omega

end Text
