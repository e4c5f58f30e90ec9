import Sbctl.Lib.Text

/-!
# Base64

Three bytes are four symbols; a last group of one or two bytes is shorter, and
filled up with equals signs where the alphabet asks for it.

* `decode_encode`: what is encoded decodes, and to the same bytes;
* `isSymbol_of_mem`: only symbols and filling are written.
-/

namespace Base64

/-- The standard alphabet is filled up, the one for URLs and file names is not. -/
inductive Alphabet where
  | standard
  | urlSafe
  deriving DecidableEq

namespace Alphabet

def padded : Alphabet → Bool
  | .standard => true
  | .urlSafe => false

def symbol (alphabet : Alphabet) (n : Nat) : Char :=
  if n < 26 then Char.ofNat (65 + n)
  else if n < 52 then Char.ofNat (71 + n)
  else if n < 62 then Char.ofNat (n - 4)
  else match alphabet with
    | .standard => if n = 62 then '+' else '/'
    | .urlSafe => if n = 62 then '-' else '_'

def value (alphabet : Alphabet) (c : Char) : Option Nat :=
  if 'A' ≤ c ∧ c ≤ 'Z' then some (c.toNat - 65)
  else if 'a' ≤ c ∧ c ≤ 'z' then some (c.toNat - 71)
  else if '0' ≤ c ∧ c ≤ '9' then some (c.toNat + 4)
  else match alphabet with
    | .standard => if c = '+' then some 62 else if c = '/' then some 63 else none
    | .urlSafe => if c = '-' then some 62 else if c = '_' then some 63 else none

theorem value_symbol (alphabet : Alphabet) {n : Nat} (h : n < 64) :
    alphabet.value (alphabet.symbol n) = some n := by
  have hall : ∀ alphabet : Alphabet, ∀ n : Fin 64, alphabet.value (alphabet.symbol n) = some n.val := by
    rintro (_ | _) <;> decide
  exact hall alphabet ⟨n, h⟩

theorem symbol_ne_fill (alphabet : Alphabet) {n : Nat} (h : n < 64) : alphabet.symbol n ≠ '=' := by
  have hall : ∀ alphabet : Alphabet, ∀ n : Fin 64, alphabet.symbol n ≠ '=' := by
    rintro (_ | _) <;> decide
  exact hall alphabet ⟨n, h⟩

end Alphabet

variable (alphabet : Alphabet)

def fill (n : Nat) : List Char := if alphabet.padded then List.replicate n '=' else []

def encode : List UInt8 → List Char
  | [] => []
  | [a] =>
    alphabet.symbol (a.toNat / 4) :: alphabet.symbol (a.toNat % 4 * 16) :: fill alphabet 2
  | [a, b] =>
    alphabet.symbol (a.toNat / 4) :: alphabet.symbol (a.toNat % 4 * 16 + b.toNat / 16) ::
      alphabet.symbol (b.toNat % 16 * 4) :: fill alphabet 1
  | a :: b :: c :: rest =>
    alphabet.symbol (a.toNat / 4) :: alphabet.symbol (a.toNat % 4 * 16 + b.toNat / 16) ::
      alphabet.symbol (b.toNat % 16 * 4 + c.toNat / 64) :: alphabet.symbol (c.toNat % 64) ::
        encode rest

/-- The bits that encode no byte are zero. -/
def decodeOne (a b : Char) : Option (List UInt8) := do
  let a ← alphabet.value a
  let b ← alphabet.value b
  if b % 16 = 0 then some [UInt8.ofNat (a * 4 + b / 16)] else none

def decodeTwo (a b c : Char) : Option (List UInt8) := do
  let a ← alphabet.value a
  let b ← alphabet.value b
  let c ← alphabet.value c
  if c % 4 = 0 then some [UInt8.ofNat (a * 4 + b / 16), UInt8.ofNat (b % 16 * 16 + c / 4)]
  else none

def decodeThree (a b c d : Char) : Option (List UInt8) := do
  let a ← alphabet.value a
  let b ← alphabet.value b
  let c ← alphabet.value c
  let d ← alphabet.value d
  return [UInt8.ofNat (a * 4 + b / 16), UInt8.ofNat (b % 16 * 16 + c / 4),
    UInt8.ofNat (c % 4 * 64 + d)]

def decode : List Char → Option (List UInt8)
  | [] => some []
  | [a, b] => if alphabet.padded then none else decodeOne alphabet a b
  | [a, b, c] => if alphabet.padded then none else decodeTwo alphabet a b c
  | a :: b :: c :: d :: rest =>
    if alphabet.padded ∧ d = '=' then
      if rest ≠ [] then none
      else if c = '=' then decodeOne alphabet a b
      else decodeTwo alphabet a b c
    else do
      let group ← decodeThree alphabet a b c d
      let decoded ← decode rest
      return group ++ decoded
  | _ => none

theorem decodeOne_symbol (a : UInt8) :
    decodeOne alphabet (alphabet.symbol (a.toNat / 4)) (alphabet.symbol (a.toNat % 4 * 16)) =
      some [a] := by
  have hlt := a.toNat_lt
  have hhigh : a.toNat / 4 < 64 := by omega
  have hlow : a.toNat % 4 * 16 < 64 := by omega
  have hbyte : a.toNat / 4 * 4 + a.toNat % 4 * 16 / 16 = a.toNat := by omega
  simp only [decodeOne, alphabet.value_symbol hhigh, alphabet.value_symbol hlow,
    Option.bind_eq_bind, Option.bind_some, hbyte, UInt8.ofNat_toNat]
  rw [if_pos (by omega)]

theorem decodeTwo_symbol (a b : UInt8) :
    decodeTwo alphabet (alphabet.symbol (a.toNat / 4))
        (alphabet.symbol (a.toNat % 4 * 16 + b.toNat / 16)) (alphabet.symbol (b.toNat % 16 * 4)) =
      some [a, b] := by
  have hlt := a.toNat_lt
  have hlt' := b.toNat_lt
  have h1 : a.toNat / 4 < 64 := by omega
  have h2 : a.toNat % 4 * 16 + b.toNat / 16 < 64 := by omega
  have h3 : b.toNat % 16 * 4 < 64 := by omega
  have hfirst : a.toNat / 4 * 4 + (a.toNat % 4 * 16 + b.toNat / 16) / 16 = a.toNat := by omega
  have hsecond : (a.toNat % 4 * 16 + b.toNat / 16) % 16 * 16 + b.toNat % 16 * 4 / 4 =
      b.toNat := by omega
  simp only [decodeTwo, alphabet.value_symbol h1, alphabet.value_symbol h2,
    alphabet.value_symbol h3, Option.bind_eq_bind, Option.bind_some, hfirst, hsecond,
    UInt8.ofNat_toNat]
  rw [if_pos (by omega)]

theorem decodeThree_symbol (a b c : UInt8) :
    decodeThree alphabet (alphabet.symbol (a.toNat / 4))
        (alphabet.symbol (a.toNat % 4 * 16 + b.toNat / 16))
        (alphabet.symbol (b.toNat % 16 * 4 + c.toNat / 64)) (alphabet.symbol (c.toNat % 64)) =
      some [a, b, c] := by
  have hlt := a.toNat_lt
  have hlt' := b.toNat_lt
  have hlt'' := c.toNat_lt
  have h1 : a.toNat / 4 < 64 := by omega
  have h2 : a.toNat % 4 * 16 + b.toNat / 16 < 64 := by omega
  have h3 : b.toNat % 16 * 4 + c.toNat / 64 < 64 := by omega
  have h4 : c.toNat % 64 < 64 := by omega
  have hfirst : a.toNat / 4 * 4 + (a.toNat % 4 * 16 + b.toNat / 16) / 16 = a.toNat := by omega
  have hsecond : (a.toNat % 4 * 16 + b.toNat / 16) % 16 * 16 +
      (b.toNat % 16 * 4 + c.toNat / 64) / 4 = b.toNat := by omega
  have hthird : (b.toNat % 16 * 4 + c.toNat / 64) % 4 * 64 + c.toNat % 64 = c.toNat := by omega
  simp only [decodeThree, alphabet.value_symbol h1, alphabet.value_symbol h2,
    alphabet.value_symbol h3, alphabet.value_symbol h4, Option.bind_eq_bind, Option.bind_some,
    hfirst, hsecond, hthird, UInt8.ofNat_toNat]
  rfl

theorem decode_encode (bytes : List UInt8) : decode alphabet (encode alphabet bytes) = some bytes := by
  induction bytes using encode.induct with
  | case1 => rfl
  | case2 a =>
    rw [encode, fill]
    split
    · rename_i hpadded
      rw [List.replicate, List.replicate, List.replicate, decode,
        if_pos ⟨hpadded, rfl⟩, if_neg (by simp), if_pos rfl, decodeOne_symbol]
    · rename_i hpadded
      rw [decode, if_neg hpadded, decodeOne_symbol]
  | case3 a b =>
    have hlt := b.toNat_lt
    have hne := alphabet.symbol_ne_fill (by omega : b.toNat % 16 * 4 < 64)
    rw [encode, fill]
    split
    · rename_i hpadded
      rw [List.replicate, List.replicate, decode, if_pos ⟨hpadded, rfl⟩, if_neg (by simp),
        if_neg hne, decodeTwo_symbol]
    · rename_i hpadded
      rw [decode, if_neg hpadded, decodeTwo_symbol]
  | case4 a b c rest ih =>
    have hne := alphabet.symbol_ne_fill (Nat.mod_lt c.toNat (by decide : 0 < 64))
    rw [encode, decode, if_neg (fun h => hne h.2), decodeThree_symbol, ih]
    rfl

/-- Letters, digits, the two last symbols and the filling. -/
def isSymbol (c : Char) : Bool :=
  c == '=' && alphabet.padded || (alphabet.value c).isSome

theorem isSymbol_of_mem {bytes : List UInt8} {c : Char} (h : c ∈ encode alphabet bytes) :
    isSymbol alphabet c = true := by
  have hsymbol {n : Nat} (hn : n < 64) : isSymbol alphabet (alphabet.symbol n) = true := by
    simp [isSymbol, alphabet.value_symbol hn]
  have hfill {n : Nat} (hc : c ∈ fill alphabet n) : isSymbol alphabet c = true := by
    unfold fill at hc
    split at hc
    · rename_i hpadded
      rw [List.eq_of_mem_replicate hc]
      simp [isSymbol, hpadded]
    · cases hc
  induction bytes using encode.induct with
  | case1 => cases h
  | case2 a =>
    have hlt := a.toNat_lt
    simp only [encode, List.mem_cons] at h
    rcases h with rfl | rfl | h
    · exact hsymbol (by omega)
    · exact hsymbol (by omega)
    · exact hfill h
  | case3 a b =>
    have hlt := a.toNat_lt
    have hlt' := b.toNat_lt
    simp only [encode, List.mem_cons] at h
    rcases h with rfl | rfl | rfl | h
    · exact hsymbol (by omega)
    · exact hsymbol (by omega)
    · exact hsymbol (by omega)
    · exact hfill h
  | case4 a b c rest ih =>
    have hlt := a.toNat_lt
    have hlt' := b.toNat_lt
    have hlt'' := c.toNat_lt
    simp only [encode, List.mem_cons] at h
    rcases h with rfl | rfl | rfl | rfl | h
    · exact hsymbol (by omega)
    · exact hsymbol (by omega)
    · exact hsymbol (by omega)
    · exact hsymbol (by omega)
    · exact ih h

end Base64
