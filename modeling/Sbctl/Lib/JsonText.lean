import Mathlib.Data.List.TakeWhile
import Sbctl.Lib.Json
import Sbctl.Lib.Percent

/-!
# JSON values as text

The grammar with its white space, a reader for it, and a printer with two
layouts: one without any white space and one with a line for each item.

* `Spells.read`: every spelling of a value is read as the value;
* `parse_print`: what either printer writes reads back.
-/

namespace Json

open Text

/-! ## Strings -/

def quote : Char := Char.ofNat 0x22
def backslash : Char := Char.ofNat 0x5C

/-- The characters that are written with a single letter. -/
def shortEscapes : List (Char × Char) :=
  [(quote, quote), (backslash, backslash), (Char.ofNat 8, 'b'), (Char.ofNat 12, 'f'), ('\n', 'n'),
    ('\r', 'r'), ('\t', 't')]

def escapeChar (c : Char) : List Char :=
  match shortEscapes.lookup c with
  | some letter => [backslash, letter]
  | none =>
    if c.toNat < 32 then
      [backslash, 'u', '0', '0', Nat.digitChar (c.toNat / 16), Nat.digitChar (c.toNat % 16)]
    else [c]

def printString (s : String) : List Char := quote :: (s.toList.flatMap escapeChar ++ [quote])

def codeUnit (a b c d : Char) : Option Nat := do
  let a ← hexValue a
  let b ← hexValue b
  let c ← hexValue c
  let d ← hexValue d
  return ((a * 16 + b) * 16 + c) * 16 + d

def unescape (letter : Char) : Option Char :=
  if letter = '/' then some '/'
  else (shortEscapes.find? (·.2 = letter)).map (·.1)

/-- The rest of a string after the opening quote, and what follows it. -/
def readString : List Char → Option (List Char × List Char)
  | [] => none
  | c :: cs =>
    if c = quote then some ([], cs)
    else if c = backslash then
      match cs with
      | [] => none
      | letter :: cs =>
        if letter = 'u' then
          match cs with
          | a :: b :: c :: d :: cs => do
            let unit ← codeUnit a b c d
            if 0xD800 ≤ unit ∧ unit ≤ 0xDBFF then
              match cs with
              | slash :: u :: a :: b :: c :: d :: cs => do
                -- two units for a character outside the first plane
                let low ← codeUnit a b c d
                if slash = backslash ∧ u = 'u' ∧ 0xDC00 ≤ low ∧ low ≤ 0xDFFF then do
                  let (read, rest) ← readString cs
                  return (Char.ofNat (0x10000 + (unit - 0xD800) * 0x400 + (low - 0xDC00)) :: read,
                    rest)
                else none
              | _ => none
            else if 0xDC00 ≤ unit ∧ unit ≤ 0xDFFF then none
            else do
              let (read, rest) ← readString cs
              return (Char.ofNat unit :: read, rest)
          | _ => none
        else do
          let c ← unescape letter
          let (read, rest) ← readString cs
          return (c :: read, rest)
    else if c.toNat < 32 then none
    else do
      let (read, rest) ← readString cs
      return (c :: read, rest)

theorem readString_escapeChar (c : Char) (rest : List Char) :
    readString (escapeChar c ++ rest) =
      (readString rest).map fun (read, rest) => (c :: read, rest) := by
  unfold escapeChar
  split
  · rename_i letter hshort
    have hpair : (c, letter) ∈ shortEscapes := Assoc.mem_of_lookup hshort
    have hunescape : ∀ pair ∈ shortEscapes, pair.2 ≠ 'u' ∧ unescape pair.2 = some pair.1 := by
      decide
    obtain ⟨hletter, hread⟩ := hunescape _ hpair
    have hslash : backslash ≠ quote := by decide
    rw [List.cons_append, List.cons_append, List.nil_append, readString.eq_def]
    simp only [if_neg hslash, if_true, if_neg hletter, hread, Option.bind_eq_bind,
      Option.bind_some]
    cases readString rest <;> rfl
  · rename_i hshort
    have hquote : c ≠ quote := by
      rintro rfl
      revert hshort
      decide
    have hback : c ≠ backslash := by
      rintro rfl
      revert hshort
      decide
    split
    · rename_i hcontrol
      have hhigh : c.toNat / 16 < 16 := by omega
      have hlow : c.toNat % 16 < 16 := Nat.mod_lt _ (by decide)
      have hvalue : ∀ n : Fin 16, hexValue (Nat.digitChar n) = some n.val := by decide
      have hunit : codeUnit '0' '0' (Nat.digitChar (c.toNat / 16)) (Nat.digitChar (c.toNat % 16)) =
          some c.toNat := by
        have hzero : hexValue '0' = some 0 := by decide
        have hsum : c.toNat / 16 * 16 + c.toNat % 16 = c.toNat := by omega
        simp only [codeUnit, hzero, hvalue ⟨_, hhigh⟩, hvalue ⟨_, hlow⟩, Option.bind_eq_bind,
          Option.bind_some, Nat.zero_mul, Nat.zero_add, hsum]
        rfl
      have hslash : backslash ≠ quote := by decide
      rw [readString.eq_def]
      simp only [List.cons_append, List.nil_append, if_neg hslash, if_true, hunit,
        Option.bind_eq_bind, Option.bind_some]
      rw [if_neg (by omega), if_neg (by omega), Char.ofNat_toNat]
      cases readString rest <;> rfl
    · rename_i hcontrol
      rw [List.singleton_append, readString.eq_def]
      simp only [if_neg hquote, if_neg hback, if_neg hcontrol]
      cases readString rest <;> rfl

theorem readString_printed (s : String) (rest : List Char) :
    readString (s.toList.flatMap escapeChar ++ quote :: rest) = some (s.toList, rest) := by
  induction s.toList with
  | nil =>
    rw [List.flatMap_nil, List.nil_append, readString.eq_def]
    simp only [if_true]
  | cons c cs ih =>
    rw [List.flatMap_cons, List.append_assoc, readString_escapeChar, ih]
    rfl

/-! ## The grammar -/

def isSpace (c : Char) : Bool := c == ' ' || c == '\t' || c == '\n' || c == '\r'

def isNumberChar (c : Char) : Bool :=
  c.isDigit || c == '-' || c == '+' || c == '.' || c == 'e' || c == 'E'

def isExponent (cs : List Char) : Bool :=
  match cs with
  | [] => true
  | e :: cs =>
    let digits := if cs.head? = some '+' ∨ cs.head? = some '-' then cs.tail else cs
    (e == 'e' || e == 'E') && !digits.isEmpty && digits.all Char.isDigit

/-- A sign, digits without leading zeros, a fraction and an exponent. -/
def isNumber (cs : List Char) : Bool :=
  let cs := if cs.head? = some '-' then cs.tail else cs
  let whole := cs.takeWhile Char.isDigit
  let rest := cs.dropWhile Char.isDigit
  (whole = ['0'] ∨ whole ≠ [] ∧ whole.head? ≠ some '0') &&
    if rest.head? = some '.' then
      !(rest.tail.takeWhile Char.isDigit).isEmpty && isExponent (rest.tail.dropWhile Char.isDigit)
    else isExponent rest

def openBrace : Char := Char.ofNat 0x7B
def closeBrace : Char := Char.ofNat 0x7D

/-- A value, the items of an array or the entries of an object. -/
inductive Piece where
  | value (v : Json)
  | items (vs : List Json)
  | entries (es : List (String × Json))

def White (cs : List Char) : Prop := ∀ c ∈ cs, isSpace c = true

/-- The spellings of a piece, with white space between any two tokens. -/
inductive Spells : Piece → List Char → Prop
  | null : Spells (.value .null) "null".toList
  | yes : Spells (.value (.bool true)) "true".toList
  | no : Spells (.value (.bool false)) "false".toList
  | num {n : String} (number : isNumber n.toList = true)
      (chars : ∀ c ∈ n.toList, isNumberChar c = true) : Spells (.value (.num n)) n.toList
  | str (s : String) : Spells (.value (.str s)) (printString s)
  | noItems {w : List Char} (white : White w) : Spells (.value (.arr [])) ('[' :: (w ++ [']']))
  | arr {vs : List Json} {text : List Char} (items : Spells (.items vs) text) :
      Spells (.value (.arr vs)) ('[' :: (text ++ [']']))
  | noEntries {w : List Char} (white : White w) :
      Spells (.value (.obj [])) (openBrace :: (w ++ [closeBrace]))
  | obj {es : List (String × Json)} {text : List Char} (entries : Spells (.entries es) text) :
      Spells (.value (.obj es)) (openBrace :: (text ++ [closeBrace]))
  | item {v : Json} {w text w' : List Char} (before : White w) (after : White w')
      (value : Spells (.value v) text) : Spells (.items [v]) (w ++ (text ++ w'))
  | items {v : Json} {vs : List Json} {w text w' rest : List Char} (before : White w)
      (after : White w') (value : Spells (.value v) text) (more : Spells (.items vs) rest) :
      Spells (.items (v :: vs)) (w ++ (text ++ (w' ++ ',' :: rest)))
  | entry {k : String} {v : Json} {w x y text z : List Char} (white : White w) (colon : White x)
      (before : White y) (after : White z) (value : Spells (.value v) text) :
      Spells (.entries [(k, v)]) (w ++ (printString k ++ (x ++ ':' :: (y ++ (text ++ z)))))
  | entries {k : String} {v : Json} {es : List (String × Json)} {w x y text z rest : List Char}
      (white : White w) (colon : White x) (before : White y) (after : White z)
      (value : Spells (.value v) text) (more : Spells (.entries es) rest) :
      Spells (.entries ((k, v) :: es))
        (w ++ (printString k ++ (x ++ ':' :: (y ++ (text ++ (z ++ ',' :: rest))))))

/-! ## The reader -/

/-- Words and numbers. -/
def readWord (cs : List Char) : Option (Json × List Char) :=
  match stripPrefix "null".toList cs with
  | some rest => some (.null, rest)
  | none =>
    match stripPrefix "true".toList cs with
    | some rest => some (.bool true, rest)
    | none =>
      match stripPrefix "false".toList cs with
      | some rest => some (.bool false, rest)
      | none =>
        if isNumber (cs.takeWhile isNumberChar) then
          some (.num (String.ofList (cs.takeWhile isNumberChar)), cs.dropWhile isNumberChar)
        else none

mutual

/-- A value and the text after it; the number bounds the depth and the length. -/
def readValue : Nat → List Char → Option (Json × List Char)
  | 0, _ => none
  | n + 1, cs =>
    match cs.dropWhile isSpace with
    | [] => none
    | c :: rest =>
      if c = quote then
        (readString rest).map fun (read, rest) => (.str (String.ofList read), rest)
      else if c = '[' then
        if (rest.dropWhile isSpace).head? = some ']' then
          some (.arr [], (rest.dropWhile isSpace).tail)
        else (readItems n rest).map fun (items, rest) => (.arr items, rest)
      else if c = openBrace then
        if (rest.dropWhile isSpace).head? = some closeBrace then
          some (.obj [], (rest.dropWhile isSpace).tail)
        else (readEntries n rest).map fun (entries, rest) => (.obj entries, rest)
      else readWord (c :: rest)

def readItems : Nat → List Char → Option (List Json × List Char)
  | 0, _ => none
  | n + 1, cs => do
    let (v, cs) ← readValue n cs
    match cs.dropWhile isSpace with
    | [] => none
    | c :: cs =>
      if c = ',' then do
        let (vs, cs) ← readItems n cs
        return (v :: vs, cs)
      else if c = ']' then return ([v], cs)
      else none

def readEntries : Nat → List Char → Option (List (String × Json) × List Char)
  | 0, _ => none
  | n + 1, cs =>
    match cs.dropWhile isSpace with
    | [] => none
    | c :: cs =>
      if c = quote then do
        let (key, cs) ← readString cs
        match cs.dropWhile isSpace with
        | [] => none
        | c :: cs =>
          if c = ':' then do
            let (v, cs) ← readValue n cs
            match cs.dropWhile isSpace with
            | [] => none
            | c :: cs =>
              if c = ',' then do
                let (es, cs) ← readEntries n cs
                return ((String.ofList key, v) :: es, cs)
              else if c = closeBrace then return ([(String.ofList key, v)], cs)
              else none
          else none
      else none

end

/-- The whole text is one value. -/
def parse (cs : List Char) : Option Json :=
  match readValue (cs.length + 1) cs with
  | none => none
  | some (v, rest) => if rest.all isSpace then some v else none

/-! ## Every spelling is read -/

theorem dropWhile_white {w rest : List Char} {c : Char} (hw : White w) (hc : isSpace c = false) :
    (w ++ c :: rest).dropWhile isSpace = c :: rest := by
  rw [List.dropWhile_append_of_pos hw, List.dropWhile_cons_of_neg (by simp [hc])]

/-- No number goes on in what follows. -/
def Ends (rest : List Char) : Prop := ∀ c ∈ rest.head?, isNumberChar c = false

theorem ends_white {w rest : List Char} {c : Char} (hw : White w) (hc : isNumberChar c = false) :
    Ends (w ++ c :: rest) := by
  intro d hd
  cases w with
  | nil =>
    cases hd
    exact hc
  | cons e w =>
    cases hd
    have hspace := hw d List.mem_cons_self
    simp only [isSpace, Bool.or_eq_true, beq_iff_eq] at hspace
    rcases hspace with ((rfl | rfl) | rfl) | rfl <;> decide

/-- The first character of a value is none of those that end an array or object. -/
def Opens (text : List Char) : Prop :=
  ∃ c cs, text = c :: cs ∧ isSpace c = false ∧ c ≠ ']' ∧ c ≠ closeBrace

theorem number_ne_nil {cs : List Char} (h : isNumber cs = true) : cs ≠ [] := by
  rintro rfl
  revert h
  decide

theorem numberChar_facts {c : Char} (h : isNumberChar c = true) :
    isSpace c = false ∧ c ≠ quote ∧ c ≠ '[' ∧ c ≠ ']' ∧ c ≠ openBrace ∧ c ≠ closeBrace ∧
      c ≠ 'n' ∧ c ≠ 't' ∧ c ≠ 'f' := by
  refine ⟨?_, ?_, ?_, ?_, ?_, ?_, ?_, ?_, ?_⟩
  · by_contra hspace
    rw [Bool.not_eq_false] at hspace
    simp only [isSpace, Bool.or_eq_true, beq_iff_eq] at hspace
    rcases hspace with ((rfl | rfl) | rfl) | rfl <;> revert h <;> decide
  all_goals
    rintro rfl
    revert h
    decide

theorem Spells.opens {v : Json} {text : List Char} (h : Spells (.value v) text) : Opens text := by
  cases h with
  | null => exact ⟨'n', _, rfl, by decide⟩
  | yes => exact ⟨'t', _, rfl, by decide⟩
  | no => exact ⟨'f', _, rfl, by decide⟩
  | num number chars =>
    rename_i n
    cases hn : n.toList with
    | nil => exact absurd hn (number_ne_nil number)
    | cons c cs =>
      rw [hn] at chars
      obtain ⟨hspace, -, -, hbracket, -, hbrace, -⟩ := numberChar_facts (chars c List.mem_cons_self)
      exact ⟨c, cs, rfl, hspace, hbracket, hbrace⟩
  | str s => exact ⟨quote, _, rfl, by decide⟩
  | noItems => exact ⟨'[', _, rfl, by decide⟩
  | arr => exact ⟨'[', _, rfl, by decide⟩
  | noEntries => exact ⟨openBrace, _, rfl, by decide⟩
  | obj => exact ⟨openBrace, _, rfl, by decide⟩

theorem Spells.items_head {vs : List Json} {text : List Char} (h : Spells (.items vs) text)
    (rest : List Char) : ((text ++ rest).dropWhile isSpace).head? ≠ some ']' := by
  cases h with
  | item before after value =>
    obtain ⟨c, cs, rfl, hspace, hbracket, -⟩ := value.opens
    simp only [List.append_assoc, List.cons_append, dropWhile_white before hspace]
    simpa using hbracket
  | items before after value more =>
    obtain ⟨c, cs, rfl, hspace, hbracket, -⟩ := value.opens
    simp only [List.append_assoc, List.cons_append, dropWhile_white before hspace]
    simpa using hbracket

theorem Spells.entries_head {es : List (String × Json)} {text : List Char}
    (h : Spells (.entries es) text) (rest : List Char) :
    ((text ++ rest).dropWhile isSpace).head? ≠ some closeBrace := by
  cases h with
  | entry white =>
    simp only [List.append_assoc, printString, List.cons_append,
      dropWhile_white white (by decide : isSpace quote = false), List.head?_cons]
    decide
  | entries white =>
    simp only [List.append_assoc, printString, List.cons_append,
      dropWhile_white white (by decide : isSpace quote = false), List.head?_cons]
    decide

/-- What reading a piece means. A value may have white space before it, the
others end with their bracket. -/
def Reads : Piece → List Char → Prop
  | .value v, text => ∀ (w rest : List Char) (n : Nat), White w → Ends rest → text.length ≤ n →
      readValue n (w ++ (text ++ rest)) = some (v, rest)
  | .items vs, text => ∀ (rest : List Char) (n : Nat), text.length < n →
      readItems n (text ++ ']' :: rest) = some (vs, rest)
  | .entries es, text => ∀ (rest : List Char) (n : Nat), text.length < n →
      readEntries n (text ++ closeBrace :: rest) = some (es, rest)

theorem stripPrefix_ne {c d : Char} (h : c ≠ d) (pre cs : List Char) :
    stripPrefix (c :: pre) (d :: cs) = none := by
  rw [stripPrefix, if_neg h]

theorem readWord_number {cs rest : List Char} (number : isNumber cs = true)
    (chars : ∀ c ∈ cs, isNumberChar c = true) (hrest : Ends rest) :
    readWord (cs ++ rest) = some (.num (String.ofList cs), rest) := by
  cases cs with
  | nil => exact absurd rfl (number_ne_nil number)
  | cons c cs =>
    obtain ⟨-, -, -, -, -, -, hn, ht, hf⟩ := numberChar_facts (chars c List.mem_cons_self)
    have htake : (c :: cs ++ rest).takeWhile isNumberChar = c :: cs := by
      rw [List.takeWhile_append_of_pos chars]
      cases rest with
      | nil => simp
      | cons d rest =>
        rw [List.takeWhile_cons_of_neg (by simp [hrest d rfl]), List.append_nil]
    have hdrop : (c :: cs ++ rest).dropWhile isNumberChar = rest := by
      rw [List.dropWhile_append_of_pos chars]
      cases rest with
      | nil => rfl
      | cons d rest => rw [List.dropWhile_cons_of_neg (by simp [hrest d rfl])]
    have hnull : stripPrefix "null".toList (c :: cs ++ rest) = none :=
      stripPrefix_ne (Ne.symm hn) _ _
    have htrue : stripPrefix "true".toList (c :: cs ++ rest) = none :=
      stripPrefix_ne (Ne.symm ht) _ _
    have hfalse : stripPrefix "false".toList (c :: cs ++ rest) = none :=
      stripPrefix_ne (Ne.symm hf) _ _
    rw [readWord, hnull, htrue, hfalse, htake, hdrop]
    simp only [number, if_true]

/-- A value that is a word, whatever the words are. -/
theorem readValue_word {w text rest : List Char} {n : Nat} {v : Json} (hw : White w)
    (hopens : ∃ c cs, text = c :: cs ∧ isSpace c = false ∧ c ≠ quote ∧ c ≠ '[' ∧ c ≠ openBrace)
    (hn : text.length ≤ n) (h : readWord (text ++ rest) = some (v, rest)) :
    readValue n (w ++ (text ++ rest)) = some (v, rest) := by
  obtain ⟨c, cs, rfl, hspace, hquote, hbracket, hbrace⟩ := hopens
  cases n with
  | zero => simp at hn
  | succ n =>
    rw [readValue, List.cons_append, dropWhile_white hw hspace]
    simp only [if_neg hquote, if_neg hbracket, if_neg hbrace]
    exact h

theorem readWord_yes (rest : List Char) :
    readWord ("true".toList ++ rest) = some (.bool true, rest) := by
  have hnull : stripPrefix "null".toList ("true".toList ++ rest) = none :=
    stripPrefix_ne (by decide) _ _
  rw [readWord, hnull, stripPrefix_append]

theorem readWord_no (rest : List Char) :
    readWord ("false".toList ++ rest) = some (.bool false, rest) := by
  have hnull : stripPrefix "null".toList ("false".toList ++ rest) = none :=
    stripPrefix_ne (by decide) _ _
  have htrue : stripPrefix "true".toList ("false".toList ++ rest) = none :=
    stripPrefix_ne (by decide) _ _
  rw [readWord, hnull, htrue, stripPrefix_append]

theorem readValue_number {literal : String} {w rest : List Char} {n : Nat}
    (number : isNumber literal.toList = true)
    (chars : ∀ c ∈ literal.toList, isNumberChar c = true) (hw : White w) (hrest : Ends rest)
    (hn : literal.toList.length ≤ n) :
    readValue n (w ++ (literal.toList ++ rest)) = some (.num literal, rest) := by
  have hread := readWord_number number chars hrest
  rw [String.ofList_toList] at hread
  refine readValue_word hw ?_ hn hread
  cases hliteral : literal.toList with
  | nil => exact absurd hliteral (number_ne_nil number)
  | cons c cs =>
    obtain ⟨hspace, hquote, hbracket, -, hbrace, -⟩ :=
      numberChar_facts (chars c (hliteral ▸ List.mem_cons_self))
    exact ⟨c, cs, rfl, hspace, hquote, hbracket, hbrace⟩

section
variable {w x z cs more rest : List Char} {n : Nat} {k : String} {v : Json} {vs : List Json}
  {es : List (String × Json)}

theorem readValue_quote (hw : White w) (n : Nat) (cs : List Char) :
    readValue (n + 1) (w ++ quote :: cs) =
      (readString cs).map fun (read, rest) => (.str (String.ofList read), rest) := by
  rw [readValue, dropWhile_white hw (by decide : isSpace quote = false)]
  simp only [if_true]

theorem readValue_bracket (hw : White w) (n : Nat) (cs : List Char) :
    readValue (n + 1) (w ++ '[' :: cs) =
      if (cs.dropWhile isSpace).head? = some ']' then
        some (.arr [], (cs.dropWhile isSpace).tail)
      else (readItems n cs).map fun (items, rest) => (.arr items, rest) := by
  have hquote : '[' ≠ quote := by decide
  rw [readValue, dropWhile_white hw (by decide : isSpace '[' = false)]
  simp only [if_neg hquote, if_true]

theorem readValue_brace (hw : White w) (n : Nat) (cs : List Char) :
    readValue (n + 1) (w ++ openBrace :: cs) =
      if (cs.dropWhile isSpace).head? = some closeBrace then
        some (.obj [], (cs.dropWhile isSpace).tail)
      else (readEntries n cs).map fun (entries, rest) => (.obj entries, rest) := by
  have hquote : openBrace ≠ quote := by decide
  have hbracket : openBrace ≠ '[' := by decide
  rw [readValue, dropWhile_white hw (by decide : isSpace openBrace = false)]
  simp only [if_neg hquote, if_neg hbracket, if_true]

theorem readItems_item (hread : readValue n cs = some (v, z ++ ']' :: rest)) (after : White z) :
    readItems (n + 1) cs = some ([v], rest) := by
  rw [readItems, hread]
  simp only [Option.bind_eq_bind, Option.bind_some,
    dropWhile_white after (by decide : isSpace ']' = false)]
  rfl

theorem readItems_items (hread : readValue n cs = some (v, z ++ ',' :: more)) (after : White z)
    (hmore : readItems n more = some (vs, rest)) :
    readItems (n + 1) cs = some (v :: vs, rest) := by
  rw [readItems, hread]
  simp only [Option.bind_eq_bind, Option.bind_some,
    dropWhile_white after (by decide : isSpace ',' = false), if_true, hmore]
  rfl

theorem readEntries_entry (white : White w) (colon : White x)
    (hread : readValue n cs = some (v, z ++ closeBrace :: rest)) (after : White z) :
    readEntries (n + 1) (w ++ (printString k ++ (x ++ ':' :: cs))) = some ([(k, v)], rest) := by
  rw [readEntries]
  simp only [List.append_assoc, List.cons_append, List.nil_append, printString,
    dropWhile_white white (by decide : isSpace quote = false), if_true, readString_printed,
    Option.bind_eq_bind, Option.bind_some,
    dropWhile_white colon (by decide : isSpace ':' = false), hread,
    dropWhile_white after (by decide : isSpace closeBrace = false), String.ofList_toList]
  rfl

theorem readEntries_entries (white : White w) (colon : White x)
    (hread : readValue n cs = some (v, z ++ ',' :: more)) (after : White z)
    (hmore : readEntries n more = some (es, rest)) :
    readEntries (n + 1) (w ++ (printString k ++ (x ++ ':' :: cs))) =
      some ((k, v) :: es, rest) := by
  rw [readEntries]
  simp only [List.append_assoc, List.cons_append, List.nil_append, printString,
    dropWhile_white white (by decide : isSpace quote = false), if_true, readString_printed,
    Option.bind_eq_bind, Option.bind_some,
    dropWhile_white colon (by decide : isSpace ':' = false), hread,
    dropWhile_white after (by decide : isSpace ',' = false), String.ofList_toList, hmore]
  rfl

end

/-- A value whose text starts with its bracket or quote needs one step of the bound. -/
theorem exists_step {c : Char} {cs : List Char} {n : Nat} (hn : (c :: cs).length ≤ n) :
    ∃ m, n = m + 1 ∧ cs.length ≤ m :=
  ⟨n - 1, by simp only [List.length_cons] at hn; omega,
    by simp only [List.length_cons] at hn; omega⟩

theorem Spells.read {piece : Piece} {text : List Char} (h : Spells piece text) :
    Reads piece text := by
  induction h with
  | null =>
    intro w rest n hw _ hn
    exact readValue_word hw ⟨'n', _, rfl, by decide⟩ hn (by rw [readWord, stripPrefix_append])
  | yes =>
    intro w rest n hw _ hn
    exact readValue_word hw ⟨'t', _, rfl, by decide⟩ hn (readWord_yes rest)
  | no =>
    intro w rest n hw _ hn
    exact readValue_word hw ⟨'f', _, rfl, by decide⟩ hn (readWord_no rest)
  | num number chars =>
    intro w rest n hw hrest hn
    exact readValue_number number chars hw hrest hn
  | str s =>
    intro w rest n hw _ hn
    obtain ⟨n, rfl, -⟩ := exists_step hn
    rw [printString, List.cons_append, readValue_quote hw]
    simp only [List.append_assoc, List.singleton_append, readString_printed,
      Option.map_some, String.ofList_toList]
  | noItems white =>
    intro w rest n hw _ hn
    obtain ⟨n, rfl, -⟩ := exists_step hn
    rw [List.cons_append, readValue_bracket hw]
    simp only [List.append_assoc, List.singleton_append,
      dropWhile_white white (by decide : isSpace ']' = false), List.head?_cons, if_true,
      List.tail_cons]
  | @arr vs text items ih =>
    intro w rest n hw _ hn
    obtain ⟨n, rfl, hlength⟩ := exists_step hn
    rw [List.length_append, List.length_singleton] at hlength
    rw [List.cons_append, readValue_bracket hw]
    simp only [List.append_assoc, List.singleton_append,
      if_neg (items.items_head (']' :: rest)), ih rest n hlength, Option.map_some]
  | noEntries white =>
    intro w rest n hw _ hn
    obtain ⟨n, rfl, -⟩ := exists_step hn
    rw [List.cons_append, readValue_brace hw]
    simp only [List.append_assoc, List.singleton_append,
      dropWhile_white white (by decide : isSpace closeBrace = false), List.head?_cons, if_true,
      List.tail_cons]
  | @obj es text entries ih =>
    intro w rest n hw _ hn
    obtain ⟨n, rfl, hlength⟩ := exists_step hn
    rw [List.length_append, List.length_singleton] at hlength
    rw [List.cons_append, readValue_brace hw]
    simp only [List.append_assoc, List.singleton_append,
      if_neg (entries.entries_head (closeBrace :: rest)), ih rest n hlength, Option.map_some]
  | @item v w text w' before after value ih =>
    intro rest n hn
    obtain ⟨n, rfl⟩ := Nat.exists_eq_succ_of_ne_zero (Nat.ne_zero_of_lt hn)
    simp only [List.length_append] at hn
    have hread := ih w (w' ++ ']' :: rest) n before (ends_white after (by decide)) (by omega)
    rw [List.append_assoc, List.append_assoc]
    exact readItems_item hread after
  | @items v vs w text w' more before after value _ ih ihmore =>
    intro rest n hn
    obtain ⟨n, rfl⟩ := Nat.exists_eq_succ_of_ne_zero (Nat.ne_zero_of_lt hn)
    simp only [List.length_append, List.length_cons] at hn
    have hread := ih w (w' ++ ',' :: (more ++ ']' :: rest)) n before
      (ends_white after (by decide)) (by omega)
    simp only [List.append_assoc, List.cons_append]
    exact readItems_items hread after (ihmore rest n (by omega))
  | @entry k v w x y text z white colon before after value ih =>
    intro rest n hn
    obtain ⟨n, rfl⟩ := Nat.exists_eq_succ_of_ne_zero (Nat.ne_zero_of_lt hn)
    simp only [List.length_append, List.length_cons] at hn
    have hread := ih y (z ++ closeBrace :: rest) n before (ends_white after (by decide))
      (by omega)
    simp only [List.append_assoc, List.cons_append]
    exact readEntries_entry white colon hread after
  | @entries k v es w x y text z more white colon before after value _ ih ihmore =>
    intro rest n hn
    obtain ⟨n, rfl⟩ := Nat.exists_eq_succ_of_ne_zero (Nat.ne_zero_of_lt hn)
    simp only [List.length_append, List.length_cons] at hn
    have hread := ih y (z ++ ',' :: (more ++ closeBrace :: rest)) n before
      (ends_white after (by decide)) (by omega)
    simp only [List.append_assoc, List.cons_append]
    exact readEntries_entries white colon hread after (ihmore rest n (by omega))

theorem Spells.parse {v : Json} {text : List Char} (h : Spells (.value v) text) :
    Json.parse text = some v := by
  have hread := h.read [] [] (text.length + 1) (by simp [White]) (by simp [Ends])
    (Nat.le_succ _)
  rw [List.nil_append, List.append_nil] at hread
  rw [Json.parse, hread]
  rfl

/-! ## Printing -/

/-- Where a printer puts white space: before each item, at its depth, and after
the colon of an entry. -/
structure Layout where
  newline : Nat → List Char
  afterColon : List Char
  newline_white : ∀ depth, White (newline depth)
  afterColon_white : White afterColon

def compact : Layout where
  newline _ := []
  afterColon := []
  newline_white _ := by simp [White]
  afterColon_white := by simp [White]

def pretty : Layout where
  newline depth := '\n' :: List.replicate (2 * depth) ' '
  afterColon := [' ']
  newline_white depth := by
    intro c hc
    rcases List.mem_cons.mp hc with rfl | hc
    · decide
    · rw [List.eq_of_mem_replicate hc]
      decide
  afterColon_white := by
    intro c hc
    rw [List.mem_singleton.mp hc]
    decide

mutual

def print (layout : Layout) (depth : Nat) : Json → List Char
  | .null => "null".toList
  | .bool true => "true".toList
  | .bool false => "false".toList
  | .num n => n.toList
  | .str s => printString s
  | .arr [] => ['[', ']']
  | .arr items =>
    '[' :: (printItems layout (depth + 1) items ++ layout.newline depth ++ [']'])
  | .obj [] => [openBrace, closeBrace]
  | .obj entries =>
    openBrace :: (printEntries layout (depth + 1) entries ++ layout.newline depth ++ [closeBrace])

def printItems (layout : Layout) (depth : Nat) : List Json → List Char
  | [] => []
  | [v] => layout.newline depth ++ print layout depth v
  | v :: vs =>
    layout.newline depth ++ (print layout depth v ++ ',' :: printItems layout depth vs)

def printEntries (layout : Layout) (depth : Nat) : List (String × Json) → List Char
  | [] => []
  | [(k, v)] =>
    layout.newline depth ++ (printString k ++ ':' :: (layout.afterColon ++ print layout depth v))
  | (k, v) :: es =>
    layout.newline depth ++ (printString k ++ ':' :: (layout.afterColon ++
      (print layout depth v ++ ',' :: printEntries layout depth es)))

end

/-- Every number is written as one. -/
inductive Printable : Json → Prop
  | null : Printable .null
  | bool (b : Bool) : Printable (.bool b)
  | num {n : String} (number : isNumber n.toList = true)
      (chars : ∀ c ∈ n.toList, isNumberChar c = true) : Printable (.num n)
  | str (s : String) : Printable (.str s)
  | arr {items : List Json} (inside : ∀ item ∈ items, Printable item) : Printable (.arr items)
  | obj {entries : List (String × Json)} (inside : ∀ entry ∈ entries, Printable entry.2) :
      Printable (.obj entries)

theorem spells_items {layout : Layout} {depth : Nat} {vs : List Json} {w : List Char}
    (hw : White w) (hne : vs ≠ [])
    (h : ∀ v ∈ vs, Spells (.value v) (print layout depth v)) :
    Spells (.items vs) (printItems layout depth vs ++ w) := by
  induction vs with
  | nil => exact absurd rfl hne
  | cons v vs ih =>
    have hv := h v List.mem_cons_self
    have hline := layout.newline_white depth
    cases vs with
    | nil =>
      rw [printItems, List.append_assoc]
      exact .item hline hw hv
    | cons next vs =>
      have hmore := ih (List.cons_ne_nil _ _) fun u hu => h u (List.mem_cons_of_mem _ hu)
      have hwhole := Spells.items hline (by simp [White] : White []) hv hmore
      rw [printItems]
      · simpa using hwhole
      · exact List.cons_ne_nil _ _

theorem spells_entries {layout : Layout} {depth : Nat} {es : List (String × Json)} {w : List Char}
    (hw : White w) (hne : es ≠ [])
    (h : ∀ e ∈ es, Spells (.value e.2) (print layout depth e.2)) :
    Spells (.entries es) (printEntries layout depth es ++ w) := by
  induction es with
  | nil => exact absurd rfl hne
  | cons e es ih =>
    obtain ⟨k, v⟩ := e
    have hv : Spells (.value v) (print layout depth v) := h (k, v) List.mem_cons_self
    have hline := layout.newline_white depth
    have hnone : White [] := by simp [White]
    cases es with
    | nil =>
      have hwhole := @Spells.entry k v _ _ _ _ _ hline hnone layout.afterColon_white hw hv
      rw [printEntries]
      simpa using hwhole
    | cons next es =>
      have hmore := ih (List.cons_ne_nil _ _) fun u hu => h u (List.mem_cons_of_mem _ hu)
      have hwhole := @Spells.entries k v _ _ _ _ _ _ _ hline hnone layout.afterColon_white hnone
        hv hmore
      rw [printEntries]
      · simpa using hwhole
      · exact List.cons_ne_nil _ _

theorem Printable.spells {v : Json} (h : Printable v) (layout : Layout) (depth : Nat) :
    Spells (.value v) (print layout depth v) := by
  induction h generalizing depth with
  | null => exact .null
  | bool b =>
    cases b with
    | false => exact .no
    | true => exact .yes
  | num number chars => exact .num number chars
  | str s => exact .str s
  | @arr items _ ih =>
    cases items with
    | nil => exact .noItems (by simp [White] : White [])
    | cons item items =>
      rw [print]
      · exact .arr (spells_items (layout.newline_white depth) (List.cons_ne_nil _ _)
          fun v hv => ih v hv (depth + 1))
      · exact List.cons_ne_nil _ _
  | @obj entries _ ih =>
    cases entries with
    | nil => exact .noEntries (by simp [White] : White [])
    | cons entry entries =>
      rw [print]
      · exact .obj (spells_entries (layout.newline_white depth) (List.cons_ne_nil _ _)
          fun e he => ih e he (depth + 1))
      · exact List.cons_ne_nil _ _

/-- What is printed reads back, in either layout. -/
theorem parse_print {v : Json} (h : Printable v) (layout : Layout) (depth : Nat) :
    parse (print layout depth v) = some v :=
  (h.spells layout depth).parse

/-! ## Natural numbers -/

def number (n : Nat) : Json := .num (String.ofList (Nat.toDigits 10 n))

/-- A number up to a bound, without sign, fraction or exponent. -/
def asNat? (bound : Nat) : Json → Option Nat
  | .num literal => parseUnsigned bound literal.toList
  | _ => none

theorem asNat_number {bound n : Nat} (h : n ≤ bound) : (number n).asNat? bound = some n := by
  rw [number, asNat?, String.toList_ofList]
  exact parseUnsigned_toDigits h

theorem printable_number (n : Nat) : Printable (number n) := by
  have hdigits : ∀ c ∈ Nat.toDigits 10 n, c.isDigit = true := fun c hc => isDigit_of_mem hc
  have hplain := plainNumber_toDigits n
  have htake : (Nat.toDigits 10 n).takeWhile Char.isDigit = Nat.toDigits 10 n :=
    List.takeWhile_eq_self_iff.mpr hdigits
  have hdrop : (Nat.toDigits 10 n).dropWhile Char.isDigit = [] :=
    List.dropWhile_eq_nil_iff.mpr hdigits
  refine .num ?_ ?_
  · have hsign : (Nat.toDigits 10 n).head? ≠ some '-' := by
      intro hhead
      exact notMem_toDigits (by decide) (List.mem_of_mem_head? hhead)
    have hzero : Nat.toDigits 10 n = ['0'] ∨
        Nat.toDigits 10 n ≠ [] ∧ (Nat.toDigits 10 n).head? ≠ some '0' := by
      by_cases hhead : (Nat.toDigits 10 n).head? = some '0'
      · exact .inl (hplain.2 hhead)
      · exact .inr ⟨Nat.toDigits_ne_nil, hhead⟩
    rw [String.toList_ofList, isNumber, if_neg hsign]
    simp only [htake, hdrop, decide_eq_true hzero, List.head?_nil, reduceCtorEq, if_false,
      isExponent, Bool.and_self]
  · intro c hc
    rw [String.toList_ofList] at hc
    simp [isNumberChar, hdigits c hc]

end Json
