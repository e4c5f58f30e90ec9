import Mathlib.Data.List.TakeWhile
import Sbctl.Lib.Spelling
import Sbctl.Lib.Traverse

/-!
# Lines of a text

A text that is read line by line, each line without the white space around it.

* `trimmed_append`: lines that are added after a text are read after its lines;
* `trimmed_terminate`: the end of the last line may be missing;
* `read_lines_iff`: what a text of printed items is read as, when each line is
  rewritten on its own.
-/

namespace Text

def toAsciiUppercase (cs : List Char) : String := String.ofList (cs.map Char.toUpper)

theorem toUpper_toUpper (c : Char) : c.toUpper.toUpper = c.toUpper := by
  unfold Char.toUpper
  split
  · rename_i h
    obtain ⟨hlow, hhigh⟩ := h
    rw [dif_neg]
    rintro ⟨h, -⟩
    simp only [UInt32.le_iff_toNat_le, UInt32.toNat_add] at hlow hhigh h
    have : 'a'.val.toNat = 97 := rfl
    have : 'z'.val.toNat = 122 := rfl
    have : ('A'.val - 'a'.val).toNat = 4294967264 := rfl
    omega
  · rfl

theorem toAsciiUppercase_idem (cs : List Char) :
    toAsciiUppercase (toAsciiUppercase cs).toList = toAsciiUppercase cs := by
  rw [toAsciiUppercase, toAsciiUppercase, String.toList_ofList, List.map_map]
  exact congrArg String.ofList (List.map_congr_left fun c _ => toUpper_toUpper c)

theorem toAsciiUppercase_eq_self {s : String} (h : ∀ c ∈ s.toList, c.toUpper = c) :
    toAsciiUppercase s.toList = s := by
  rw [toAsciiUppercase, List.map_congr_left h, List.map_id', String.ofList_toList]

/-! ## White space around a text -/

/-- No white space at either end. -/
def Trimmed (cs : List Char) : Prop :=
  (∀ c ∈ cs.head?, isWhitespace c = false) ∧ ∀ c ∈ cs.getLast?, isWhitespace c = false

theorem trimmed_of_clear {cs : List Char} (h : ∀ c ∈ cs, isWhitespace c = false) : Trimmed cs :=
  ⟨fun c hc => h c (List.mem_of_mem_head? hc), fun c hc => h c (List.mem_of_mem_getLast? hc)⟩

theorem head?_dropWhile_not (p : Char → Bool) (cs : List Char) :
    ∀ c ∈ (cs.dropWhile p).head?, p c = false := by
  intro c hc
  have h := List.head?_dropWhile_not p cs
  rw [hc] at h
  exact Bool.eq_false_iff.mpr (by simpa using h)

theorem getLast?_dropWhile {p : Char → Bool} {cs : List Char} (h : cs.dropWhile p ≠ []) :
    (cs.dropWhile p).getLast? = cs.getLast? := by
  conv_rhs => rw [← List.takeWhile_append_dropWhile (p := p) (l := cs)]
  rw [List.getLast?_append_of_ne_nil _ h]

theorem dropWhile_eq_self {p : Char → Bool} {cs : List Char} (h : ∀ c ∈ cs.head?, p c = false) :
    cs.dropWhile p = cs := by
  cases cs with
  | nil => rfl
  | cons c cs => rw [List.dropWhile_cons_of_neg (by simp [h c rfl])]

theorem trim_eq_self {cs : List Char} (h : Trimmed cs) : trim cs = cs := by
  have hlast : ∀ c ∈ cs.reverse.head?, isWhitespace c = false := by
    rw [List.head?_reverse]
    exact h.2
  rw [trim, dropWhile_eq_self h.1, dropWhile_eq_self hlast, List.reverse_reverse]

theorem trimmed_trim (cs : List Char) : Trimmed (trim cs) := by
  have hlast := head?_dropWhile_not isWhitespace (cs.dropWhile isWhitespace).reverse
  refine ⟨?_, ?_⟩
  · by_cases hnil : (cs.dropWhile isWhitespace).reverse.dropWhile isWhitespace = []
    · simp [trim, hnil]
    · rw [trim, List.head?_reverse, getLast?_dropWhile hnil, List.getLast?_reverse]
      exact head?_dropWhile_not isWhitespace cs
  · rw [trim, List.getLast?_reverse]
    exact hlast

theorem trim_trim (cs : List Char) : trim (trim cs) = trim cs := trim_eq_self (trimmed_trim cs)

theorem trim_append_whitespace {c : Char} (h : isWhitespace c) (cs : List Char) :
    trim (cs ++ [c]) = trim cs := by
  by_cases hnil : cs.dropWhile isWhitespace = []
  · have hall : ∀ d ∈ cs, isWhitespace d := List.dropWhile_eq_nil_iff.mp hnil
    have hboth : (cs ++ [c]).dropWhile isWhitespace = [] := by
      rw [List.dropWhile_eq_nil_iff]
      simpa [or_imp, forall_and, h] using hall
    simp [trim, hboth, hnil]
  · rw [trim, List.dropWhile_append, if_neg (by simpa using hnil), List.reverse_append]
    simp [h, trim]

theorem mem_of_mem_trim {c : Char} {cs : List Char} (h : c ∈ trim cs) : c ∈ cs := by
  rw [trim, List.mem_reverse] at h
  have hsuffix := (List.dropWhile_suffix isWhitespace).subset h
  exact (List.dropWhile_suffix isWhitespace).subset (List.mem_reverse.mp hsuffix)

/-! ## Words -/

/-- The pieces between the characters that separate. -/
def splitWhere (p : Char → Bool) : List Char → List (List Char)
  | [] => [[]]
  | c :: cs =>
    if p c then [] :: splitWhere p cs
    else match splitWhere p cs with
      | [] => [[c]]
      | piece :: pieces => (c :: piece) :: pieces

/-- The pieces between white space that are not empty. -/
def words (cs : List Char) : List (List Char) :=
  (splitWhere isWhitespace cs).filter fun piece => !piece.isEmpty

theorem splitWhere_of_none {p : Char → Bool} {cs : List Char} (h : ∀ c ∈ cs, p c = false) :
    splitWhere p cs = [cs] := by
  induction cs with
  | nil => rfl
  | cons c cs ih =>
    have hc := h c List.mem_cons_self
    rw [splitWhere, hc, if_neg Bool.false_ne_true,
      ih fun d hd => h d (List.mem_cons_of_mem _ hd)]

theorem splitWhere_append {p : Char → Bool} {cs : List Char} {c : Char}
    (h : ∀ d ∈ cs, p d = false) (hc : p c = true) (rest : List Char) :
    splitWhere p (cs ++ c :: rest) = cs :: splitWhere p rest := by
  induction cs with
  | nil => rw [List.nil_append, splitWhere, if_pos hc]
  | cons d cs ih =>
    have hd := h d List.mem_cons_self
    rw [List.cons_append, splitWhere, hd, if_neg Bool.false_ne_true,
      ih fun e he => h e (List.mem_cons_of_mem _ he)]

/-- Text that does not end in white space has a word. -/
theorem words_ne_nil {cs : List Char} {c : Char} (hlast : cs.getLast? = some c)
    (hc : isWhitespace c = false) : words cs ≠ [] := by
  induction cs with
  | nil => cases hlast
  | cons d cs ih =>
    cases cs with
    | nil =>
      rw [List.getLast?_singleton, Option.some.injEq] at hlast
      subst hlast
      simp [words, splitWhere, hc]
    | cons e cs =>
      rw [List.getLast?_cons_cons] at hlast
      have hrest := ih hlast
      unfold words at hrest ⊢
      rw [splitWhere]
      by_cases hd : isWhitespace d = true
      · rw [if_pos hd]
        simpa using hrest
      · rw [if_neg hd]
        cases hpieces : splitWhere isWhitespace (e :: cs) with
        | nil => simp
        | cons piece pieces => simp

/-- Text without white space at its ends is more than one word if there is white
space in it. -/
theorem one_lt_words {cs : List Char} (h : Trimmed cs) :
    1 < (words cs).length ↔ ∃ c ∈ cs, isWhitespace c = true := by
  by_cases hsome : ∃ c ∈ cs, isWhitespace c = true
  · refine ⟨fun _ => hsome, fun _ => ?_⟩
    have hdrop : cs.dropWhile (fun c => !isWhitespace c) ≠ [] := by
      intro hnil
      obtain ⟨c, hc, hspace⟩ := hsome
      have := List.dropWhile_eq_nil_iff.mp hnil c hc
      rw [hspace] at this
      cases this
    obtain ⟨space, rest, hrest⟩ := List.exists_cons_of_ne_nil hdrop
    have hspace : isWhitespace space = true := by
      have := head?_dropWhile_not (fun c => !isWhitespace c) cs space (by rw [hrest]; rfl)
      simpa using this
    have hsplit : cs = cs.takeWhile (fun c => !isWhitespace c) ++ space :: rest := by
      rw [← hrest, List.takeWhile_append_dropWhile]
    generalize hfirst : cs.takeWhile (fun c => !isWhitespace c) = first at hsplit
    have hclear : ∀ c ∈ first, isWhitespace c = false := by
      intro c hc
      rw [← hfirst] at hc
      have hall : ((cs.takeWhile fun c => !isWhitespace c).all fun c => !isWhitespace c) = true :=
        List.all_takeWhile
      have := List.all_eq_true.mp hall c hc
      simpa using this
    have hne : first ≠ [] := by
      rintro rfl
      have := h.1 space (by rw [hsplit]; rfl)
      rw [hspace] at this
      cases this
    have hend : words rest ≠ [] := by
      cases hlast : rest.getLast? with
      | none =>
        have hnil := List.getLast?_eq_none_iff.mp hlast
        have := h.2 space (by rw [hsplit, hnil]; simp)
        rw [hspace] at this
        cases this
      | some c =>
        refine words_ne_nil hlast (h.2 c ?_)
        rw [hsplit, List.getLast?_append_of_ne_nil _ (List.cons_ne_nil _ _)]
        cases rest with
        | nil => cases hlast
        | cons d rest => rw [List.getLast?_cons_cons, hlast]; rfl
    have hlength := List.length_pos_iff.mpr hend
    rw [hsplit, words, splitWhere_append hclear hspace, List.filter_cons_of_pos (by simpa using hne)]
    exact Nat.succ_lt_succ hlength
  · refine ⟨fun hlt => ?_, fun hc => absurd hc hsome⟩
    have hnone : ∀ c ∈ cs, isWhitespace c = false := by
      intro c hc
      by_contra hspace
      exact hsome ⟨c, hc, Bool.not_eq_false _ ▸ hspace⟩
    rw [words, splitWhere_of_none hnone] at hlt
    have := List.length_filter_le (fun piece : List Char => !piece.isEmpty) [cs]
    rw [List.length_singleton] at this
    omega

/-! ## Lines -/

/-- The pieces with the separator that ends each. -/
def splitInclusive (sep : Char) : List Char → List (List Char)
  | [] => []
  | c :: cs =>
    if c = sep then [c] :: splitInclusive sep cs
    else match splitInclusive sep cs with
      | [] => [[c]]
      | piece :: pieces => (c :: piece) :: pieces

def withoutLast (c : Char) (cs : List Char) : Option (List Char) :=
  if cs.getLast? = some c then some cs.dropLast else none

/-- A line without its line feed, and without a carriage return before that. -/
def stripLineEnd (line : List Char) : List Char :=
  match withoutLast '\n' line with
  | none => line
  | some line => (withoutLast '\r' line).getD line

def lines (cs : List Char) : List (List Char) := (splitInclusive '\n' cs).map stripLineEnd

/-- The lines as a reader sees them that drops the white space around each. -/
def trimmed (cs : List Char) : List (List Char) := (splitInclusive '\n' cs).map trim

theorem trim_withoutLast {c : Char} {cs ds : List Char} (hc : isWhitespace c)
    (h : withoutLast c cs = some ds) : trim ds = trim cs := by
  unfold withoutLast at h
  split at h
  · rename_i hlast
    cases h
    conv_rhs => rw [← List.dropLast_append_getLast? c hlast]
    rw [trim_append_whitespace hc]
  · cases h

theorem trim_stripLineEnd (line : List Char) : trim (stripLineEnd line) = trim line := by
  unfold stripLineEnd
  split
  · rfl
  · rename_i rest hfeed
    rw [← trim_withoutLast (by decide) hfeed]
    cases hreturn : withoutLast '\r' rest with
    | none => rfl
    | some shorter => exact trim_withoutLast (by decide) hreturn

theorem map_trim_lines (cs : List Char) : (lines cs).map trim = trimmed cs := by
  rw [lines, trimmed, List.map_map]
  exact List.map_congr_left fun line _ => trim_stripLineEnd line

theorem splitInclusive_line {sep : Char} {line : List Char} (h : sep ∉ line) (rest : List Char) :
    splitInclusive sep (line ++ sep :: rest) = (line ++ [sep]) :: splitInclusive sep rest := by
  induction line with
  | nil => rw [List.nil_append, splitInclusive, if_pos rfl, List.nil_append]
  | cons c line ih =>
    rw [List.mem_cons, not_or] at h
    obtain ⟨hc, hline⟩ := h
    rw [List.cons_append, splitInclusive, if_neg (Ne.symm hc), ih hline]
    rfl

/-- A text without line feeds is one line. -/
theorem lines_line {line : List Char} (h : '\n' ∉ line) :
    lines (line ++ ['\n']) = [stripLineEnd (line ++ ['\n'])] := by
  rw [lines, splitInclusive_line h]
  rfl

/-- After a separator the text may be cut. -/
theorem splitInclusive_append (sep : Char) (cs rest : List Char) :
    splitInclusive sep (cs ++ sep :: rest) =
      splitInclusive sep (cs ++ [sep]) ++ splitInclusive sep rest := by
  induction cs with
  | nil => simp [splitInclusive]
  | cons c cs ih =>
    rw [List.cons_append, List.cons_append, splitInclusive, splitInclusive, ih]
    by_cases hc : c = sep
    · rw [if_pos hc, if_pos hc, List.cons_append]
    · rw [if_neg hc, if_neg hc]
      cases hpieces : splitInclusive sep (cs ++ [sep]) with
      | nil =>
        cases cs with
        | nil => simp [splitInclusive] at hpieces
        | cons d cs =>
          rw [List.cons_append, splitInclusive] at hpieces
          split at hpieces
          · cases hpieces
          · split at hpieces <;> cases hpieces
      | cons piece pieces => rfl

theorem trimmed_append (cs rest : List Char) :
    trimmed (cs ++ '\n' :: rest) = trimmed (cs ++ ['\n']) ++ trimmed rest := by
  rw [trimmed, splitInclusive_append, List.map_append]
  rfl

theorem trimmed_line {line : List Char} (h : '\n' ∉ line) (rest : List Char) :
    trimmed (line ++ '\n' :: rest) = trim line :: trimmed rest := by
  rw [trimmed, splitInclusive_line h, List.map_cons, trim_append_whitespace (by decide)]
  rfl

/-- The lines of a text whose lines are given. -/
theorem trimmed_flatMap {α : Type} {print : α → List Char} {items : List α}
    (h : ∀ item ∈ items, '\n' ∉ print item) :
    trimmed (items.flatMap fun item => print item ++ ['\n']) =
      items.map fun item => trim (print item) := by
  induction items with
  | nil => rfl
  | cons item items ih =>
    rw [List.flatMap_cons, List.append_assoc, List.singleton_append,
      trimmed_line (h item List.mem_cons_self),
      ih fun other hmem => h other (List.mem_cons_of_mem _ hmem)]
    rfl

/-- Lines that are given, before other text. -/
theorem trimmed_flatMap_append {items : List (List Char)} (h : ∀ item ∈ items, '\n' ∉ item)
    (rest : List Char) :
    trimmed (items.flatMap (· ++ ['\n']) ++ rest) = items.map trim ++ trimmed rest := by
  induction items with
  | nil => rfl
  | cons item items ih =>
    obtain ⟨hitem, hitems⟩ := List.forall_mem_cons.mp h
    rw [List.flatMap_cons, List.append_assoc, List.append_assoc, List.singleton_append,
      trimmed_line hitem, ih hitems, List.map_cons, List.cons_append]

/-- A separator at the end belongs to the last piece. -/
theorem splitInclusive_terminate {sep : Char} {cs : List Char} (hne : cs ≠ [])
    (hlast : cs.getLast? ≠ some sep) :
    ∃ pieces last, splitInclusive sep cs = pieces ++ [last] ∧
      splitInclusive sep (cs ++ [sep]) = pieces ++ [last ++ [sep]] := by
  induction cs with
  | nil => exact absurd rfl hne
  | cons c cs ih =>
    rw [List.cons_append, splitInclusive, splitInclusive]
    cases cs with
    | nil =>
      have hc : c ≠ sep := fun heq => hlast (by rw [heq]; rfl)
      rw [if_neg hc, if_neg hc]
      exact ⟨[], [c], rfl, by simp [splitInclusive]⟩
    | cons d cs =>
      rw [List.getLast?_cons_cons] at hlast
      obtain ⟨pieces, last, hpieces, hterminated⟩ := ih (List.cons_ne_nil _ _) hlast
      rw [hpieces, hterminated]
      by_cases hc : c = sep
      · rw [if_pos hc, if_pos hc]
        exact ⟨[c] :: pieces, last, rfl, rfl⟩
      · rw [if_neg hc, if_neg hc]
        cases pieces with
        | nil => exact ⟨[], c :: last, rfl, rfl⟩
        | cons piece pieces => exact ⟨(c :: piece) :: pieces, last, rfl, rfl⟩

/-- The line feed at the end of a text that is not empty may be missing. -/
theorem trimmed_terminate {cs : List Char} (hne : cs ≠ []) (hlast : cs.getLast? ≠ some '\n') :
    trimmed (cs ++ ['\n']) = trimmed cs := by
  obtain ⟨pieces, last, hpieces, hterminated⟩ := splitInclusive_terminate hne hlast
  rw [trimmed, trimmed, hpieces, hterminated, List.map_append, List.map_append]
  rw [List.map_singleton, List.map_singleton, trim_append_whitespace (by decide)]

theorem splitInclusive_body {sep : Char} {cs piece : List Char} (h : piece ∈ splitInclusive sep cs) :
    ∃ body, sep ∉ body ∧ (piece = body ++ [sep] ∨ piece = body) := by
  induction cs generalizing piece with
  | nil => cases h
  | cons c cs ih =>
    rw [splitInclusive] at h
    by_cases hc : c = sep
    · rw [if_pos hc, List.mem_cons] at h
      rcases h with rfl | h
      · exact ⟨[], List.not_mem_nil, .inl (by rw [hc]; rfl)⟩
      · exact ih h
    · rw [if_neg hc] at h
      cases hpieces : splitInclusive sep cs with
      | nil =>
        rw [hpieces, List.mem_singleton] at h
        exact ⟨[c], by simpa using Ne.symm hc, .inr h⟩
      | cons first pieces =>
        rw [hpieces] at h ih
        rcases List.mem_cons.mp h with rfl | h
        · obtain ⟨body, hbody, hfirst⟩ := ih List.mem_cons_self
          refine ⟨c :: body, by simp [Ne.symm hc, hbody], ?_⟩
          exact hfirst.imp (fun heq => by rw [heq]; rfl) (fun heq => by rw [heq])
        · exact ih (List.mem_cons_of_mem _ h)

theorem notMem_trimmed {cs line : List Char} (h : line ∈ trimmed cs) : '\n' ∉ line := by
  obtain ⟨piece, hpiece, rfl⟩ := List.mem_map.mp h
  obtain ⟨body, hbody, rfl | rfl⟩ := splitInclusive_body hpiece
  · rw [trim_append_whitespace (by decide)]
    exact fun hmem => hbody (mem_of_mem_trim hmem)
  · exact fun hmem => hbody (mem_of_mem_trim hmem)

/-! ## Texts that are rewritten line by line -/

theorem splitInclusive_ne_nil {sep : Char} {cs : List Char} (h : cs ≠ []) :
    splitInclusive sep cs ≠ [] := by
  cases cs with
  | nil => exact absurd rfl h
  | cons c cs =>
    rw [splitInclusive]
    split
    · exact List.cons_ne_nil _ _
    · split <;> exact List.cons_ne_nil _ _

theorem flatten_splitInclusive (sep : Char) (cs : List Char) : (splitInclusive sep cs).flatten = cs := by
  induction cs with
  | nil => rfl
  | cons c cs ih =>
    rw [splitInclusive]
    by_cases hc : c = sep
    · rw [if_pos hc, List.flatten_cons, ih]
      rfl
    · rw [if_neg hc]
      cases hpieces : splitInclusive sep cs with
      | nil =>
        rw [hpieces] at ih
        rw [← ih]
        rfl
      | cons piece pieces =>
        rw [hpieces] at ih
        rw [← ih]
        rfl

theorem splitInclusive_flatten {sep : Char} {pieces : List (List Char)}
    (h : ∀ piece ∈ pieces, ∃ body, piece = body ++ [sep] ∧ sep ∉ body) :
    splitInclusive sep pieces.flatten = pieces := by
  induction pieces with
  | nil => rfl
  | cons piece pieces ih =>
    obtain ⟨body, hpiece, hbody⟩ := h piece List.mem_cons_self
    rw [List.flatten_cons, hpiece, List.append_assoc, List.singleton_append,
      splitInclusive_line hbody, ih fun other hother => h other (List.mem_cons_of_mem _ hother)]

/-- Every piece of a text that ends with a separator does so. -/
theorem splitInclusive_ends {sep : Char} {cs piece : List Char}
    (h : piece ∈ splitInclusive sep (cs ++ [sep])) : ∃ body, piece = body ++ [sep] ∧ sep ∉ body := by
  induction cs generalizing piece with
  | nil =>
    simp only [List.nil_append, splitInclusive, if_true, List.mem_singleton] at h
    exact ⟨[], h, List.not_mem_nil⟩
  | cons c cs ih =>
    rw [List.cons_append, splitInclusive] at h
    by_cases hc : c = sep
    · rw [if_pos hc, List.mem_cons] at h
      rcases h with rfl | h
      · exact ⟨[], by rw [hc]; rfl, List.not_mem_nil⟩
      · exact ih h
    · rw [if_neg hc] at h
      cases hpieces : splitInclusive sep (cs ++ [sep]) with
      | nil => exact absurd hpieces (splitInclusive_ne_nil (by simp))
      | cons first pieces =>
        rw [hpieces] at h ih
        rcases List.mem_cons.mp h with rfl | h
        · obtain ⟨body, hfirst, hbody⟩ := ih List.mem_cons_self
          exact ⟨c :: body, by rw [hfirst]; rfl, by simp [Ne.symm hc, hbody]⟩
        · exact ih (List.mem_cons_of_mem _ h)

section
variable {α β : Type} {print : α → List Char}

theorem splitInclusive_flatMap (sep : Char) (items : List α) :
    splitInclusive sep (items.flatMap fun item => print item ++ [sep]) =
      items.flatMap fun item => splitInclusive sep (print item ++ [sep]) := by
  induction items with
  | nil => rfl
  | cons item items ih =>
    rw [List.flatMap_cons, List.flatMap_cons, List.append_assoc, List.singleton_append,
      splitInclusive_append, ih]

/-- The lines of a text of items are those of each. -/
theorem mem_lines_flatMap {items : List α} {line : List Char} :
    line ∈ lines (items.flatMap fun item => print item ++ ['\n']) ↔
      ∃ item ∈ items, line ∈ lines (print item ++ ['\n']) := by
  simp only [lines, splitInclusive_flatMap, List.map_flatMap, List.mem_flatMap]

/-- Items that give a piece or more each, and as many pieces as items, give one. -/
theorem length_flatMap_eq {pieces : α → List β} {items : List α}
    (hone : ∀ item ∈ items, pieces item ≠ [])
    (hlength : (items.flatMap pieces).length ≤ items.length) :
    ∀ item ∈ items, (pieces item).length = 1 := by
  have hlower (items : List α) (hone : ∀ item ∈ items, pieces item ≠ []) :
      items.length ≤ (items.flatMap pieces).length := by
    induction items with
    | nil => exact Nat.le_refl _
    | cons item items ih =>
      have hitem := List.length_pos_iff.mpr (hone item List.mem_cons_self)
      have hrest := ih fun other hother => hone other (List.mem_cons_of_mem _ hother)
      rw [List.flatMap_cons, List.length_append, List.length_cons]
      omega
  induction items with
  | nil => exact fun _ h => absurd h List.not_mem_nil
  | cons item items ih =>
    have hitem := List.length_pos_iff.mpr (hone item List.mem_cons_self)
    have hne : ∀ other ∈ items, pieces other ≠ [] :=
      fun other hother => hone other (List.mem_cons_of_mem _ hother)
    have hrest := hlower items hne
    rw [List.flatMap_cons, List.length_append, List.length_cons] at hlength
    intro other hother
    rcases List.mem_cons.mp hother with rfl | hother
    · omega
    · exact ih hne (by omega) other hother

/-- A text of one line for each item, rewritten line by line, reads back as the
items' values exactly if every line does and no item prints a line feed. -/
theorem read_lines_iff {rewrite : List Char → Option (List Char)} {read : List Char → Option β}
    {value : α → β} {items : List α}
    (hrewrite : ∀ line out, '\n' ∉ line → rewrite (line ++ ['\n']) = some out →
      ∃ body, out = body ++ ['\n'] ∧ '\n' ∉ body) :
    ((((splitInclusive '\n' (items.flatMap fun item => print item ++ ['\n'])).mapM rewrite).map
        List.flatten).bind fun text => (lines text).mapM read) = some (items.map value) ↔
      ∀ item ∈ items, '\n' ∉ print item ∧
        ((rewrite (print item ++ ['\n'])).bind fun line => read (stripLineEnd line)) =
          some (value item) := by
  have hlines {out : List (List Char)}
      (hout : (splitInclusive '\n' (items.flatMap fun item => print item ++ ['\n'])).mapM rewrite =
        some out) : lines out.flatten = out.map stripLineEnd := by
    rw [lines, splitInclusive_flatten]
    intro piece hpiece
    obtain ⟨line, hline, hrewritten⟩ := Traverse.mem_of_mapM hout hpiece
    rw [splitInclusive_flatMap, List.mem_flatMap] at hline
    obtain ⟨item, -, hline⟩ := hline
    obtain ⟨body, rfl, hbody⟩ := splitInclusive_ends hline
    exact hrewrite body piece hbody hrewritten
  have hsingle (hfeed : ∀ item ∈ items, '\n' ∉ print item) :
      (splitInclusive '\n' (items.flatMap fun item => print item ++ ['\n'])) =
        items.map fun item => print item ++ ['\n'] := by
    rw [splitInclusive_flatMap, ← List.flatMap_singleton' (items.map _), List.flatMap_map]
    refine List.flatMap_congr fun item hitem => ?_
    have hline := splitInclusive_line (hfeed item hitem) []
    simpa [splitInclusive] using hline
  have haligned (hfeed : ∀ item ∈ items, '\n' ∉ print item) :
      ((((splitInclusive '\n' (items.flatMap fun item => print item ++ ['\n'])).mapM rewrite).map
        List.flatten).bind fun text => (lines text).mapM read) =
        items.mapM fun item =>
          (rewrite (print item ++ ['\n'])).bind fun line => read (stripLineEnd line) := by
    have hbind := Traverse.mapM_bind rewrite (fun line => read (stripLineEnd line))
      (items.map fun item => print item ++ ['\n'])
    have hmap : (items.map fun item => print item ++ ['\n']).mapM
        (fun line => (rewrite line).bind fun line => read (stripLineEnd line)) =
          items.mapM fun item =>
            (rewrite (print item ++ ['\n'])).bind fun line => read (stripLineEnd line) :=
      List.mapM_map
    rw [← hmap, ← hbind, ← hsingle hfeed]
    cases hout : (splitInclusive '\n' (items.flatMap fun item => print item ++ ['\n'])).mapM
        rewrite with
    | none => rfl
    | some out =>
      rw [Option.map_some, Option.bind_some, Option.bind_some, hlines hout, List.mapM_map]
      rfl
  constructor
  · intro h
    have hfeed : ∀ item ∈ items, '\n' ∉ print item := by
      simp only [Option.bind_eq_some_iff, Option.map_eq_some_iff] at h
      obtain ⟨text, ⟨out, hout, rfl⟩, hread⟩ := h
      have hcount := Traverse.length_of_mapM hread
      have hsame := Traverse.length_of_mapM hout
      rw [hlines hout, List.length_map, List.length_map] at hcount
      rw [splitInclusive_flatMap] at hsame
      have hne : ∀ item ∈ items, splitInclusive '\n' (print item ++ ['\n']) ≠ [] :=
        fun item _ => splitInclusive_ne_nil (by simp)
      have hone := length_flatMap_eq hne (by omega)
      intro item hitem
      obtain ⟨piece, hpiece⟩ := List.length_eq_one_iff.mp (hone item hitem)
      have hmem : piece ∈ splitInclusive '\n' (print item ++ ['\n']) := by
        rw [hpiece]
        exact List.mem_singleton_self piece
      obtain ⟨body, hbody, hfeed⟩ := splitInclusive_ends hmem
      have hwhole := flatten_splitInclusive '\n' (print item ++ ['\n'])
      rw [hpiece, List.flatten_singleton, hbody] at hwhole
      rwa [← List.append_cancel_right hwhole]
    rw [haligned hfeed, Traverse.mapM_eq_some_map] at h
    exact fun item hitem => ⟨hfeed item hitem, h item hitem⟩
  · intro h
    rw [haligned fun item hitem => (h item hitem).1, Traverse.mapM_eq_some_map]
    exact fun item hitem => (h item hitem).2

end

end Text
