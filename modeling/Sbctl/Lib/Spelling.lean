import Sbctl.Lib.Text

/-!
# Spelling numbers and splitting text

A number has one plain spelling, the one that is printed. The parser of
unsigned numbers also reads a plus sign and leading zeros.

* `parseUnsigned_toDigits`: a printed number reads back;
* `plain_iff`: what reads as a number is its printed form if it is plain;
* `join_splitChar`, `splitChar_injective`: the pieces determine the text.
-/

namespace Text

/-! ## Splitting -/

section
variable {sep : Char} {cs piece : List Char}

theorem splitChar_ne_nil (sep : Char) (cs : List Char) : splitChar sep cs ≠ [] := by
  cases cs with
  | nil => exact List.cons_ne_nil _ _
  | cons c cs =>
    rw [splitChar]
    split
    · exact List.cons_ne_nil _ _
    · split <;> exact List.cons_ne_nil _ _

theorem splitChar_of_notMem (h : sep ∉ cs) : splitChar sep cs = [cs] := by
  induction cs with
  | nil => rfl
  | cons c cs ih =>
    rw [List.mem_cons, not_or] at h
    obtain ⟨hc, hcs⟩ := h
    rw [splitChar, if_neg (Ne.symm hc), ih hcs]

theorem splitChar_append (h : sep ∉ piece) (rest : List Char) :
    splitChar sep (piece ++ sep :: rest) = piece :: splitChar sep rest := by
  induction piece with
  | nil => rw [List.nil_append, splitChar, if_pos rfl]
  | cons c piece ih =>
    rw [List.mem_cons, not_or] at h
    obtain ⟨hc, hpiece⟩ := h
    rw [List.cons_append, splitChar, if_neg (Ne.symm hc), ih hpiece]

/-- The pieces with the separator between them. -/
def join (sep : Char) : List (List Char) → List Char
  | [] => []
  | [piece] => piece
  | piece :: pieces => piece ++ sep :: join sep pieces

theorem join_splitChar (sep : Char) (cs : List Char) : join sep (splitChar sep cs) = cs := by
  induction cs with
  | nil => rfl
  | cons c cs ih =>
    rw [splitChar]
    split
    · rename_i hc
      cases hsplit : splitChar sep cs with
      | nil => exact absurd hsplit (splitChar_ne_nil sep cs)
      | cons piece pieces =>
        rw [hsplit] at ih
        rw [join, List.nil_append, ih, hc]
        simp
    · cases hsplit : splitChar sep cs with
      | nil => exact absurd hsplit (splitChar_ne_nil sep cs)
      | cons piece pieces =>
        rw [hsplit] at ih
        cases pieces with
        | nil => rw [← ih, join, join]
        | cons next pieces =>
          rw [← ih]
          rfl

theorem mem_join {pieces : List (List Char)} {c : Char} (h : c ∈ join sep pieces) :
    c = sep ∨ ∃ piece ∈ pieces, c ∈ piece := by
  induction pieces with
  | nil => cases h
  | cons piece pieces ih =>
    cases pieces with
    | nil => exact .inr ⟨piece, List.mem_singleton_self piece, h⟩
    | cons next pieces =>
      rw [join, List.mem_append, List.mem_cons] at h
      · rcases h with h | rfl | h
        · exact .inr ⟨piece, List.mem_cons_self, h⟩
        · exact .inl rfl
        · rcases ih h with rfl | ⟨other, hother, hc⟩
          · exact .inl rfl
          · exact .inr ⟨other, List.mem_cons_of_mem _ hother, hc⟩
      · exact List.cons_ne_nil _ _

theorem splitChar_injective {ds : List Char} (h : splitChar sep cs = splitChar sep ds) : cs = ds := by
  rw [← join_splitChar sep cs, h, join_splitChar]

theorem notMem_splitChar (h : piece ∈ splitChar sep cs) : sep ∉ piece := by
  induction cs generalizing piece with
  | nil =>
    rw [List.mem_singleton.mp h]
    exact List.not_mem_nil
  | cons c cs ih =>
    rw [splitChar] at h
    split at h
    · rcases List.mem_cons.mp h with rfl | h
      · exact List.not_mem_nil
      · exact ih h
    · rename_i hc
      cases hsplit : splitChar sep cs with
      | nil => exact absurd hsplit (splitChar_ne_nil sep cs)
      | cons first pieces =>
        rw [hsplit] at h ih
        rcases List.mem_cons.mp h with rfl | h
        · rw [List.mem_cons, not_or]
          exact ⟨Ne.symm hc, ih List.mem_cons_self⟩
        · exact ih (List.mem_cons_of_mem _ h)

end

theorem splitChar_join {pieces : List (List Char)} (hne : pieces ≠ [])
    (h : ∀ piece ∈ pieces, sep ∉ piece) : splitChar sep (join sep pieces) = pieces := by
  induction pieces with
  | nil => exact absurd rfl hne
  | cons piece pieces ih =>
    have hpiece := h piece List.mem_cons_self
    cases pieces with
    | nil => exact splitChar_of_notMem hpiece
    | cons next pieces =>
      rw [join, splitChar_append hpiece,
        ih (List.cons_ne_nil _ _) fun other hmem => h other (List.mem_cons_of_mem _ hmem)]
      exact List.cons_ne_nil _ _

/-- The text before the first separator, and after it. -/
def splitOnce (sep : Char) : List Char → Option (List Char × List Char)
  | [] => none
  | c :: cs =>
    if c = sep then some ([], cs)
    else (splitOnce sep cs).map fun (before, after) => (c :: before, after)

/-- The text before the last separator, and after it. -/
def rsplitOnce (sep : Char) (cs : List Char) : Option (List Char × List Char) :=
  (splitOnce sep cs.reverse).map fun (after, before) => (before.reverse, after.reverse)

theorem splitOnce_append {sep : Char} {piece : List Char} (h : sep ∉ piece) (rest : List Char) :
    splitOnce sep (piece ++ sep :: rest) = some (piece, rest) := by
  induction piece with
  | nil => rw [List.nil_append, splitOnce, if_pos rfl]
  | cons c piece ih =>
    rw [List.mem_cons, not_or] at h
    obtain ⟨hc, hpiece⟩ := h
    rw [List.cons_append, splitOnce, if_neg (Ne.symm hc), ih hpiece]
    rfl

theorem splitOnce_eq_some {sep : Char} {cs before after : List Char}
    (h : splitOnce sep cs = some (before, after)) : sep ∉ before ∧ cs = before ++ sep :: after := by
  induction cs generalizing before with
  | nil => cases h
  | cons c cs ih =>
    rw [splitOnce] at h
    split at h
    · rename_i hc
      cases h
      exact ⟨List.not_mem_nil, by rw [hc]; rfl⟩
    · rename_i hc
      obtain ⟨⟨head, tail⟩, hsplit, heq⟩ := Option.map_eq_some_iff.mp h
      cases heq
      obtain ⟨hnotin, hcs⟩ := ih hsplit
      exact ⟨by simp [Ne.symm hc, hnotin], by rw [hcs]; rfl⟩

theorem splitOnce_eq_none {sep : Char} {cs : List Char} : splitOnce sep cs = none ↔ sep ∉ cs := by
  constructor
  · intro h hmem
    induction cs with
    | nil => cases hmem
    | cons c cs ih =>
      rw [splitOnce] at h
      split at h
      · cases h
      · rename_i hc
        rw [Option.map_eq_none_iff] at h
        rcases List.mem_cons.mp hmem with rfl | hmem
        · exact hc rfl
        · exact ih h hmem
  · intro h
    cases hsplit : splitOnce sep cs with
    | none => rfl
    | some pair =>
      obtain ⟨before, after⟩ := pair
      have hcs := (splitOnce_eq_some hsplit).2
      rw [hcs] at h
      simp at h

theorem rsplitOnce_append {sep : Char} {after : List Char} (h : sep ∉ after) (before : List Char) :
    rsplitOnce sep (before ++ sep :: after) = some (before, after) := by
  have hreverse : sep ∉ after.reverse := fun hmem => h (List.mem_reverse.mp hmem)
  have hcs : (before ++ sep :: after).reverse = after.reverse ++ sep :: before.reverse := by simp
  rw [rsplitOnce, hcs, splitOnce_append hreverse]
  simp only [Option.map_some, List.reverse_reverse]

theorem rsplitOnce_eq_some {sep : Char} {cs before after : List Char}
    (h : rsplitOnce sep cs = some (before, after)) : cs = before ++ sep :: after := by
  obtain ⟨⟨tail, head⟩, hsplit, heq⟩ := Option.map_eq_some_iff.mp h
  cases heq
  have hcs := (splitOnce_eq_some hsplit).2
  rw [← List.reverse_reverse cs, hcs]
  simp

section
variable {sep : Char}

/-- The first separators of two texts that begin alike are the same one. -/
theorem prefix_aligned {a b c d : List Char} (hpre : a ++ sep :: b <+: c ++ sep :: d) (ha : sep ∉ a)
    (hc : sep ∉ c) : a = c ∧ b <+: d := by
  obtain ⟨tail, htail⟩ := hpre
  rw [List.append_assoc, List.cons_append] at htail
  have hsplit := splitOnce_append ha (b ++ tail)
  rw [htail, splitOnce_append hc] at hsplit
  cases hsplit
  exact ⟨rfl, tail, rfl⟩

/-- Text without a separator that ends at one begins any text that ends at one. -/
theorem prefix_of_notMem {a c d : List Char} (hpre : a ++ [sep] <+: c ++ sep :: d) (ha : sep ∉ a) :
    a <+: c := by
  induction a generalizing c with
  | nil => exact List.nil_prefix
  | cons x a ih =>
    rw [List.mem_cons, not_or] at ha
    obtain ⟨hx, ha⟩ := ha
    cases c with
    | nil =>
      obtain ⟨tail, htail⟩ := hpre
      simp only [List.cons_append, List.nil_append, List.cons.injEq] at htail
      exact absurd htail.1.symm hx
    | cons y c =>
      rw [List.cons_append, List.cons_append, List.cons_prefix_cons] at hpre
      obtain ⟨rfl, hpre⟩ := hpre
      exact List.cons_prefix_cons.mpr ⟨rfl, ih hpre ha⟩

end

/-- Two texts that begin alike cannot reach different separators first. -/
theorem separators_clash {s t : Char} {a b c d : List Char} (hpre : a ++ s :: b <+: c ++ t :: d)
    (ha : t ∉ a) (hc : s ∉ c) (hne : s ≠ t) : False := by
  induction a generalizing c with
  | nil =>
    cases c with
    | nil => exact hne (List.cons_prefix_cons.mp hpre).1
    | cons y c =>
      have := (List.cons_prefix_cons.mp hpre).1
      exact hc (by rw [this]; exact List.mem_cons_self)
  | cons x a ih =>
    rw [List.mem_cons, not_or] at ha
    cases c with
    | nil => exact ha.1 (List.cons_prefix_cons.mp hpre).1.symm
    | cons y c =>
      rw [List.mem_cons, not_or] at hc
      exact ih (List.cons_prefix_cons.mp hpre).2 ha.2 hc.2

theorem mem_of_mem_splitChar {sep c : Char} {cs piece : List Char} (hpiece : piece ∈ splitChar sep cs)
    (hc : c ∈ piece) : c ∈ cs := by
  induction cs generalizing piece with
  | nil =>
    rw [List.mem_singleton.mp hpiece] at hc
    exact hc
  | cons d cs ih =>
    rw [splitChar] at hpiece
    split at hpiece
    · rcases List.mem_cons.mp hpiece with rfl | hpiece
      · cases hc
      · exact List.mem_cons_of_mem _ (ih hpiece hc)
    · cases hsplit : splitChar sep cs with
      | nil => exact absurd hsplit (splitChar_ne_nil sep cs)
      | cons first pieces =>
        rw [hsplit] at hpiece ih
        rcases List.mem_cons.mp hpiece with rfl | hpiece
        · rcases List.mem_cons.mp hc with rfl | hc
          · exact List.mem_cons_self
          · exact List.mem_cons_of_mem _ (ih List.mem_cons_self hc)
        · exact List.mem_cons_of_mem _ (ih (List.mem_cons_of_mem _ hpiece) hc)

/-! ## Prefixes and suffixes -/

theorem stripPrefix_eq_some {pre cs rest : List Char} :
    stripPrefix pre cs = some rest ↔ cs = pre ++ rest := by
  induction pre generalizing cs with
  | nil => simp [stripPrefix]
  | cons p pre ih =>
    cases cs with
    | nil => simp [stripPrefix]
    | cons c cs =>
      by_cases h : p = c
      · simp [stripPrefix, h, ih]
      · simp [stripPrefix, h, Ne.symm h]

theorem stripPrefix_append (pre rest : List Char) : stripPrefix pre (pre ++ rest) = some rest :=
  stripPrefix_eq_some.mpr rfl

/-! ## Decimal numbers -/

theorem digitValue_eq_some {c : Char} {d : Nat} (h : digitValue c = some d) :
    d < 10 ∧ Nat.digitChar d = c := by
  unfold digitValue at h
  split at h
  · rename_i hc
    have hlow : 48 ≤ c.toNat := le_iff_toNat_le.mp hc.1
    have hhigh : c.toNat ≤ 57 := le_iff_toNat_le.mp hc.2
    have hzero : '0'.toNat = 48 := rfl
    rw [Option.some.injEq, hzero] at h
    have hd : d < 10 := by omega
    refine ⟨hd, Char.toNat_inj.mp ?_⟩
    rw [Nat.toNat_digitChar_of_lt_ten hd]
    omega
  · cases h

theorem digitValue_digitChar {d : Nat} (h : d < 10) : digitValue (Nat.digitChar d) = some d := by
  have hdigit := Nat.toNat_digitChar_of_lt_ten h
  have hnine : '9'.toNat = 57 := rfl
  have hzero : '0'.toNat = 48 := rfl
  rw [digitValue, if_pos ⟨le_iff_toNat_le.mpr (by omega), le_iff_toNat_le.mpr (by omega)⟩, hdigit,
    hzero]
  congr 1
  omega

theorem digitsFrom_append (n : Nat) (cs ds : List Char) :
    digitsFrom n (cs ++ ds) = (digitsFrom n cs).bind fun m => digitsFrom m ds := by
  induction cs generalizing n with
  | nil => rfl
  | cons c cs ih =>
    rw [List.cons_append, digitsFrom, digitsFrom]
    cases digitValue c with
    | none => rfl
    | some d => exact ih _

/-- A printed number reads back. -/
theorem digitsFrom_toDigits (n : Nat) : digitsFrom 0 (Nat.toDigits 10 n) = some n := by
  induction n using Nat.strongRecOn with
  | ind n ih =>
    rw [Nat.toDigits_eq_if (by decide)]
    split
    · rename_i hlt
      simp [digitsFrom, digitValue_digitChar hlt]
    · have hmod : n % 10 < 10 := Nat.mod_lt _ (by decide)
      rw [digitsFrom_append, ih (n / 10) (by omega)]
      simp only [Option.bind_some, digitsFrom, digitValue_digitChar hmod]
      congr 1
      omega

/-- Digits after a number that is not zero print with it. -/
theorem toDigits_of_digitsFrom {cs : List Char} {m n : Nat} (hm : 0 < m)
    (h : digitsFrom m cs = some n) : Nat.toDigits 10 m ++ cs = Nat.toDigits 10 n := by
  induction cs generalizing m with
  | nil =>
    rw [digitsFrom, Option.some.injEq] at h
    rw [h, List.append_nil]
  | cons c cs ih =>
    rw [digitsFrom] at h
    cases hd : digitValue c with
    | none =>
      rw [hd] at h
      cases h
    | some d =>
      rw [hd] at h
      obtain ⟨hlt, hchar⟩ := digitValue_eq_some hd
      have hnext := ih (Nat.add_pos_left (Nat.mul_pos (by decide) hm) d) h
      have happend := Nat.toDigits_append_toDigits (b := 10) (by decide) hm hlt
      rw [Nat.toDigits_of_lt_base hlt, hchar] at happend
      rw [← hnext, ← happend, List.append_assoc]
      rfl

/-- No sign, and no zero before other digits. -/
def plainNumber (cs : List Char) : Prop := cs.head? ≠ some '+' ∧ (cs.head? = some '0' → cs = ['0'])

instance (cs : List Char) : Decidable (plainNumber cs) := by unfold plainNumber; infer_instance

theorem isDigit_of_mem {n : Nat} {c : Char} (h : c ∈ Nat.toDigits 10 n) : c.isDigit :=
  Nat.isDigit_of_mem_toDigits (by decide) (by decide) h

theorem notMem_toDigits {n : Nat} {c : Char} (h : c.isDigit = false) : c ∉ Nat.toDigits 10 n :=
  fun hmem => by simp [isDigit_of_mem hmem] at h

theorem plainNumber_toDigits (n : Nat) : plainNumber (Nat.toDigits 10 n) := by
  refine ⟨fun h => ?_, fun h => ?_⟩
  · have hmem := List.mem_of_mem_head? h
    exact absurd (isDigit_of_mem hmem) (by decide)
  · -- a number that begins with a zero digit is a single digit
    induction n using Nat.strongRecOn with
    | ind n ih =>
      rw [Nat.toDigits_eq_if (by decide)] at h ⊢
      split at h
      · rename_i hlt
        rw [if_pos hlt]
        simpa using h
      · rename_i hge
        rw [if_neg hge]
        have hhead : (Nat.toDigits 10 (n / 10)).head? = some '0' := by
          rwa [List.head?_append_of_ne_nil _ Nat.toDigits_ne_nil] at h
        have hzero := ih (n / 10) (by omega) hhead
        have hread := digitsFrom_toDigits (n / 10)
        rw [hzero] at hread
        have : n / 10 = 0 := (Option.some.inj hread).symm
        omega

theorem parseUnsigned_toDigits {bound n : Nat} (h : n ≤ bound) :
    parseUnsigned bound (Nat.toDigits 10 n) = some n := by
  have hplain := (plainNumber_toDigits n).1
  have hread := digitsFrom_toDigits n
  have hne : Nat.toDigits 10 n ≠ [] := Nat.toDigits_ne_nil
  unfold parseUnsigned
  split
  · rename_i heq
    rw [heq] at hplain
    exact absurd rfl hplain
  · simp [hne, hread, h, Option.filter]

/-- What reads as a number is its printed form exactly if it is plain. -/
theorem plain_iff {bound n : Nat} {cs : List Char} (h : parseUnsigned bound cs = some n) :
    cs = Nat.toDigits 10 n ↔ plainNumber cs := by
  constructor
  · rintro rfl
    exact plainNumber_toDigits n
  · rintro ⟨hsign, hzero⟩
    unfold parseUnsigned at h
    split at h
    · exact absurd rfl hsign
    · rename_i heq
      dsimp only at h
      split at h
      · cases h
      · obtain ⟨hread, -⟩ := Option.filter_eq_some_iff.mp h
        cases cs with
        | nil => simp at *
        | cons c cs =>
          by_cases hc : c = '0'
          · subst hc
            have hall := hzero rfl
            rw [hall] at hread ⊢
            rw [← Option.some.inj hread]
            rfl
          · rw [digitsFrom] at hread
            cases hd : digitValue c with
            | none =>
              rw [hd] at hread
              cases hread
            | some d =>
              obtain ⟨hlt, hchar⟩ := digitValue_eq_some hd
              have hpos : 0 < d := by
                rcases Nat.eq_zero_or_pos d with rfl | hpos
                · exact absurd hchar.symm hc
                · exact hpos
              rw [hd] at hread
              have hrest := toDigits_of_digitsFrom (by omega) hread
              rw [Nat.mul_zero, Nat.zero_add, Nat.toDigits_of_lt_base hlt, hchar] at hrest
              exact hrest

end Text
