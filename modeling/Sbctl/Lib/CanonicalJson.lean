import Sbctl.Lib.JsonText
import Sbctl.Lib.KeyOrder

/-!
# JSON values up to the order of keys

Whether an object keeps its entries in order is up to the map behind it. Sorting
the keys at every depth leaves one value for all orders.

* `canonical_eq_iff`: two values have one canonical form exactly where one is
  the other with its entries in another order;
* `print_canonical_inj`: the text of the canonical form determines it.
-/

namespace Json

open KeyOrder

mutual

/-- The value with the keys of every object in order. -/
def canonical : Json → Json
  | .arr items => .arr (canonicalItems items)
  | .obj entries => .obj (sortKeys (canonicalEntries entries))
  | .null => .null
  | .bool b => .bool b
  | .num n => .num n
  | .str s => .str s

def canonicalItems : List Json → List Json
  | [] => []
  | v :: vs => canonical v :: canonicalItems vs

def canonicalEntries : List (String × Json) → List (String × Json)
  | [] => []
  | (k, v) :: es => (k, canonical v) :: canonicalEntries es

end

theorem canonicalItems_eq (items : List Json) : canonicalItems items = items.map canonical := by
  induction items with
  | nil => rfl
  | cons v vs ih => rw [canonicalItems, ih, List.map_cons]

theorem canonicalEntries_eq (entries : List (String × Json)) :
    canonicalEntries entries = entries.map fun e => (e.1, canonical e.2) := by
  induction entries with
  | nil => rfl
  | cons e es ih => rw [canonicalEntries, ih, List.map_cons]

theorem canonicalEntries_keys (entries : List (String × Json)) :
    (canonicalEntries entries).map Prod.fst = entries.map Prod.fst := by
  rw [canonicalEntries_eq, List.map_map]
  rfl

/-- One value is the other with the entries of its objects in another order. -/
inductive Reorders : Json → Json → Prop
  | refl (v : Json) : Reorders v v
  | trans {u v w : Json} : Reorders u v → Reorders v w → Reorders u w
  | entries {es fs : List (String × Json)} : es.Perm fs → Reorders (.obj es) (.obj fs)
  | item {v w : Json} (before after : List Json) :
      Reorders v w → Reorders (.arr (before ++ v :: after)) (.arr (before ++ w :: after))
  | value {v w : Json} (before after : List (String × Json)) (k : String) :
      Reorders v w → Reorders (.obj (before ++ (k, v) :: after)) (.obj (before ++ (k, w) :: after))

theorem Reorders.symm {v w : Json} (h : Reorders v w) : Reorders w v := by
  induction h with
  | refl v => exact .refl v
  | trans _ _ ihFirst ihSecond => exact .trans ihSecond ihFirst
  | entries hperm => exact .entries hperm.symm
  | item before after _ ih => exact .item before after ih
  | value before after k _ ih => exact .value before after k ih

/-- All items may be reordered inside, one after the other. -/
theorem reorders_items {f : Json → Json} (before items : List Json)
    (h : ∀ v ∈ items, Reorders v (f v)) :
    Reorders (.arr (before ++ items)) (.arr (before ++ items.map f)) := by
  induction items generalizing before with
  | nil => exact .refl _
  | cons v vs ih =>
    have hfirst : Reorders (.arr (before ++ v :: vs)) (.arr (before ++ f v :: vs)) :=
      .item before vs (h v List.mem_cons_self)
    have hrest := ih (before ++ [f v]) fun u hu => h u (List.mem_cons_of_mem _ hu)
    simp only [List.append_assoc, List.singleton_append] at hrest
    exact .trans hfirst hrest

theorem reorders_values {f : Json → Json} (before entries : List (String × Json))
    (h : ∀ e ∈ entries, Reorders e.2 (f e.2)) :
    Reorders (.obj (before ++ entries)) (.obj (before ++ entries.map fun e => (e.1, f e.2))) := by
  induction entries generalizing before with
  | nil => exact .refl _
  | cons e es ih =>
    obtain ⟨k, v⟩ := e
    have hfirst : Reorders (.obj (before ++ (k, v) :: es)) (.obj (before ++ (k, f v) :: es)) :=
      .value before es k (h (k, v) List.mem_cons_self)
    have hrest := ih (before ++ [(k, f v)]) fun e he => h e (List.mem_cons_of_mem _ he)
    simp only [List.append_assoc, List.singleton_append] at hrest
    exact .trans hfirst hrest

theorem reorders_canonical (v : Json) : Reorders v (canonical v) := by
  induction v using induct with
  | null => exact .refl _
  | bool b => exact .refl _
  | num n => exact .refl _
  | str s => exact .refl _
  | arr items ih =>
    rw [canonical, canonicalItems_eq]
    exact reorders_items [] items ih
  | obj entries ih =>
    rw [canonical, canonicalEntries_eq]
    exact .trans (reorders_values [] entries ih) (.entries (sortKeys_perm _).symm)

/-- Reordering keeps keys distinct and ends in the same canonical form. -/
theorem Reorders.canonical_eq {v w : Json} (h : Reorders v w) (hv : WellFormed v) :
    WellFormed w ∧ canonical v = canonical w := by
  induction h with
  | refl v => exact ⟨hv, rfl⟩
  | trans _ _ ihFirst ihSecond =>
    obtain ⟨hmiddle, heq⟩ := ihFirst hv
    obtain ⟨hlast, heq'⟩ := ihSecond hmiddle
    exact ⟨hlast, heq.trans heq'⟩
  | @entries es fs hperm =>
    have hkeys : (es.map Prod.fst).Perm (fs.map Prod.fst) := hperm.map _
    refine ⟨.obj (hkeys.nodup_iff.mp hv.nodup) fun e he => hv.value (hperm.mem_iff.mpr he), ?_⟩
    rw [canonical, canonical]
    refine congrArg obj (sortKeys_eq_of_perm ?_ ?_)
    · rw [canonicalEntries_keys]
      exact hv.nodup
    · rw [canonicalEntries_eq, canonicalEntries_eq]
      exact hperm.map _
  | @item v w before after _ ih =>
    obtain ⟨hw, heq⟩ := ih (hv.item (by simp))
    constructor
    · refine .arr fun u hu => ?_
      rcases List.mem_append.mp hu with hu | hu
      · exact hv.item (List.mem_append_left _ hu)
      · rcases List.mem_cons.mp hu with rfl | hu
        · exact hw
        · exact hv.item (List.mem_append_right _ (List.mem_cons_of_mem _ hu))
    · rw [canonical, canonical, canonicalItems_eq, canonicalItems_eq]
      simp only [List.map_append, List.map_cons, heq]
  | @value v w before after k _ ih =>
    have hmem : (k, v) ∈ before ++ (k, v) :: after := by simp
    obtain ⟨hw, heq⟩ := ih (hv.value hmem)
    constructor
    · refine .obj ?_ fun e he => ?_
      · have hdistinct := hv.nodup
        simp only [List.map_append, List.map_cons] at hdistinct ⊢
        exact hdistinct
      · rcases List.mem_append.mp he with he | he
        · exact hv.value (List.mem_append_left _ he)
        · rcases List.mem_cons.mp he with rfl | he
          · exact hw
          · exact hv.value (List.mem_append_right _ (List.mem_cons_of_mem _ he))
    · rw [canonical, canonical, canonicalEntries_eq, canonicalEntries_eq]
      simp only [List.map_append, List.map_cons, heq]

theorem canonical_eq_iff {v w : Json} (hv : WellFormed v) :
    (WellFormed w ∧ canonical v = canonical w) ↔ Reorders v w := by
  constructor
  · rintro ⟨-, heq⟩
    exact .trans (reorders_canonical v) (heq ▸ (reorders_canonical w).symm)
  · exact fun h => h.canonical_eq hv

/-! ## The text -/

theorem compact_newline (depth : Nat) : compact.newline depth = [] := rfl

theorem compact_afterColon : compact.afterColon = [] := rfl

theorem printItems_compact {items : List Json} {depth : Nat}
    (h : ∀ v ∈ items, print compact depth v = print compact 0 v) :
    printItems compact depth items = [','].intercalate (items.map (print compact 0)) := by
  induction items with
  | nil => rfl
  | cons v vs ih =>
    have hv := h v List.mem_cons_self
    have hvs := ih fun u hu => h u (List.mem_cons_of_mem _ hu)
    cases vs with
    | nil => simp [printItems, compact_newline, List.intercalate, hv]
    | cons next vs =>
      rw [printItems, hvs, hv]
      · simp [compact_newline, List.intercalate]
      · exact List.cons_ne_nil _ _

theorem printEntries_compact {entries : List (String × Json)} {depth : Nat}
    (h : ∀ e ∈ entries, print compact depth e.2 = print compact 0 e.2) :
    printEntries compact depth entries =
      [','].intercalate (entries.map fun e => printString e.1 ++ ':' :: print compact 0 e.2) := by
  induction entries with
  | nil => rfl
  | cons e es ih =>
    obtain ⟨k, v⟩ := e
    have hv : print compact depth v = print compact 0 v := h (k, v) List.mem_cons_self
    have hes := ih fun e he => h e (List.mem_cons_of_mem _ he)
    cases es with
    | nil =>
      rw [printEntries, hv, compact_newline, compact_afterColon]
      simp [List.intercalate]
    | cons next es =>
      rw [printEntries, hes, hv, compact_newline, compact_afterColon]
      · simp [List.intercalate]
      · exact List.cons_ne_nil _ _

/-- Without white space the depth does not show. -/
theorem print_compact_depth (v : Json) (depth : Nat) :
    print compact depth v = print compact 0 v := by
  induction v using induct generalizing depth with
  | null => simp only [print]
  | bool b => cases b <;> simp only [print]
  | num n => simp only [print]
  | str s => simp only [print]
  | arr items ih =>
    cases items with
    | nil => simp only [print]
    | cons item items =>
      rw [print, print, printItems_compact fun v hv => ih v hv _,
        printItems_compact fun v hv => ih v hv _, compact_newline, compact_newline]
      all_goals exact List.cons_ne_nil _ _
  | obj entries ih =>
    cases entries with
    | nil => simp only [print]
    | cons entry entries =>
      rw [print, print, printEntries_compact fun e he => ih e he _,
        printEntries_compact fun e he => ih e he _, compact_newline, compact_newline]
      all_goals exact List.cons_ne_nil _ _

theorem print_compact_arr (items : List Json) :
    print compact 0 (.arr items) =
      '[' :: ([','].intercalate (items.map (print compact 0)) ++ [']']) := by
  cases items with
  | nil => rfl
  | cons item items =>
    rw [print, printItems_compact fun v _ => print_compact_depth v _, compact_newline,
      List.append_nil]
    exact List.cons_ne_nil _ _

theorem print_compact_obj (entries : List (String × Json)) :
    print compact 0 (.obj entries) =
      openBrace :: ([','].intercalate (entries.map fun e =>
        printString e.1 ++ ':' :: print compact 0 e.2) ++ [closeBrace]) := by
  cases entries with
  | nil => rfl
  | cons entry entries =>
    rw [print, printEntries_compact fun e _ => print_compact_depth e.2 _, compact_newline,
      List.append_nil]
    exact List.cons_ne_nil _ _

theorem Printable.canonical {v : Json} (h : Printable v) : Printable v.canonical := by
  induction h with
  | null => exact .null
  | bool b => exact .bool b
  | num number chars => exact .num number chars
  | str s => exact .str s
  | @arr items _ ih =>
    rw [Json.canonical, canonicalItems_eq]
    refine .arr fun u hu => ?_
    obtain ⟨v, hv, rfl⟩ := List.mem_map.mp hu
    exact ih v hv
  | @obj entries _ ih =>
    rw [Json.canonical, canonicalEntries_eq]
    refine .obj fun e he => ?_
    obtain ⟨e', he', rfl⟩ := List.mem_map.mp ((sortKeys_perm _).mem_iff.mp he)
    exact ih e' he'

theorem print_canonical_inj {v w : Json} (hv : Printable v) (hw : Printable w) {layout : Layout}
    (h : print layout 0 v.canonical = print layout 0 w.canonical) : v.canonical = w.canonical := by
  have hread := parse_print hv.canonical layout 0
  rw [h, parse_print hw.canonical] at hread
  exact (Option.some.inj hread).symm

theorem Reorders.printable {v w : Json} (h : Reorders v w) (hv : Printable v) : Printable w := by
  induction h with
  | refl v => exact hv
  | trans _ _ ihFirst ihSecond => exact ihSecond (ihFirst hv)
  | entries hperm =>
    obtain ⟨⟩ | ⟨⟩ | ⟨⟩ | ⟨⟩ | ⟨⟩ | inside := hv
    exact .obj fun e he => inside e (hperm.mem_iff.mpr he)
  | @item v w before after _ ih =>
    obtain ⟨⟩ | ⟨⟩ | ⟨⟩ | ⟨⟩ | inside := hv
    refine .arr fun u hu => ?_
    rcases List.mem_append.mp hu with hu | hu
    · exact inside u (List.mem_append_left _ hu)
    · rcases List.mem_cons.mp hu with rfl | hu
      · exact ih (inside v (by simp))
      · exact inside u (List.mem_append_right _ (List.mem_cons_of_mem _ hu))
  | @value v w before after k _ ih =>
    obtain ⟨⟩ | ⟨⟩ | ⟨⟩ | ⟨⟩ | ⟨⟩ | inside := hv
    refine .obj fun e he => ?_
    rcases List.mem_append.mp he with he | he
    · exact inside e (List.mem_append_left _ he)
    · rcases List.mem_cons.mp he with rfl | he
      · exact ih (inside (k, v) (by simp))
      · exact inside e (List.mem_append_right _ (List.mem_cons_of_mem _ he))

/-- An object stays one, with the same keys, and so it does with more entries. -/
theorem Reorders.append {es : List (String × Json)} {w : Json} (h : Reorders (.obj es) w)
    (more : List (String × Json)) :
    ∃ fs, w = .obj fs ∧ (es.map Prod.fst).Perm (fs.map Prod.fst) ∧
      Reorders (.obj (es ++ more)) (.obj (fs ++ more)) := by
  generalize hv : Json.obj es = v at h
  induction h generalizing es with
  | refl v => exact ⟨es, hv.symm, .refl _, .refl _⟩
  | trans _ _ ihFirst ihSecond =>
    obtain ⟨fs, rfl, hkeys, hmore⟩ := ihFirst hv
    obtain ⟨gs, rfl, hkeys', hmore'⟩ := ihSecond rfl
    exact ⟨gs, rfl, hkeys.trans hkeys', .trans hmore hmore'⟩
  | entries hperm =>
    cases hv
    exact ⟨_, rfl, hperm.map _, .entries (hperm.append_right more)⟩
  | item before after _ _ => cases hv
  | @value v w before after k hinner _ =>
    cases hv
    refine ⟨_, rfl, ?_, ?_⟩
    · simp only [List.map_append, List.map_cons]
      exact .refl _
    · simp only [List.append_assoc, List.cons_append]
      exact .value before (after ++ more) k hinner

/-! ## Reading by key -/

/-- A key of the canonical form has the canonical value. -/
theorem lookup_canonical {entries : List (String × Json)}
    (hdistinct : (entries.map Prod.fst).Nodup) (key : String) :
    (sortKeys (canonicalEntries entries)).lookup key = (entries.lookup key).map canonical := by
  have hkeys : ((canonicalEntries entries).map Prod.fst).Nodup := by
    rw [canonicalEntries_keys]
    exact hdistinct
  rw [Assoc.lookup_perm hkeys (sortKeys_perm _).symm, canonicalEntries_eq, Assoc.lookup_map_value]

end Json
