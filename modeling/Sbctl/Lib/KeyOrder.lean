import Mathlib.Data.List.Sort

/-!
# Entries in the order of their keys

Keys are compared character by character, the way their encodings compare.

* `sortKeys_eq_of_perm`: the sorted entries do not depend on the order in which
  distinct keys came.
-/

namespace KeyOrder

/-- A key comes no later than another. -/
def precedes : List Char → List Char → Bool
  | [], _ => true
  | _ :: _, [] => false
  | c :: cs, d :: ds => if c = d then precedes cs ds else decide (c.toNat < d.toNat)

theorem precedes_total (cs ds : List Char) : precedes cs ds = true ∨ precedes ds cs = true := by
  induction cs generalizing ds with
  | nil => exact .inl rfl
  | cons c cs ih =>
    cases ds with
    | nil => exact .inr rfl
    | cons d ds =>
      by_cases hc : c = d
      · simpa [precedes, hc] using ih ds
      · have hne : c.toNat ≠ d.toNat := fun heq => hc (Char.toNat_inj.mp heq)
        simp only [precedes, if_neg hc, if_neg (Ne.symm hc), decide_eq_true_eq]
        omega

theorem precedes_trans {cs ds es : List Char} (h : precedes cs ds = true)
    (h' : precedes ds es = true) : precedes cs es = true := by
  induction cs generalizing ds es with
  | nil => rfl
  | cons c cs ih =>
    cases ds with
    | nil => cases h
    | cons d ds =>
      cases es with
      | nil => cases h'
      | cons e es =>
        rw [precedes] at h h' ⊢
        by_cases hcd : c = d
        · subst hcd
          by_cases hce : c = e
          · rw [if_pos hce] at h' ⊢
            rw [if_pos rfl] at h
            exact ih h h'
          · rw [if_neg hce] at h' ⊢
            exact h'
        · rw [if_neg hcd, decide_eq_true_eq] at h
          by_cases hde : d = e
          · subst hde
            rw [if_neg hcd, decide_eq_true_eq]
            exact h
          · rw [if_neg hde, decide_eq_true_eq] at h'
            have hce : c ≠ e := by
              rintro rfl
              omega
            rw [if_neg hce, decide_eq_true_eq]
            omega

theorem precedes_antisymm {cs ds : List Char} (h : precedes cs ds = true)
    (h' : precedes ds cs = true) : cs = ds := by
  induction cs generalizing ds with
  | nil =>
    cases ds with
    | nil => rfl
    | cons d ds => cases h'
  | cons c cs ih =>
    cases ds with
    | nil => cases h
    | cons d ds =>
      rw [precedes] at h h'
      by_cases hc : c = d
      · rw [if_pos hc] at h
        rw [if_pos hc.symm] at h'
        rw [hc, ih h h']
      · rw [if_neg hc, decide_eq_true_eq] at h
        rw [if_neg (Ne.symm hc), decide_eq_true_eq] at h'
        omega

section
variable {α : Type}

/-- An entry comes no later than another. -/
def Before (e f : String × α) : Prop := precedes e.1.toList f.1.toList = true

instance : DecidableRel (Before (α := α)) := fun e f => by unfold Before; infer_instance

instance : Std.Total (Before (α := α)) := ⟨fun _ _ => precedes_total _ _⟩
instance : IsTrans (String × α) Before := ⟨fun _ _ _ => precedes_trans⟩

def sortKeys (es : List (String × α)) : List (String × α) := es.insertionSort Before

theorem sortKeys_perm (es : List (String × α)) : (sortKeys es).Perm es :=
  List.perm_insertionSort Before es

theorem sortKeys_pairwise (es : List (String × α)) : (sortKeys es).Pairwise Before :=
  List.pairwise_insertionSort Before es

/-- Only the keys decide the order. -/
theorem sortKeys_map {β : Type} (f : α → β) (es : List (String × α)) :
    sortKeys (es.map fun e => (e.1, f e.2)) = (sortKeys es).map fun e => (e.1, f e.2) :=
  (List.map_insertionSort Before Before (fun e : String × α => (e.1, f e.2)) es
    fun _ _ _ _ => Iff.rfl).symm

theorem sortKeys_eq_of_perm {es fs : List (String × α)} (hdistinct : (es.map Prod.fst).Nodup)
    (h : es.Perm fs) : sortKeys es = sortKeys fs := by
  refine ((sortKeys_perm es).trans (h.trans (sortKeys_perm fs).symm)).eq_of_pairwise ?_
    (sortKeys_pairwise es) (sortKeys_pairwise fs)
  intro e f he hf hbefore hafter
  have hkey : e.1 = f.1 := String.toList_inj.mp (precedes_antisymm hbefore hafter)
  have hmemE : e ∈ es := (sortKeys_perm es).mem_iff.mp he
  have hmemF : f ∈ es := h.mem_iff.mpr ((sortKeys_perm fs).mem_iff.mp hf)
  exact List.inj_on_of_nodup_map hdistinct hmemE hmemF hkey

end

end KeyOrder
