import Mathlib.Data.List.Count
import Sbctl.Lib.Assoc

/-!
# Counting by key

A map counts how often each key occurs in a list. It has no entry for a key
that does not occur.

* `Tally.add`, `Tally.take`: counting one key up, and down to no entry at all,
  as the list gains and loses it.
-/

namespace Assoc

variable {α : Type} [DecidableEq α]

structure Tally (entries : List (α × Nat)) (keys : List α) : Prop where
  distinct : (entries.map Prod.fst).Nodup
  counts : ∀ key, entries.lookup key = if keys.count key = 0 then none else some (keys.count key)

namespace Tally

variable {entries : List (α × Nat)} {keys : List α}

theorem nil : Tally ([] : List (α × Nat)) [] := ⟨List.nodup_nil, fun _ => by simp⟩

/-- A key that has no entry counts as zero. -/
theorem getD (h : Tally entries keys) (key : α) :
    (entries.lookup key).getD 0 = keys.count key := by
  rw [h.counts]
  split
  · rename_i hzero
    rw [hzero]
    rfl
  · rfl

theorem lookup_eq_some (h : Tally entries keys) {key : α} {count : Nat} :
    entries.lookup key = some count ↔ keys.count key = count ∧ 0 < count := by
  rw [h.counts]
  split
  · rename_i hzero
    rw [hzero]
    constructor
    · rintro ⟨⟩
    · rintro ⟨rfl, hpos⟩
      omega
  · rename_i hpos
    rw [Option.some.injEq]
    constructor
    · rintro rfl
      exact ⟨rfl, Nat.pos_of_ne_zero hpos⟩
    · exact And.left

theorem perm (h : Tally entries keys) {keys' : List α} (hperm : keys.Perm keys') :
    Tally entries keys' :=
  ⟨h.distinct, fun key => by rw [← hperm.count_eq]; exact h.counts key⟩

theorem add (h : Tally entries keys) (key : α) :
    Tally (put key (keys.count key + 1) entries) (key :: keys) := by
  refine ⟨nodup_put h.distinct _ _, fun k => ?_⟩
  rw [lookup_put, List.count_cons]
  by_cases hk : k = key
  · subst hk
    simp
  · have hne : (key == k) = false := beq_eq_false_iff_ne.mpr (Ne.symm hk)
    rw [if_neg hk, hne, h.counts]
    rfl

/-- Counting one down leaves an entry only where there is still something to count. -/
theorem take {key : α} (h : Tally entries (key :: keys)) :
    entries.lookup key = some (keys.count key + 1) ∧
      Tally (if keys.count key = 0 then remove key entries else put key (keys.count key) entries)
        keys := by
  have hkey : (key :: keys).count key = keys.count key + 1 := List.count_cons_self
  have hother : ∀ k, k ≠ key → (key :: keys).count k = keys.count k := fun k hk =>
    List.count_cons_of_ne (Ne.symm hk)
  refine ⟨h.lookup_eq_some.mpr ⟨hkey, Nat.succ_pos _⟩, ?_⟩
  split
  · rename_i hzero
    refine ⟨h.distinct.sublist (List.filter_sublist.map _), fun k => ?_⟩
    rw [lookup_remove]
    by_cases hk : k = key
    · rw [if_pos hk, hk, if_pos hzero]
    · rw [if_neg hk, h.counts, hother k hk]
  · rename_i hpos
    refine ⟨nodup_put h.distinct _ _, fun k => ?_⟩
    rw [lookup_put]
    by_cases hk : k = key
    · rw [if_pos hk, hk, if_neg hpos]
    · rw [if_neg hk, h.counts, hother k hk]

end Tally

end Assoc
