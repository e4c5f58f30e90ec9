import Mathlib.Data.List.Basic

/-!
# Checks that stop at the first fault

`Checks` says of a check which items it looks at: it passes only if none of them is
bad, and fails only for one that is, which its error blames. Checks in a row and
over a list look at the items of all of them.

* `Checks.ok_iff`: a check passes exactly if no item is bad.
-/

namespace Checker

variable {ε ρ α : Type} {bad : ρ → Prop} {blames : ε → ρ → Prop}

structure Checks (bad : ρ → Prop) (blames : ε → ρ → Prop) (items : ρ → Prop)
    (check : Except ε Unit) : Prop where
  passes : check = .ok () → ∀ item, items item → ¬ bad item
  fails : ∀ e, check = .error e → ∃ item, items item ∧ bad item ∧ blames e item

namespace Checks

variable {items others : ρ → Prop} {check next : Except ε Unit}

theorem ok_iff (h : Checks bad blames items check) :
    check = .ok () ↔ ∀ item, items item → ¬ bad item := by
  constructor
  · exact h.passes
  · intro hgood
    cases hcheck : check with
    | ok => rfl
    | error e =>
      obtain ⟨item, hitem, hbad, -⟩ := h.fails e hcheck
      exact absurd hbad (hgood item hitem)

theorem pass : Checks bad blames (fun _ => False) (.ok ()) :=
  ⟨fun _ _ h => h.elim, fun _ h => nomatch h⟩

/-- The check looks at the same items in another description. -/
theorem congr (h : Checks bad blames items check) (heq : ∀ item, items item ↔ others item) :
    Checks bad blames others check := by
  constructor
  · intro hok item hitem
    exact h.passes hok item ((heq item).mpr hitem)
  · intro e he
    obtain ⟨item, hitem, hrest⟩ := h.fails e he
    exact ⟨item, (heq item).mp hitem, hrest⟩

theorem single {item : ρ} {e : ε} [Decidable (bad item)] (hblames : blames e item) :
    Checks bad blames (· = item) (if bad item then .error e else .ok ()) := by
  constructor
  · rintro hok _ rfl hbad
    rw [if_pos hbad] at hok
    cases hok
  · intro e' he
    by_cases hbad : bad item
    · rw [if_pos hbad] at he
      cases he
      exact ⟨item, rfl, hbad, hblames⟩
    · rw [if_neg hbad] at he
      cases he

theorem bind (h : Checks bad blames items check) (hnext : Checks bad blames others next) :
    Checks bad blames (fun item => items item ∨ others item) (check >>= fun _ => next) := by
  cases hcheck : check with
  | error e =>
    constructor
    · intro hok
      cases hok
    · intro e' he
      cases he
      obtain ⟨item, hitem, hrest⟩ := h.fails e hcheck
      exact ⟨item, .inl hitem, hrest⟩
  | ok =>
    constructor
    · rintro hok item (hitem | hitem)
      · exact h.passes hcheck item hitem
      · exact hnext.passes hok item hitem
    · intro e he
      obtain ⟨item, hitem, hrest⟩ := hnext.fails e he
      exact ⟨item, .inr hitem, hrest⟩

theorem forM {xs : List α} {check : α → Except ε Unit} {items : α → ρ → Prop}
    (h : ∀ x ∈ xs, Checks bad blames (items x) (check x)) :
    Checks bad blames (fun item => ∃ x ∈ xs, items x item) (xs.forM check) := by
  induction xs with
  | nil => exact pass.congr fun item => by simp
  | cons x xs ih =>
    have hrest := ih fun y hy => h y (List.mem_cons_of_mem x hy)
    refine ((h x List.mem_cons_self).bind hrest).congr fun item => ?_
    simp only [List.exists_mem_cons_iff]

end Checks

end Checker
