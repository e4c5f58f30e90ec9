import Mathlib.Data.List.Forall2

/-!
# Maps over a list that may fail

`mapM` over `Option` gives a list exactly when every item gives a value.
-/

namespace Traverse

variable {α β γ : Type}

theorem mapM_eq_some {f : α → Option β} {xs : List α} {ys : List β} :
    xs.mapM f = some ys ↔ List.Forall₂ (fun x y => f x = some y) xs ys := by
  induction xs generalizing ys with
  | nil =>
    rw [List.mapM_nil, List.forall₂_nil_left_iff]
    exact ⟨fun h => (Option.some.inj h).symm, fun h => h ▸ rfl⟩
  | cons x xs ih =>
    rw [List.mapM_cons]
    simp only [Option.bind_eq_bind, Option.bind_eq_some_iff, Option.pure_def, Option.some.injEq]
    constructor
    · rintro ⟨y, hy, rest, hrest, rfl⟩
      exact .cons hy (ih.mp hrest)
    · rintro (_ | ⟨hy, hrest⟩)
      exact ⟨_, hy, _, ih.mpr hrest, rfl⟩

theorem mapM_isSome {f : α → Option β} {xs : List α} (h : ∀ x ∈ xs, (f x).isSome) :
    (xs.mapM f).isSome := by
  induction xs with
  | nil => rfl
  | cons x xs ih =>
    obtain ⟨y, hy⟩ := Option.isSome_iff_exists.mp (h x List.mem_cons_self)
    obtain ⟨ys, hys⟩ := Option.isSome_iff_exists.mp
      (ih fun other hmem => h other (List.mem_cons_of_mem _ hmem))
    rw [List.mapM_cons, hy, hys]
    rfl

/-- Each item of the second list is paired with one of the first. -/
theorem mem_of_forall₂ {R : α → β → Prop} {xs : List α} {ys : List β} (h : List.Forall₂ R xs ys)
    {y : β} (hy : y ∈ ys) : ∃ x ∈ xs, R x y := by
  induction h with
  | nil => cases hy
  | @cons x z xs ys hz _ ih =>
    rcases List.mem_cons.mp hy with rfl | hy
    · exact ⟨x, List.mem_cons_self, hz⟩
    · obtain ⟨x', hx', hpaired⟩ := ih hy
      exact ⟨x', List.mem_cons_of_mem _ hx', hpaired⟩

/-- Every value comes from an item. -/
theorem mem_of_mapM {f : α → Option β} {xs : List α} {ys : List β} (h : xs.mapM f = some ys)
    {y : β} (hy : y ∈ ys) : ∃ x ∈ xs, f x = some y := mem_of_forall₂ (mapM_eq_some.mp h) hy

/-- Every item gives one of the values. -/
theorem exists_of_mapM {f : α → Option β} {xs : List α} {ys : List β} (h : xs.mapM f = some ys)
    {x : α} (hx : x ∈ xs) : ∃ y ∈ ys, f x = some y := by
  have hforall := mapM_eq_some.mp h
  induction hforall with
  | nil => cases hx
  | @cons z y xs ys hz hrest ih =>
    rcases List.mem_cons.mp hx with rfl | hx
    · exact ⟨y, List.mem_cons_self, hz⟩
    · obtain ⟨y', hy', heq⟩ := ih (mapM_eq_some.mpr hrest) hx
      exact ⟨y', List.mem_cons_of_mem _ hy', heq⟩

theorem mapM_eq_some_map {f : α → Option β} {g : α → β} {xs : List α} :
    xs.mapM f = some (xs.map g) ↔ ∀ x ∈ xs, f x = some (g x) := by
  rw [mapM_eq_some, List.forall₂_map_right_iff, List.forall₂_same]

theorem mapM_congr {f g : α → Option β} {xs : List α} (h : ∀ x ∈ xs, f x = g x) :
    xs.mapM f = xs.mapM g := by
  induction xs with
  | nil => rfl
  | cons x xs ih =>
    rw [List.mapM_cons, List.mapM_cons, h x List.mem_cons_self,
      ih fun other hmem => h other (List.mem_cons_of_mem _ hmem)]

/-- One pass after another is one pass. -/
theorem mapM_bind (f : α → Option β) (g : β → Option γ) (xs : List α) :
    (xs.mapM f).bind (List.mapM g) = xs.mapM fun x => (f x).bind g := by
  induction xs with
  | nil => rfl
  | cons x xs ih =>
    rw [List.mapM_cons, List.mapM_cons, ← ih]
    cases f x with
    | none => rfl
    | some y =>
      cases hxs : xs.mapM f with
      | none =>
        simp only [Option.bind_eq_bind, Option.bind_some, Option.bind_none]
        cases g y <;> rfl
      | some ys => simp [List.mapM_cons]

theorem length_of_mapM {f : α → Option β} {xs : List α} {ys : List β} (h : xs.mapM f = some ys) :
    ys.length = xs.length := (mapM_eq_some.mp h).length_eq.symm

end Traverse
