import Sbctl.Lib.Assoc

/-!
# Writing files step by step

A program that changes a set of files in steps and may stop at any of them. A
file is put in place as a whole, or it is first written under a temporary name
and then renamed.

* `lookup_performAll`: what the steps that are done leave at a path none of them
  is to write;
* `lookup_performAll_ensured`: a file that only has to be there keeps its
  contents.
-/

namespace Stepwise

open Assoc

variable {κ ν : Type} [DecidableEq κ]

inductive Step (κ ν : Type) where
  /-- Changes no file. -/
  | act
  /-- Creates a file unless it is there. -/
  | ensure (path : κ) (contents : ν)
  /-- Puts files in place, each as a whole. -/
  | store (files : List (κ × ν))
  /-- Writes a file beside its place and renames it. -/
  | beside (path temporary : κ) (contents : ν)

def putAll (files tree : List (κ × ν)) : List (κ × ν) :=
  files.foldl (fun tree file => put file.1 file.2 tree) tree

namespace Step

def perform (tree : List (κ × ν)) : Step κ ν → List (κ × ν)
  | .act => tree
  | .ensure path contents => if (tree.lookup path).isSome then tree else put path contents tree
  | .store files => putAll files tree
  | .beside path temporary contents => put path contents (remove temporary tree)

/-- The name under which the file of the step is first written. -/
def temporary? : Step κ ν → Option κ
  | .beside _ temporary _ => some temporary
  | _ => none

/-- The paths the step is to write. -/
def targets : Step κ ν → List κ
  | .act => []
  | .ensure path _ => [path]
  | .store files => files.map Prod.fst
  | .beside path _ _ => [path]

end Step

def performAll (steps : List (Step κ ν)) (tree : List (κ × ν)) : List (κ × ν) :=
  steps.foldl Step.perform tree

theorem lookup_putAll {files : List (κ × ν)} {x : κ} (h : x ∉ files.map Prod.fst)
    (tree : List (κ × ν)) : (putAll files tree).lookup x = tree.lookup x := by
  induction files generalizing tree with
  | nil => rfl
  | cons file rest ih =>
    rw [List.map_cons, List.mem_cons, not_or] at h
    have hstep : putAll (file :: rest) tree = putAll rest (put file.1 file.2 tree) := rfl
    rw [hstep, ih h.2, lookup_put, if_neg h.1]

theorem lookup_perform {step : Step κ ν} {x : κ} (h : x ∉ step.targets) (tree : List (κ × ν)) :
    (step.perform tree).lookup x = if step.temporary? = some x then none else tree.lookup x := by
  cases step with
  | act => simp [Step.perform, Step.temporary?]
  | ensure path contents =>
    have hne : x ≠ path := List.mem_singleton.not.mp h
    simp only [Step.perform, Step.temporary?, reduceCtorEq, if_false]
    split
    · rfl
    · rw [lookup_put, if_neg hne]
  | store files =>
    simp only [Step.perform, Step.temporary?, reduceCtorEq, if_false]
    exact lookup_putAll h tree
  | beside path temporary contents =>
    have hne : x ≠ path := List.mem_singleton.not.mp h
    simp only [Step.perform, Step.temporary?, Option.some.injEq]
    rw [lookup_put, if_neg hne, lookup_remove]
    by_cases htemporary : x = temporary
    · rw [if_pos htemporary, if_pos htemporary.symm]
    · rw [if_neg htemporary, if_neg (Ne.symm htemporary)]

/-- A path none of the steps is to write loses what a step has written beside it. -/
theorem lookup_performAll {steps : List (Step κ ν)} {x : κ} (h : ∀ step ∈ steps, x ∉ step.targets)
    (tree : List (κ × ν)) : (performAll steps tree).lookup x =
      if x ∈ steps.filterMap Step.temporary? then none else tree.lookup x := by
  induction steps generalizing tree with
  | nil => simp [performAll]
  | cons step rest ih =>
    have hstep : performAll (step :: rest) tree = performAll rest (step.perform tree) := rfl
    rw [hstep, ih (fun s hs => h s (List.mem_cons_of_mem _ hs)),
      lookup_perform (h step List.mem_cons_self)]
    cases htemporary : step.temporary? with
    | none => simp [htemporary]
    | some t =>
      simp only [List.filterMap_cons, htemporary, List.mem_cons, Option.some.injEq]
      by_cases ht : x = t
      · simp [ht]
      · simp [ht, Ne.symm ht]

theorem lookup_performAll_ensured {steps : List (Step κ ν)} {x : κ} {contents : ν}
    (h : ∀ step ∈ steps, (∃ c, step = .ensure x c) ∨ x ∉ step.targets ∧ step.temporary? ≠ some x)
    {tree : List (κ × ν)} (hx : tree.lookup x = some contents) :
    (performAll steps tree).lookup x = some contents := by
  induction steps generalizing tree with
  | nil => exact hx
  | cons step rest ih =>
    apply ih (fun s hs => h s (List.mem_cons_of_mem _ hs))
    obtain ⟨c, rfl⟩ | ⟨htargets, htemporary⟩ := h step List.mem_cons_self
    · rw [Step.perform, hx, Option.isSome_some, if_pos rfl, hx]
    · rw [lookup_perform htargets, if_neg htemporary, hx]

end Stepwise
