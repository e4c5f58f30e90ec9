import Mathlib.Logic.Basic
import Mathlib.Data.List.Basic

/-!
# Putting a state back

A state made of cells, each empty or holding a value. Before cells change,
their contents are saved; writing the saved contents back undoes every change
that stayed within the saved cells.

* `read_rewind`: what rewinding a snapshot leaves in each cell;
* `read_rewind_of_agree`: after any change within the saved cells, it leaves
  what was there before.
-/

namespace Snapshot

class Cells (σ : Type) (κ ν : outParam Type) [DecidableEq κ] where
  read : σ → κ → Option ν
  set : κ → Option ν → σ → σ
  read_set : ∀ (s : σ) (key k : κ) (content : Option ν),
    read (set key content s) k = if k = key then content else read s k

variable {σ κ ν : Type} [DecidableEq κ] [Cells σ κ ν]

open Cells

/-- The cells of `scope` may differ, the others hold the same. -/
def Agree (scope : κ → Prop) (s t : σ) : Prop := ∀ k, ¬ scope k → read t k = read s k

theorem Agree.refl (scope : κ → Prop) (s : σ) : Agree scope s s :=
  fun _ _ => rfl

theorem Agree.trans {scope : κ → Prop} {s t u : σ} (hst : Agree scope s t)
    (htu : Agree scope t u) : Agree scope s u :=
  fun k hk => (htu k hk).trans (hst k hk)

theorem Agree.mono {scope wider : κ → Prop} {s t : σ} (h : Agree scope s t)
    (hle : ∀ k, scope k → wider k) : Agree wider s t :=
  fun k hk => h k fun hs => hk (hle k hs)

theorem agree_set {scope : κ → Prop} {key : κ} (s : σ) (content : Option ν) (h : scope key) :
    Agree scope s (set key content s) := by
  intro k hk
  rw [read_set, if_neg]
  rintro rfl
  exact hk h

/-- The saved contents of some cells. -/
abbrev Saved (κ ν : Type) := List (κ × Option ν)

namespace Saved

def Covers (saved : Saved κ ν) (k : κ) : Prop := k ∈ saved.map Prod.fst

omit [DecidableEq κ] in
theorem covers_append {first second : Saved κ ν} {k : κ} :
    (first ++ second).Covers k ↔ first.Covers k ∨ second.Covers k := by
  simp [Covers]

/-- Every saved content is the one of `s`. -/
def Of (saved : Saved κ ν) (s : σ) : Prop := ∀ entry ∈ saved, read s entry.1 = entry.2

/-- Writes the saved contents back, one cell after the other. -/
def rewind (saved : Saved κ ν) (s : σ) : σ :=
  saved.foldl (fun s entry => set entry.1 entry.2 s) s

theorem rewind_append (first second : Saved κ ν) (s : σ) :
    (first ++ second).rewind s = second.rewind (first.rewind s) :=
  List.foldl_append

theorem read_rewind {saved : Saved κ ν} {prior : σ} (h : saved.Of prior) (s : σ) (k : κ) :
    read (saved.rewind s) k = if k ∈ saved.map Prod.fst then read prior k else read s k := by
  induction saved generalizing s with
  | nil => simp [rewind]
  | cons entry rest ih =>
    have hentry : read prior entry.1 = entry.2 := h entry List.mem_cons_self
    have hrest : Of rest prior := fun e he => h e (List.mem_cons_of_mem _ he)
    have hstep : rewind (entry :: rest) s = rewind rest (set entry.1 entry.2 s) := rfl
    rw [hstep, ih hrest, read_set]
    by_cases hk : k = entry.1
    · subst hk
      simp [hentry]
    · simp only [List.map_cons, List.mem_cons, hk, false_or, if_false]

/-- Rewinding undoes every change within the saved cells. -/
theorem read_rewind_of_agree {saved : Saved κ ν} {prior s : σ} (h : saved.Of prior)
    (hagree : Agree saved.Covers prior s) (k : κ) : read (saved.rewind s) k = read prior k := by
  rw [read_rewind h]
  split
  · rfl
  · rename_i hk
    exact hagree k hk

end Saved

end Snapshot
