import Mathlib.Data.List.Basic

/-!
# Decision lists

Each rule of a list either decides what it is given or hands it on, perhaps with
something learnt; the first rule that decides has the last word.

* `pass_append`: rules in front of others decide before them;
* `pass_tests`: rules that only test, and decide alike, decide as one test.
-/

namespace DecisionList

variable {ρ δ ω : Type} {step : ρ → δ → Except ω δ}

/-- What a list of rules makes of something: a decision, or what is handed on. -/
def pass (step : ρ → δ → Except ω δ) : List ρ → δ → Except ω δ
  | [], d => .ok d
  | rule :: rules, d => (step rule d).bind (pass step rules)

theorem pass_append (front back : List ρ) (d : δ) :
    pass step (front ++ back) d = (pass step front d).bind (pass step back) := by
  induction front generalizing d with
  | nil => rfl
  | cons rule front ih =>
    rw [List.cons_append, pass, pass]
    cases step rule d with
    | error outcome => rfl
    | ok d' => exact ih d'

/-- The rule decides what a test takes, and hands on the rest as it is. -/
def Tests (step : ρ → δ → Except ω δ) (rule : ρ) (takes : δ → Bool) (outcome : ω) : Prop :=
  ∀ d, step rule d = if takes d then .error outcome else .ok d

theorem pass_tests {α : Type} {rule : α → ρ} {takes : α → δ → Bool} {outcome : ω} {xs : List α}
    (h : ∀ x ∈ xs, Tests step (rule x) (takes x) outcome) (d : δ) :
    pass step (xs.map rule) d = if xs.any (takes · d) then .error outcome else .ok d := by
  induction xs with
  | nil => rfl
  | cons x xs ih =>
    have hrest := ih fun y hy => h y (List.mem_cons_of_mem x hy)
    rw [List.map_cons, pass, h x List.mem_cons_self d, List.any_cons]
    cases htakes : takes x d with
    | true => rfl
    | false => exact hrest

end DecisionList
