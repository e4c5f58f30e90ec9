import Mathlib.Data.List.Basic

/-!
# Scripted dialogues

A dialogue asks questions and reads the answers from a script. When the script
is used up every question is answered with an empty line and every confirmation
with its default. A dialogue that goes on asking has no outcome.

* `outcome_bind`: a dialogue whose first part is answered goes on with the answer;
* `askValue_enter`, `askRequired_enter`: an empty line takes the current value.
-/

namespace Dialog

structure Script where
  answers : List String
  confirms : List Bool

/-- A dialogue that yields a value, fails or goes on. -/
abbrev Session (ε α : Type) := StateT Script (ExceptT ε Option) α

section
variable {ε α β : Type}

def ask : Session ε String := do
  let script ← get
  match script.answers with
  | [] => return ""
  | answer :: answers =>
    set { script with answers }
    return answer

def confirm (default : Bool) : Session ε Bool := do
  let script ← get
  match script.confirms with
  | [] => return default
  | answer :: confirms =>
    set { script with confirms }
    return answer

/-- The session goes on asking. -/
def goesOn : Session ε α := fun _ => none

/-- Asks until an answer parses. An empty one takes the current value, which has
to parse as well. -/
def askValue (unreadable : String → ε) (parse : String → Except String α) (current : Option String) :
    Nat → Session ε (Option α)
  | 0 => goesOn
  | fuel + 1 => do
    let answer ← ask
    if answer = "" then
      match current.map parse with
      | none => return none
      | some (.ok value) => return some value
      | some (.error message) => throw (unreadable message)
    else match parse answer with
      | .ok value => return some value
      | .error _ => askValue unreadable parse current fuel

def askRequired (unreadable : String → ε) (parse : String → Except String α)
    (current : Option String) : Nat → Session ε α
  | 0 => goesOn
  | fuel + 1 => do
    match ← askValue unreadable parse current (fuel + 1) with
    | some value => return value
    | none => askRequired unreadable parse current fuel

/-! ## Empty answers -/

def enter : Script := ⟨[], []⟩

/-- With empty answers the dialogue yields the value. -/
def Gives (d : Session ε α) (a : α) : Prop := d enter = some (.ok (a, enter))

/-- What comes of a dialogue with empty answers. -/
def outcome (d : Session ε α) : Option (Except ε α) :=
  match d enter with
  | some (.ok (a, _)) => some (.ok a)
  | some (.error e) => some (.error e)
  | none => none

/-- With empty answers the dialogue fails. -/
def Fails (d : Session ε α) (e : ε) : Prop := d enter = some (.error e)

theorem Gives.outcome {d : Session ε α} {a : α} (h : Gives d a) : outcome d = some (.ok a) := by
  unfold Dialog.outcome
  rw [h]

theorem Fails.outcome {d : Session ε α} {e : ε} (h : Fails d e) : outcome d = some (.error e) := by
  unfold Dialog.outcome
  rw [h]

theorem gives_pure (a : α) : Gives (pure a : Session ε α) a := rfl

theorem fails_throw (e : ε) : Fails (throw e : Session ε α) e := rfl

theorem Gives.apply_bind {d : Session ε α} {a : α} (h : Gives d a) (f : α → Session ε β) :
    (d >>= f) enter = f a enter := by
  change (ExceptT.bind (d enter) fun x => f x.1 x.2) = _
  rw [h]
  rfl

theorem Gives.bind {d : Session ε α} {a : α} {f : α → Session ε β} {b : β} (h : Gives d a)
    (hf : Gives (f a) b) : Gives (d >>= f) b := by
  rw [Gives, h.apply_bind f]
  exact hf

theorem Gives.fails_bind {d : Session ε α} {a : α} {f : α → Session ε β} {e : ε} (h : Gives d a)
    (hf : Fails (f a) e) : Fails (d >>= f) e := by
  rw [Fails, h.apply_bind f]
  exact hf

theorem Fails.bind {d : Session ε α} {e : ε} (h : Fails d e) (f : α → Session ε β) :
    Fails (d >>= f) e := by
  change (ExceptT.bind (d enter) fun x => f x.1 x.2) = _
  rw [h]
  rfl

theorem outcome_bind {d : Session ε α} {a : α} (h : Gives d a) (f : α → Session ε β) :
    Dialog.outcome (d >>= f) = Dialog.outcome (f a) := by
  unfold Dialog.outcome
  rw [h.apply_bind f]

theorem gives_ask : Gives (ask : Session ε String) "" := rfl

theorem gives_confirm (default : Bool) : Gives (confirm default : Session ε Bool) default := rfl

variable {unreadable : String → ε} {parse : String → Except String α}

theorem askValue_none (fuel : Nat) : Gives (askValue unreadable parse none (fuel + 1)) none := rfl

/-- An empty line takes the current value, where that parses. -/
theorem askValue_enter {value : String} {a : α} (h : parse value = .ok a) (fuel : Nat) :
    Gives (askValue unreadable parse (some value) (fuel + 1)) (some a) := by
  rw [askValue]
  refine gives_ask.bind ?_
  rw [if_pos rfl, Option.map_some, h]
  exact gives_pure _

theorem askRequired_enter {value : String} {a : α} (h : parse value = .ok a) (fuel : Nat) :
    Gives (askRequired unreadable parse (some value) (fuel + 1)) a := by
  rw [askRequired]
  exact (askValue_enter h fuel).bind (gives_pure a)

/-- A current value that does not parse fails the dialogue. -/
theorem askValue_unreadable {value message : String} (h : parse value = .error message)
    (fuel : Nat) : Fails (askValue unreadable parse (some value) (fuel + 1)) (unreadable message) := by
  rw [askValue]
  refine gives_ask.fails_bind ?_
  rw [if_pos rfl, Option.map_some, h]
  exact fails_throw _

theorem askRequired_unreadable {value message : String} (h : parse value = .error message)
    (fuel : Nat) :
    Fails (askRequired unreadable parse (some value) (fuel + 1)) (unreadable message) := by
  rw [askRequired]
  exact (askValue_unreadable h fuel).bind _

end

end Dialog
