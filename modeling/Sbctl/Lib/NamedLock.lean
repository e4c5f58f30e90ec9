import Mathlib.Logic.Function.Basic

/-!
# A lock that is found by name

A name leads to an object, and the lock is attached to the object. Whoever wants
it opens what the name leads to, or puts a new object there, and locks later what
was opened. Taking the name away from an object that is open to somebody parts
those who have it from those who come.

* `Sound.step`: while the name is only taken from objects nobody has open,
  whatever is open is what the name leads to;
* `Sound.exclusive`: then at most one holds the lock.
-/

namespace NamedLock

variable {α ι : Type}

structure State (α ι : Type) where
  named : Option ι
  /-- What each participant has opened and not yet locked. -/
  opened : α → Option ι
  held : α → Option ι

namespace State

def HasOpen (s : State α ι) (a : α) (i : ι) : Prop := s.opened a = some i ∨ s.held a = some i

/-- What one participant has open and holds from now on. -/
def put [DecidableEq α] (a : α) (opened held : Option ι) (s : State α ι) : State α ι :=
  { s with opened := Function.update s.opened a opened, held := Function.update s.held a held }

theorem put_self [DecidableEq α] (s : State α ι) (a : α) : s.put a (s.opened a) (s.held a) = s := by
  simp [put]

end State

inductive Step [DecidableEq α] (s : State α ι) : State α ι → Prop
  | stay : Step s s
  | find (a : α) (i : ι) (named : s.named = some i) : Step s (s.put a (some i) none)
  | create (a : α) (i : ι) (named : s.named = none) :
      Step s { s.put a (some i) none with named := some i }
  | take (a : α) (i : ι) (opened : s.opened a = some i) (free : ∀ b, s.held b ≠ some i) :
      Step s (s.put a none (some i))
  | leave (a : α) : Step s (s.put a none none)
  | unname (unused : ∀ i, s.named = some i → ∀ a, ¬ s.HasOpen a i) : Step s { s with named := none }

/-- What is open is what the name leads to, and one participant at most holds it. -/
structure Sound (s : State α ι) : Prop where
  current : ∀ {a i}, s.HasOpen a i → s.named = some i
  single : ∀ {a b i}, s.held a = some i → s.held b = some i → a = b

namespace Sound

variable {s t : State α ι}

theorem exclusive (h : Sound s) {a b : α} (ha : (s.held a).isSome) (hb : (s.held b).isSome) :
    a = b := by
  obtain ⟨i, hi⟩ := Option.isSome_iff_exists.mp ha
  obtain ⟨j, hj⟩ := Option.isSome_iff_exists.mp hb
  have hij : i = j := Option.some.inj ((h.current (.inr hi)).symm.trans (h.current (.inr hj)))
  subst hij
  exact h.single hi hj

/-- Where the name leads nowhere, nothing is open. -/
theorem nothing_open (h : Sound s) (hnamed : s.named = none) (a : α) (i : ι) :
    ¬ s.HasOpen a i := by
  intro ha
  rw [h.current ha] at hnamed
  cases hnamed

variable [DecidableEq α]

theorem hasOpen_put {a b : α} {opened held : Option ι} {i : ι}
    (h : (s.put a opened held).HasOpen b i) :
    b = a ∧ (opened = some i ∨ held = some i) ∨ b ≠ a ∧ s.HasOpen b i := by
  by_cases hb : b = a
  · subst hb
    left
    simpa [State.HasOpen, State.put] using h
  · right
    simpa [State.HasOpen, State.put, hb] using h

/-- A participant may have open what the name leads to, and hold what nobody else holds. -/
theorem put (h : Sound s) {a : α} {opened held : Option ι}
    (hcurrent : ∀ i, opened = some i ∨ held = some i → s.named = some i)
    (hfree : ∀ i, held = some i → ∀ b, b ≠ a → s.held b ≠ some i) :
    Sound (s.put a opened held) where
  current := by
    intro b i hb
    rcases hasOpen_put hb with ⟨-, hi⟩ | ⟨-, hi⟩
    · exact hcurrent i hi
    · exact h.current hi
  single := by
    intro b c i hb hc
    simp only [State.put, Function.update_apply] at hb hc
    split at hb <;> split at hc
    · simp_all
    · exact absurd hc (hfree i hb c ‹_›)
    · exact absurd hb (hfree i hc b ‹_›)
    · exact h.single hb hc

theorem step (h : Sound s) (hstep : Step s t) : Sound t := by
  cases hstep with
  | stay => exact h
  | find a i hnamed =>
    apply h.put
    · intro j hj
      simp_all
    · intro j hj
      cases hj
  | create a i hnamed =>
    have hnothing := h.nothing_open hnamed
    refine ⟨?_, ?_⟩
    · intro b j hb
      rcases hasOpen_put (s := s) hb with ⟨-, hj⟩ | ⟨-, hj⟩
      · simpa using hj
      · exact absurd hj (hnothing b j)
    · intro b c j hb hc
      simp only [State.put, Function.update_apply] at hb
      split at hb
      · cases hb
      · exact absurd (.inr hb) (hnothing b j)
  | take a i hopened hfree =>
    apply h.put
    · intro j hj
      have hij : i = j := by simpa using hj
      rw [← hij]
      exact h.current (.inl hopened)
    · intro j hj b _
      have hij : i = j := by simpa using hj
      rw [← hij]
      exact hfree b
  | leave a =>
    apply h.put
    · intro j hj
      simp at hj
    · intro j hj
      cases hj
  | unname hunused =>
    refine ⟨?_, h.single⟩
    intro a i ha
    exact absurd ha (hunused i (h.current ha) a)

end Sound

end NamedLock
