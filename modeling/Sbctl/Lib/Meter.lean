import Sbctl.Lib.Machine

/-!
# Metering a counter that restarts

A counter is read from time to time. Each reading carries the epoch it was
taken in; the counter restarts from anywhere when the epoch changes, and can
also roll back inside one epoch. What was counted between two readings is only known
when both lie in one epoch and the counter did not decrease.

* `measured_insert`: a reading between its neighbours adds nothing;
* `record_run`: an accumulator that adds the gains one by one, saturating each
  time, ends where one saturated sum ends;
* `gain_triangle`: within one epoch, going through a middle reading never
  measures less than going straight.
-/

namespace Meter

variable {ε : Type} [DecidableEq ε]

structure Reading (ε : Type) where
  epoch : ε
  count : Nat
  deriving DecidableEq, Repr

/-- The count known to have passed between two consecutive readings. -/
def gain (a b : Reading ε) : Nat :=
  if a.epoch = b.epoch ∧ a.count ≤ b.count then b.count - a.count else 0

/-- The total measured by the readings `bs`, taken in order after `a`. -/
def measured : Reading ε → List (Reading ε) → Nat
  | _, [] => 0
  | a, b :: bs => gain a b + measured b bs

/-- The last of the readings, or `a` when there is none. -/
def latest : Reading ε → List (Reading ε) → Reading ε
  | a, [] => a
  | _, b :: bs => latest b bs

/-- `x` lies in the epoch of its neighbours and between their counts. -/
def Between (a x c : Reading ε) : Prop :=
  a.epoch = x.epoch ∧ x.epoch = c.epoch ∧
    (a.count ≤ x.count ∧ x.count ≤ c.count ∨ c.count ≤ x.count ∧ x.count ≤ a.count)

@[simp] theorem gain_self (a : Reading ε) : gain a a = 0 := by simp [gain]

theorem gain_between {a x c : Reading ε} (h : Between a x c) : gain a x + gain x c = gain a c := by
  obtain ⟨hax, hxc, hle | hle⟩ := h
  · simp only [gain, hax, hxc, true_and]
    split <;> split <;> split <;> omega
  · simp only [gain, hax, hxc, true_and]
    split <;> split <;> split <;> omega

/-- Taking one more reading between two others measures nothing new. -/
theorem measured_insert {a x c : Reading ε} (h : Between a x c) (cs : List (Reading ε)) :
    measured a (x :: c :: cs) = measured a (c :: cs) := by
  have := gain_between h
  simp only [measured]
  omega

/-- In one epoch the direct gain never exceeds the gain through a middle
reading. A middle reading of another epoch measures nothing on either side. -/
theorem gain_triangle (a x c : Reading ε) (h : a.epoch = c.epoch → x.epoch = a.epoch) :
    gain a c ≤ gain a x + gain x c := by
  by_cases hac : a.epoch = c.epoch
  · have hxa := h hac
    simp only [gain, hac, hxa, true_and]
    split <;> split <;> split <;> omega
  · simp [gain, hac]

theorem gain_other_epoch {a x : Reading ε} (h : a.epoch ≠ x.epoch) : gain a x = 0 := by
  simp [gain, h]

section Accumulator
open Machine

/-- One accumulator step: add the gain since the last reading, then take the
new reading as the baseline. -/
def record (cap : Nat) (s : Nat × Reading ε) (b : Reading ε) : Nat × Reading ε :=
  (min (s.1 + gain s.2 b) cap, b)

/-- Saturating at every step and saturating once at the end agree. -/
theorem record_run (cap total : Nat) (a : Reading ε) (bs : List (Reading ε)) (h : total ≤ cap) :
    bs.foldl (record cap) (total, a) = (min (total + measured a bs) cap, latest a bs) := by
  induction bs generalizing total a with
  | nil => simp [measured, latest, h]
  | cons b bs ih =>
    rw [List.foldl_cons, record, ih _ _ (Nat.min_le_right _ _)]
    simp only [measured, latest, Prod.mk.injEq, and_true]
    omega

end Accumulator

end Meter
