import Mathlib.Data.Int.ConditionallyCompleteOrder
import Mathlib.Order.Monotone.Basic
import Mathlib.Tactic.IntervalCases

/-!
# The proleptic Gregorian calendar by months

Days are numbered from 1970-01-01, and months are numbered through all years,
so that the month after number `i` is `i + 1`.

* `firstDay_index_succ`: each month begins where the one before it ends;
* `monthOf_iff`: every day lies in exactly one month, the one `monthOf` finds.
-/

namespace Calendar

def isLeap (year : Int) : Bool :=
  year % 4 = 0 && (year % 100 != 0 || year % 400 = 0)

/-- The number of 1 January of `year`. -/
def daysBeforeYear (year : Int) : Int :=
  let p := year - 1
  365 * p + p / 4 - p / 100 + p / 400 - 719162

def yearLength (year : Int) : Int := if isLeap year then 366 else 365

theorem daysBeforeYear_succ (year : Int) :
    daysBeforeYear (year + 1) = daysBeforeYear year + yearLength year := by
  simp only [daysBeforeYear, yearLength, isLeap, Bool.and_eq_true, Bool.or_eq_true,
    decide_eq_true_eq, bne_iff_ne, ne_eq]
  split <;> omega

/-- The days of a year that pass before its month `month` begins. -/
def daysBeforeMonth (leap : Bool) (month : Nat) : Int :=
  let l : Int := if leap then 1 else 0
  match month with
  | 0 | 1 => 0
  | 2 => 31
  | 3 => 59 + l
  | 4 => 90 + l
  | 5 => 120 + l
  | 6 => 151 + l
  | 7 => 181 + l
  | 8 => 212 + l
  | 9 => 243 + l
  | 10 => 273 + l
  | 11 => 304 + l
  | 12 => 334 + l
  | _ => 365 + l

/-- A month of a year. The month number is one the calendar has. -/
structure YearMonth where
  year : Int
  month : Nat
  valid : 1 ≤ month ∧ month ≤ 12
  deriving DecidableEq

namespace YearMonth

/-- The number of the month, counted through all years. -/
def index (m : YearMonth) : Int := 12 * m.year + m.month - 1

def ofIndex (i : Int) : YearMonth :=
  ⟨i / 12, (i % 12).toNat + 1, by omega⟩

@[simp] theorem index_ofIndex (i : Int) : (ofIndex i).index = i := by
  simp only [index, ofIndex]
  omega

@[simp] theorem ofIndex_index (m : YearMonth) : ofIndex m.index = m := by
  obtain ⟨year, month, valid⟩ := m
  simp only [index, ofIndex, YearMonth.mk.injEq]
  omega

theorem index_injective {a b : YearMonth} (h : a.index = b.index) : a = b := by
  rw [← ofIndex_index a, h, ofIndex_index]

/-- The number of the first day of the month. -/
def firstDay (m : YearMonth) : Int :=
  daysBeforeYear m.year + daysBeforeMonth (isLeap m.year) m.month

def length (m : YearMonth) : Int :=
  daysBeforeMonth (isLeap m.year) (m.month + 1) - daysBeforeMonth (isLeap m.year) m.month

theorem length_bounds (m : YearMonth) : 28 ≤ m.length ∧ m.length ≤ 31 := by
  obtain ⟨year, month, lo, hi⟩ := m
  simp only [length]
  interval_cases month <;> cases isLeap year <;> decide

theorem firstDay_index_succ (i : Int) :
    (ofIndex (i + 1)).firstDay = (ofIndex i).firstDay + (ofIndex i).length := by
  by_cases h : i % 12 = 11
  · -- December: the next month opens the next year
    have hy : (i + 1) / 12 = i / 12 + 1 := by omega
    have hm : (i + 1) % 12 = 0 := by omega
    simp only [firstDay, length, ofIndex, hy, hm, h, daysBeforeYear_succ]
    simp only [daysBeforeMonth, yearLength, Int.reduceToNat, Nat.reduceAdd]
    split <;> omega
  · have hy : (i + 1) / 12 = i / 12 := by omega
    have hm : ((i + 1) % 12).toNat = (i % 12).toNat + 1 := by omega
    simp only [firstDay, length, ofIndex, hy, hm]
    omega

theorem firstDay_strictMono : StrictMono fun i => (ofIndex i).firstDay := by
  apply strictMono_int_of_lt_succ
  intro i
  have := (ofIndex i).length_bounds
  simp only [firstDay_index_succ]
  omega

theorem firstDay_le {a b : YearMonth} (h : a.index ≤ b.index) : a.firstDay ≤ b.firstDay := by
  have := firstDay_strictMono.monotone h
  simpa using this

end YearMonth

/-- The year of day `d`. Four hundred years have 146097 days, so the quotient
is the year or the one before it. -/
def yearOf (d : Int) : Int :=
  let p := (d + 719162) * 400 / 146097
  if daysBeforeYear (p + 2) ≤ d then p + 2 else p + 1

theorem yearOf_spec (d : Int) :
    daysBeforeYear (yearOf d) ≤ d ∧ d < daysBeforeYear (yearOf d + 1) := by
  unfold yearOf
  generalize hp : (d + 719162) * 400 / 146097 = p
  dsimp only
  split
  · rename_i h
    refine ⟨h, ?_⟩
    simp only [daysBeforeYear] at h ⊢
    omega
  · rename_i h
    refine ⟨?_, by rw [Int.add_assoc]; exact Int.not_le.mp h⟩
    simp only [daysBeforeYear]
    omega

/-- The last month up to `month` that has begun by day `n` of its year. -/
def monthUpTo (leap : Bool) (n : Int) : Nat → Nat
  | 0 => 1
  | month + 1 =>
    if daysBeforeMonth leap (month + 1) ≤ n then month + 1 else monthUpTo leap n month

theorem monthUpTo_valid (leap : Bool) (n : Int) (month : Nat) :
    1 ≤ monthUpTo leap n month ∧ monthUpTo leap n month ≤ max month 1 := by
  induction month with
  | zero => simp [monthUpTo]
  | succ month ih =>
    simp only [monthUpTo]
    split <;> omega

theorem monthUpTo_spec (leap : Bool) (n : Int) (month : Nat) (lo : 0 ≤ n)
    (hi : n < daysBeforeMonth leap (month + 1)) :
    daysBeforeMonth leap (monthUpTo leap n month) ≤ n ∧
    n < daysBeforeMonth leap (monthUpTo leap n month + 1) := by
  induction month with
  | zero => exact absurd hi (by simpa [daysBeforeMonth] using lo)
  | succ month ih =>
    simp only [monthUpTo]
    split
    · rename_i h
      exact ⟨h, hi⟩
    · rename_i h
      exact ih (Int.not_le.mp h)

/-- The month of day `n` of a year, counted from zero. -/
def monthOfYear (leap : Bool) (n : Int) : Nat := monthUpTo leap n 12

/-- The month day `d` lies in. -/
def monthOf (d : Int) : YearMonth :=
  ⟨yearOf d, monthOfYear (isLeap (yearOf d)) (d - daysBeforeYear (yearOf d)), monthUpTo_valid _ _ 12⟩

theorem monthOf_spec (d : Int) :
    (monthOf d).firstDay ≤ d ∧ d < (monthOf d).firstDay + (monthOf d).length := by
  have hy := yearOf_spec d
  have hn := monthUpTo_spec (isLeap (yearOf d)) (d - daysBeforeYear (yearOf d)) 12 (by omega) (by
    have := daysBeforeYear_succ (yearOf d)
    have hl : daysBeforeMonth (isLeap (yearOf d)) (12 + 1) = yearLength (yearOf d) := by
      simp only [daysBeforeMonth, yearLength]
      split <;> rfl
    omega)
  simp only [monthOf, monthOfYear, YearMonth.firstDay, YearMonth.length]
  omega

theorem firstDay_add_length (m : YearMonth) :
    m.firstDay + m.length = (YearMonth.ofIndex (m.index + 1)).firstDay := by
  rw [YearMonth.firstDay_index_succ, YearMonth.ofIndex_index]

/-- Each day lies in exactly one month. -/
theorem monthOf_iff (d : Int) (m : YearMonth) :
    monthOf d = m ↔ m.firstDay ≤ d ∧ d < m.firstDay + m.length := by
  constructor
  · rintro rfl
    exact monthOf_spec d
  · rintro ⟨lo, hi⟩
    have hd := monthOf_spec d
    rw [firstDay_add_length] at hi hd
    apply YearMonth.index_injective
    apply Int.le_antisymm
    · by_contra hlt
      have := YearMonth.firstDay_le (a := .ofIndex (m.index + 1)) (b := monthOf d)
        (by simp; omega)
      omega
    · by_contra hlt
      have := YearMonth.firstDay_le (a := .ofIndex ((monthOf d).index + 1)) (b := m)
        (by simp; omega)
      omega

theorem firstDay_le_iff (d : Int) (m : YearMonth) :
    m.firstDay ≤ d ↔ m.index ≤ (monthOf d).index := by
  have hd := monthOf_spec d
  rw [firstDay_add_length] at hd
  constructor
  · intro h
    by_contra hlt
    have := YearMonth.firstDay_le (a := .ofIndex ((monthOf d).index + 1)) (b := m)
      (by simp; omega)
    omega
  · intro h
    have := YearMonth.firstDay_le h
    omega

/-- Thirty-two days after a month begins, the next month has begun and is not
over. -/
theorem monthOf_firstDay_add (m : YearMonth) :
    monthOf (m.firstDay + 32) = .ofIndex (m.index + 1) := by
  have := m.length_bounds
  have := (YearMonth.ofIndex (m.index + 1)).length_bounds
  have := firstDay_add_length m
  rw [monthOf_iff]
  omega

example : monthOf 19782 = ⟨2024, 2, by decide⟩ := by decide

end Calendar
