import Sbctl.Lib.Calendar
import Mathlib.Data.Int.LeastGreatest
import Mathlib.Order.Bounds.Basic

/-!
# Wall clocks

Instants and local times are counted in nanoseconds from 1970-01-01T00:00:00.
A zone gives each instant its UTC offset, with no condition on how the offset
changes, and turns a local time back into the instants that show it.

`Regular` collects what a monthly schedule needs of a zone. Under it,
`Regular.month_begins` finds the first instant of a month from the month's
first midnight, even where the clock jumps over that midnight.
-/

namespace Clock
open Calendar

def second : Int := 1000000000
def minute : Int := 60 * second
def hour : Int := 60 * minute
def day : Int := 24 * hour

theorem hour_eq : hour = 3600000000000 := rfl

/-- The month a local time lies in. -/
def monthOfLocal (l : Int) : YearMonth := monthOf (l / day)

/-- The local time at which a month begins. -/
def midnight (m : YearMonth) : Int := m.firstDay * day

theorem midnight_le_iff (m : YearMonth) (l : Int) :
    midnight m ≤ l ↔ m.index ≤ (monthOfLocal l).index := by
  rw [monthOfLocal, ← firstDay_le_iff, midnight]
  exact (Int.le_ediv_iff_mul_le (by decide)).symm

theorem monthOfLocal_eq_iff (m : YearMonth) (l : Int) :
    monthOfLocal l = m ↔ midnight m ≤ l ∧ l < midnight (.ofIndex (m.index + 1)) := by
  rw [midnight_le_iff, ← Int.not_le, midnight_le_iff, YearMonth.index_ofIndex]
  constructor
  · rintro rfl
    omega
  · intro h
    exact YearMonth.index_injective (by omega)

/-! ## The dates a calendar type can hold -/

def minYear : Int := -262143
def maxYear : Int := 262142

def InRange (d : Int) : Prop := daysBeforeYear minYear ≤ d ∧ d < daysBeforeYear (maxYear + 1)

instance (d : Int) : Decidable (InRange d) := by unfold InRange; infer_instance

/-- The day with this year, month and day of the month, if there is one. -/
def fromYmdOpt (year : Int) (month dayOfMonth : Nat) : Option Int :=
  if h : 1 ≤ month ∧ month ≤ 12 then
    let m : YearMonth := ⟨year, month, h⟩
    if minYear ≤ year ∧ year ≤ maxYear ∧ 1 ≤ dayOfMonth ∧ (dayOfMonth : Int) ≤ m.length then
      some (m.firstDay + dayOfMonth - 1)
    else none
  else none

def andHmsOpt (d : Int) (hours minutes : Nat) : Option Int :=
  if hours < 24 ∧ minutes < 60 then some (d * day + hours * hour + minutes * minute) else none

/-- A day moved by a number of days, if the result can still be held. -/
def checkedAddDays (d n : Int) : Option Int := if InRange (d + n) then some (d + n) else none

theorem checkedAddDays_eq_some {d n e : Int} (h : checkedAddDays d n = some e) : e = d + n := by
  unfold checkedAddDays at h
  split at h
  · exact (Option.some.inj h).symm
  · cases h

/-- A local time moved by a duration, if the result can still be held. -/
def checkedAddSigned (l duration : Int) : Option Int :=
  if InRange ((l + duration) / day) then some (l + duration) else none

theorem checkedAddSigned_eq_some {l duration e : Int}
    (h : checkedAddSigned l duration = some e) : e = l + duration := by
  unfold checkedAddSigned at h
  split at h
  · exact (Option.some.inj h).symm
  · cases h

theorem fromYmdOpt_eq_some {year : Int} {month dayOfMonth : Nat} {d : Int}
    (h : fromYmdOpt year month dayOfMonth = some d) :
    ∃ valid : 1 ≤ month ∧ month ≤ 12, monthOf d = ⟨year, month, valid⟩ ∧
      d = (YearMonth.mk year month valid).firstDay + dayOfMonth - 1 ∧
      1 ≤ dayOfMonth ∧ (dayOfMonth : Int) ≤ (YearMonth.mk year month valid).length := by
  unfold fromYmdOpt at h
  split at h
  · rename_i valid
    dsimp only at h
    split at h
    · rename_i hr
      obtain rfl := Option.some.inj h
      refine ⟨valid, ?_, rfl, hr.2.2⟩
      rw [monthOf_iff]
      omega
    · cases h
  · cases h

/-- A time of day does not leave its day. -/
theorem andHmsOpt_day {d l : Int} {hours minutes : Nat} (h : andHmsOpt d hours minutes = some l) :
    l / day = d := by
  unfold andHmsOpt at h
  split at h
  · obtain rfl := Option.some.inj h
    simp only [day, hour, minute, second]
    omega
  · cases h

/-- The instants that show one local time. -/
inductive LocalResult where
  | none
  | single (value : Int)
  | ambiguous (earliest latest : Int)
  deriving DecidableEq, Repr

def LocalResult.earliest : LocalResult → Option Int
  | none => .none
  | single value => some value
  | ambiguous earliest _ => some earliest

/-- A time zone. Its inverse reports no instant, the only one, or the first
and the last of several. -/
structure Zone where
  offset : Int → Int
  fromLocal : Int → LocalResult
  fromLocal_spec : ∀ l, match fromLocal l with
    | .none => ∀ u, u + offset u ≠ l
    | .single t => t + offset t = l ∧ ∀ u, u + offset u = l → u = t
    | .ambiguous a b => a < b ∧ a + offset a = l ∧ b + offset b = l ∧
        ∀ u, u + offset u = l → a ≤ u ∧ u ≤ b

namespace Zone

/-- The zone without an offset. -/
def utc : Zone where
  offset := fun _ => 0
  fromLocal := .single
  fromLocal_spec := fun l => ⟨l.add_zero, fun u hu => by omega⟩

def localTime (z : Zone) (t : Int) : Int := t + z.offset t

def monthAt (z : Zone) (t : Int) : YearMonth := monthOfLocal (z.localTime t)

theorem earliest_eq_some_iff (z : Zone) (l t : Int) :
    (z.fromLocal l).earliest = some t ↔ IsLeast {u | z.localTime u = l} t := by
  have h := z.fromLocal_spec l
  simp only [IsLeast, lowerBounds, Set.mem_ofPred_eq, localTime]
  cases hl : z.fromLocal l with
  | none =>
    simp only [hl] at h
    simp only [LocalResult.earliest, reduceCtorEq, false_iff]
    exact fun hc => h t hc.1
  | single v =>
    simp only [hl] at h
    simp only [LocalResult.earliest, Option.some.injEq]
    constructor
    · rintro rfl
      exact ⟨h.1, fun u hu => (h.2 u hu).ge⟩
    · exact fun hc => (h.2 t hc.1).symm
  | ambiguous a b =>
    simp only [hl] at h
    simp only [LocalResult.earliest, Option.some.injEq]
    constructor
    · rintro rfl
      exact ⟨h.2.1, fun u hu => (h.2.2.2 u hu).1⟩
    · exact fun hc => Int.le_antisymm (h.2.2.2 t hc.1).1 (hc.2 h.2.1)

theorem earliest_eq_none_iff (z : Zone) (l : Int) :
    (z.fromLocal l).earliest = none ↔ ∀ u, z.localTime u ≠ l := by
  have h := z.fromLocal_spec l
  simp only [localTime]
  cases hl : z.fromLocal l with
  | none => simp only [hl] at h; simpa [LocalResult.earliest] using h
  | single v =>
    simp only [hl] at h
    simp only [LocalResult.earliest, reduceCtorEq, false_iff, not_forall, not_not]
    exact ⟨v, h.1⟩
  | ambiguous a b =>
    simp only [hl] at h
    simp only [LocalResult.earliest, reduceCtorEq, false_iff, not_forall, not_not]
    exact ⟨a, h.2.1⟩

/-- The clock jumps at some instant from `lo` to `hi`. -/
def Skips (z : Zone) (lo hi : Int) : Prop :=
  ∃ t, z.localTime (t - 1) + 1 = lo ∧ z.localTime t = hi ∧ lo < hi

/-- What the schedule assumes of a zone. Offsets stay below a day and months
never go back. What the clock skips is at most three hours long and ends three
hours before the month does; over the first midnight of a month it skips whole
hours, and does not come back to show them. -/
structure Regular (z : Zone) : Prop where
  offset_lt_day : ∀ t, -day < z.offset t ∧ z.offset t < day
  month_mono : Monotone fun t => (z.monthAt t).index
  skip_short : ∀ lo hi, z.Skips lo hi → hi ≤ lo + 3 * hour
  skip_before_month_end : ∀ lo hi, z.Skips lo hi →
    hi + 3 * hour ≤ midnight (.ofIndex ((monthOfLocal lo).index + 1))
  skip_over_midnight : ∀ lo hi m, z.Skips lo hi → lo ≤ midnight m → midnight m < hi →
    (hi - midnight m) % hour = 0 ∧ ∀ l, midnight m ≤ l → l < hi → ∀ u, z.localTime u ≠ l

section
variable {z : Zone}

/-- The first instant whose local time has reached `l`. -/
theorem Regular.exists_reach (h : z.Regular) (l : Int) (p : Int → Prop)
    (hp : ∀ t, p t → l ≤ z.localTime t) (hex : ∃ t, p t) :
    ∃ t, p t ∧ ∀ u, p u → t ≤ u := by
  classical
  obtain ⟨t, ht, hmin⟩ := Int.exists_least_of_bdd (P := p) ⟨l - day, fun u hu => by
    have := hp u hu
    have := (h.offset_lt_day u).2
    simp only [localTime] at *
    omega⟩ hex
  exact ⟨t, ht, hmin⟩

/-- A local time nobody shows lies in a skipped interval. -/
theorem Regular.skips_of_unshown (h : z.Regular) {l : Int} (hl : ∀ u, z.localTime u ≠ l) :
    ∃ lo hi, z.Skips lo hi ∧ lo ≤ l ∧ l < hi := by
  obtain ⟨t, ht, hmin⟩ := h.exists_reach l (fun t => l ≤ z.localTime t) (fun _ => id)
    ⟨l + day, by have := (h.offset_lt_day (l + day)).1; simp only [localTime]; omega⟩
  have hbefore : z.localTime (t - 1) < l := by
    by_contra hc
    have := hmin (t - 1) (by omega)
    omega
  have := hl t
  exact ⟨_, _, ⟨t, rfl, rfl, by omega⟩, by omega, by omega⟩

/-- Every month some instant lies in begins at a first instant, and the clock
shows there the month's first midnight or a whole number of hours after it,
having skipped the hours between. -/
theorem Regular.month_begins (h : z.Regular) (now : Int) :
    ∃ t, t ≤ now ∧ (∀ u, (z.monthAt now).index ≤ (z.monthAt u).index → t ≤ u) ∧
      ∃ k : Nat, k ≤ 3 ∧ z.localTime t = midnight (z.monthAt now) + k * hour ∧
        ∀ j : Nat, j < k → ∀ u, z.localTime u ≠ midnight (z.monthAt now) + j * hour := by
  generalize hm : z.monthAt now = m
  obtain ⟨t, ht, hmin⟩ := h.exists_reach (midnight m) (fun t => midnight m ≤ z.localTime t)
    (fun _ => id) ⟨now, by rw [midnight_le_iff, ← hm]; exact le_rfl⟩
  have hnow : t ≤ now := hmin now (by rw [midnight_le_iff, ← hm]; exact le_rfl)
  refine ⟨t, hnow, fun u hu => hmin u (by rwa [midnight_le_iff]), ?_⟩
  rcases Int.lt_or_eq_of_le ht with hlt | heq
  · -- the clock jumps over the midnight, so it lands whole hours after it
    have hbefore : z.localTime (t - 1) < midnight m := by
      by_contra hc
      have := hmin (t - 1) (by omega)
      omega
    have hskip : z.Skips (z.localTime (t - 1) + 1) (z.localTime t) := ⟨t, rfl, rfl, by omega⟩
    have hshort := h.skip_short _ _ hskip
    obtain ⟨hwhole, hun⟩ := h.skip_over_midnight _ _ m hskip (by omega) hlt
    refine ⟨((z.localTime t - midnight m) / hour).toNat, ?_, ?_, fun j hj => hun _ ?_ ?_⟩
    all_goals simp only [hour_eq] at *
    all_goals omega
  · exact ⟨0, by omega, by rw [← heq]; simp, fun j hj => absurd hj (by omega)⟩

end

end Zone

end Clock
