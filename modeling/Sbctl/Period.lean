import Sbctl.Validate
import Sbctl.Lib.Tiling

/-!
# Accounting periods

Traffic is accounted by periods of about a month. A period starts at a reset
and lasts until the next one. Natural resets fall on the first midnight of a
month, anchored ones on a chosen day, hour and minute.

* `localDatetime_spec`: which instant a wall-clock time resolves to;
* `naturalBounds_eq`, `anchoredBounds_eq`: the period computed from an instant
  is the one that the resets of a schedule cut out around it.
-/

namespace Sbctl
open Clock Calendar

inductive TrafficError where
  | counters (message : String)
  | invalidCounter (name : String)
  | bootId (message : String)
  | storage (error : ConfigError)
  | schedule (message : String)
  | noDefaultRoute
  | stateMissing
  | stateStale
  | overflow (message : String)
  deriving DecidableEq, Repr

structure AccountingPeriod where
  cycleKey : String
  identity : String
  nextReset : Int
  deriving DecidableEq, Repr

def AccountingPeriod.active (identity : String) (nextReset : Int) : AccountingPeriod where
  cycleKey := identity
  identity := identity
  nextReset := nextReset

/-- Walks forward by whole hours until some instant shows the time. -/
def firstShown (zone : Zone) (naive : Int) : List Nat → Option Int
  | [] => none
  | shift :: shifts =>
    match checkedAddSigned naive (shift * hour) with
    | none => none
    | some shifted => (zone.fromLocal shifted).earliest.or (firstShown zone naive shifts)

def naiveDateTime (year : Int) (month dayOfMonth hours minutes : Nat) : Option Int :=
  (fromYmdOpt year month dayOfMonth).bind (andHmsOpt · hours minutes)

/-- Resolves a wall-clock time. A repeated time is its earlier instant, a
skipped one is moved forward hour by hour until it exists. -/
def localDatetime (zone : Zone) (year : Int) (month dayOfMonth hours minutes : Nat) :
    Except TrafficError Int :=
  match naiveDateTime year month dayOfMonth hours minutes with
  | none => .error (.schedule "reset time is not a valid date")
  | some naive =>
    match (zone.fromLocal naive).earliest with
    | some value => .ok value
    | none =>
      match firstShown zone naive [1, 2, 3] with
      | some value => .ok value
      | none => .error (.schedule "reset time does not exist in the accounting timezone")

/-- The last day of the month that begins on `first`. -/
def lastDayFrom (first : Int) : Option Int :=
  (checkedAddDays first 32).bind fun crossed => checkedAddDays (monthOf crossed).firstDay (-1)

def dayNumber (d : Int) : Nat := (d - (monthOf d).firstDay + 1).toNat

def anchoredDatetime (zone : Zone) (year : Int) (month requestedDay hours minutes : Nat) :
    Except TrafficError Int :=
  match fromYmdOpt year month 1 with
  | none => .error (.schedule "invalid reset month")
  | some first =>
    match lastDayFrom first with
    | none => .error (.schedule "reset month is outside the supported date range")
    | some lastDay =>
      localDatetime zone year month (min requestedDay (dayNumber lastDay)) hours minutes

def nextMonth (year : Int) (month : Nat) : Int × Nat :=
  if month = 12 then (year + 1, 1) else (year, month + 1)

def previousMonth (year : Int) (month : Nat) : Int × Nat :=
  if month = 1 then (year - 1, 12) else (year, month - 1)

/-- The reset a natural month begins with. -/
def naturalReset (zone : Zone) (month : Int × Nat) : Except TrafficError Int :=
  localDatetime zone month.1 month.2 1 0 0

/-- The reset an anchored schedule has in a month. -/
def anchoredReset (zone : Zone) (reset : NaiveDateTime) (month : Int × Nat) :
    Except TrafficError Int :=
  anchoredDatetime zone month.1 month.2 reset.dayOfMonth reset.hour reset.minute

def naturalBounds (zone : Zone) (now : Int) : Except TrafficError (Int × Int) := do
  let localNow := zone.monthAt now
  let start ← naturalReset zone (localNow.year, localNow.month)
  let next ← naturalReset zone (nextMonth localNow.year localNow.month)
  pure (start, next)

def anchoredStart (zone : Zone) (reset : NaiveDateTime) (now : Int) : Except TrafficError Int := do
  let localNow := zone.monthAt now
  let candidate ← anchoredReset zone reset (localNow.year, localNow.month)
  if now < candidate then anchoredReset zone reset (previousMonth localNow.year localNow.month)
  else pure candidate

def anchoredBounds (zone : Zone) (reset : NaiveDateTime) (now : Int) :
    Except TrafficError (Int × Int) := do
  let firstReset ←
    localDatetime zone reset.year reset.month reset.dayOfMonth reset.hour reset.minute
  let start ← anchoredStart zone reset now
  let startMonth := zone.monthAt start
  let scheduledNext ← anchoredReset zone reset (nextMonth startMonth.year startMonth.month)
  -- the nearer of the schedule's boundary and the first anchor ends the period
  pure (start, if now < firstReset then min scheduledNext firstReset else scheduledNext)

/-- The start of the period `now` lies in, and the next reset. -/
def accountingBounds (lib : Libraries) (config : DeploymentConfig) (zone : Zone) (now : Int) :
    Except TrafficError (Int × Int) :=
  match config.accountingPolicy with
  | .naturalMonth => naturalBounds zone now
  | .anchoredMonth =>
    match config.anchoredResetAt with
    | none => .error (.schedule "anchored reset is missing")
    | some resetAt =>
      match lib.parseNaiveDateTime resetAt with
      | none => .error (.schedule "anchored reset time is invalid")
      | some reset => anchoredBounds zone reset now

/-- The text that names the period starting at an instant. -/
def startKey (lib : Libraries) (zone : Zone) (start : Int) : String :=
  lib.toRfc3339 (zone.localTime start) (zone.offset start)

def accountingPeriod (lib : Libraries) (config : DeploymentConfig) (now : Int) :
    Except TrafficError AccountingPeriod :=
  match lib.parseTz config.accountingTimezone with
  | none => .error (.schedule "accounting timezone is invalid")
  | some zone =>
    (accountingBounds lib config zone now).map fun (start, next) =>
      .active (startKey lib zone start) next

/-! ## Months -/

/-- The months in the order of their numbers, as the schedule names them. -/
def monthName (i : Int) : Int × Nat := ((YearMonth.ofIndex i).year, (YearMonth.ofIndex i).month)

@[simp] theorem monthName_index (m : YearMonth) : monthName m.index = (m.year, m.month) := by
  simp [monthName]

@[simp] theorem nextMonth_eq (m : YearMonth) :
    nextMonth m.year m.month = monthName (m.index + 1) := by
  obtain ⟨year, month, valid⟩ := m
  simp only [nextMonth, monthName, YearMonth.ofIndex, YearMonth.index]
  split <;> simp only [Prod.mk.injEq] <;> omega

@[simp] theorem previousMonth_eq (m : YearMonth) :
    previousMonth m.year m.month = monthName (m.index - 1) := by
  obtain ⟨year, month, valid⟩ := m
  simp only [previousMonth, monthName, YearMonth.ofIndex, YearMonth.index]
  split <;> simp only [Prod.mk.injEq] <;> omega

/-! ## Resolving wall-clock times -/

theorem firstShown_some {zone : Zone} {naive t : Int} {from' n : Nat}
    (h : firstShown zone naive (List.range' from' n) = some t) :
    ∃ k : Nat, from' ≤ k ∧ k < from' + n ∧
      (∀ j : Nat, from' ≤ j → j < k → ∀ u, zone.localTime u ≠ naive + j * hour) ∧
      IsLeast {u | zone.localTime u = naive + k * hour} t := by
  induction n generalizing from' with
  | zero => cases h
  | succ n ih =>
    rw [List.range'_succ, firstShown] at h
    cases hs : checkedAddSigned naive (from' * hour) with
    | none => simp [hs] at h
    | some shifted =>
      have hshift := (checkedAddSigned_eq_some hs).symm
      simp only [hs] at h
      cases he : (zone.fromLocal shifted).earliest with
      | some v =>
        rw [he, Option.some_or] at h
        obtain rfl := Option.some.inj h
        refine ⟨from', le_rfl, by omega, fun j _ _ => by omega, ?_⟩
        rw [hshift]
        exact (zone.earliest_eq_some_iff _ _).mp he
      | none =>
        rw [he, Option.none_or] at h
        obtain ⟨k, hlo, hhi, hskip, hleast⟩ := ih h
        refine ⟨k, by omega, by omega, fun j hj hjk => ?_, hleast⟩
        rcases Nat.eq_or_lt_of_le hj with rfl | hj
        · rw [hshift]
          exact (zone.earliest_eq_none_iff _).mp he
        · exact hskip j hj hjk

/-- A wall-clock time resolves to the first instant that shows it or, when no
instant does, shows the time a few whole hours later. -/
theorem localDatetime_spec {zone : Zone} {year : Int} {month d hours minutes : Nat} {t : Int}
    (h : localDatetime zone year month d hours minutes = .ok t) :
    ∃ naive, naiveDateTime year month d hours minutes = some naive ∧ ∃ k : Nat, k ≤ 3 ∧
      (∀ j : Nat, j < k → ∀ u, zone.localTime u ≠ naive + j * hour) ∧
      IsLeast {u | zone.localTime u = naive + k * hour} t := by
  unfold localDatetime at h
  cases hn : naiveDateTime year month d hours minutes with
  | none => simp [hn] at h
  | some naive =>
    refine ⟨naive, rfl, ?_⟩
    simp only [hn] at h
    cases he : (zone.fromLocal naive).earliest with
    | some v =>
      simp only [he, Except.ok.injEq] at h
      subst h
      refine ⟨0, by omega, fun j hj => by omega, ?_⟩
      simpa using (zone.earliest_eq_some_iff _ _).mp he
    | none =>
      simp only [he] at h
      cases hf : firstShown zone naive [1, 2, 3] with
      | none => simp [hf] at h
      | some v =>
        simp only [hf, Except.ok.injEq] at h
        subst h
        obtain ⟨k, hlo, hhi, hskip, hleast⟩ := @firstShown_some zone naive v 1 3 hf
        refine ⟨k, by omega, fun j hj => ?_, hleast⟩
        rcases Nat.eq_zero_or_pos j with rfl | hj0
        · simpa using (zone.earliest_eq_none_iff _).mp he
        · exact hskip j hj0 hj

theorem naiveDateTime_some {year : Int} {month d hours minutes : Nat} {naive : Int}
    (h : naiveDateTime year month d hours minutes = some naive) :
    ∃ valid, monthOfLocal naive = ⟨year, month, valid⟩ ∧
      1 ≤ d ∧ (d : Int) ≤ (YearMonth.mk year month valid).length := by
  obtain ⟨date, hdate, htime⟩ := Option.bind_eq_some_iff.mp h
  obtain ⟨valid, hmonth, -, hd⟩ := fromYmdOpt_eq_some hdate
  exact ⟨valid, by rw [monthOfLocal, andHmsOpt_day htime, hmonth], hd⟩

/-- Resolving a wall-clock time does not leave its month. -/
theorem localDatetime_month {zone : Zone} (hz : zone.Regular) {m : YearMonth}
    {d hours minutes : Nat} {t : Int}
    (h : localDatetime zone m.year m.month d hours minutes = .ok t) : zone.monthAt t = m := by
  obtain ⟨naive, hnaive, k, hk, hskip, ht, -⟩ := localDatetime_spec h
  obtain ⟨_, hmonth, -⟩ := naiveDateTime_some hnaive
  obtain rfl : monthOfLocal naive = m := hmonth
  rw [Zone.monthAt, ht, monthOfLocal_eq_iff]
  have hnow := (monthOfLocal_eq_iff _ naive).mp rfl
  rcases Nat.eq_zero_or_pos k with rfl | hk0
  · simpa using hnow
  · -- the skipped interval around `naive` leaves three hours of its month
    obtain ⟨lo, hi, hs, hlo, hhi⟩ := hz.skips_of_unshown (by simpa using hskip 0 hk0)
    have hend := hz.skip_before_month_end lo hi hs
    have hle : (monthOfLocal lo).index ≤ (monthOfLocal naive).index := by
      rw [← midnight_le_iff]
      exact ((midnight_le_iff _ lo).mpr le_rfl).trans hlo
    have heq : (monthOfLocal lo).index = (monthOfLocal naive).index := by
      by_contra hne
      have := (midnight_le_iff (.ofIndex ((monthOfLocal lo).index + 1)) naive).mpr
        (by rw [YearMonth.index_ofIndex]; omega)
      simp only [hour_eq] at hend
      omega
    rw [heq] at hend
    simp only [hour_eq] at hend ⊢
    omega

/-- Nor does clamping the day to the length of the month. -/
theorem anchoredDatetime_eq {zone : Zone} {m : YearMonth} {d hours minutes : Nat} {t : Int}
    (h : anchoredDatetime zone m.year m.month d hours minutes = .ok t) :
    localDatetime zone m.year m.month (min d m.length.toNat) hours minutes = .ok t := by
  unfold anchoredDatetime at h
  cases hf : fromYmdOpt m.year m.month 1 with
  | none => simp [hf] at h
  | some first =>
    obtain ⟨valid, _, hfirst, _⟩ := fromYmdOpt_eq_some hf
    have hfirst : first = m.firstDay := by simpa using hfirst
    simp only [hf] at h
    cases hl : lastDayFrom first with
    | none => simp [hl] at h
    | some lastDay =>
      simp only [hl] at h
      have hlast : dayNumber lastDay = m.length.toNat := by
        have hlen := firstDay_add_length m
        have hbounds := m.length_bounds
        obtain ⟨crossed, hcrossed, hlast⟩ := Option.bind_eq_some_iff.mp hl
        obtain rfl := checkedAddDays_eq_some hcrossed
        obtain rfl := checkedAddDays_eq_some hlast
        rw [hfirst, monthOf_firstDay_add, ← hlen]
        have hm : monthOf (m.firstDay + m.length + -1) = m := by
          rw [monthOf_iff]
          omega
        rw [dayNumber, hm]
        omega
      rwa [hlast] at h

/-! ## The schedules -/

theorem Except.toOption_eq_some {ε α : Type} {x : Except ε α} {a : α} :
    x.toOption = some a ↔ x = .ok a := by
  cases x <;> simp [Except.toOption]

/-- The first midnights of the months. -/
def naturalSchedule (zone : Zone) (hz : zone.Regular) : Tiling.Schedule Int where
  cell t := (zone.monthAt t).index
  cell_mono h := hz.month_mono h
  mark i := (naturalReset zone (monthName i)).toOption
  cell_mark {i t} h := by
    rw [localDatetime_month (m := .ofIndex i) hz (Except.toOption_eq_some.mp h),
      YearMonth.index_ofIndex]

/-- The anchored resets of the months. -/
def anchoredSchedule (zone : Zone) (hz : zone.Regular) (reset : NaiveDateTime) :
    Tiling.Schedule Int where
  cell t := (zone.monthAt t).index
  cell_mono h := hz.month_mono h
  mark i := (anchoredReset zone reset (monthName i)).toOption
  cell_mark {i t} h := by
    have h' := anchoredDatetime_eq (m := .ofIndex i) (Except.toOption_eq_some.mp h)
    rw [localDatetime_month hz h', YearMonth.index_ofIndex]

/-- A natural month has begun at every instant in it. -/
theorem naturalReset_le {zone : Zone} (hz : zone.Regular) {now t : Int}
    (h : naturalReset zone ((zone.monthAt now).year, (zone.monthAt now).month) = .ok t) :
    t ≤ now := by
  obtain ⟨naive, hnaive, k, hk, hskip, hleast⟩ := localDatetime_spec h
  obtain ⟨first, hfirst, -, j, hj, hshows, hbefore⟩ := hz.month_begins now
  have hmid : naive = midnight (zone.monthAt now) := by
    obtain ⟨date, hdate, htime⟩ := Option.bind_eq_some_iff.mp hnaive
    obtain ⟨_, _, hd, _⟩ := fromYmdOpt_eq_some hdate
    simp [andHmsOpt] at htime hd
    rw [midnight, ← htime, hd]
  subst hmid
  obtain rfl : k = j := by
    apply Nat.le_antisymm
    · by_contra hlt
      exact hskip j (by omega) first hshows
    · by_contra hlt
      exact hbefore k (by omega) t hleast.1
  exact (hleast.2 hshows).trans hfirst

section
variable {zone : Zone} (hz : zone.Regular)

theorem naturalBounds_eq {now s n : Int} :
    naturalBounds zone now = .ok (s, n) ↔
      (naturalSchedule zone hz).period now = some (s, n) := by
  have hcell (t : Int) : (naturalSchedule zone hz).cell t = (zone.monthAt t).index := rfl
  have hmark (i t : Int) : (naturalSchedule zone hz).mark i = some t ↔
      naturalReset zone (monthName i) = .ok t := Except.toOption_eq_some
  have hmonth {t : Int} {m : YearMonth} (h : naturalReset zone (m.year, m.month) = .ok t) :
      zone.monthAt t = m := localDatetime_month hz h
  constructor
  · intro h
    simp only [naturalBounds, bind_ok, nextMonth_eq, pure, Except.pure, Except.ok.injEq,
      Prod.mk.injEq] at h
    obtain ⟨_, hs, _, hn, rfl, rfl⟩ := h
    refine Tiling.Schedule.period_iff.mpr ⟨(zone.monthAt now).index, ?_, ?_, ?_, ?_⟩
    · rwa [hmark, monthName_index]
    · rwa [hmark]
    · exact naturalReset_le hz hs
    · by_contra hle
      have := hz.month_mono (not_lt.mp hle)
      have hcells := (naturalSchedule zone hz).cell_mark ((hmark _ _).mpr hn)
      rw [hcell] at hcells
      simp only at this
      omega
  · intro h
    obtain ⟨i, hs, hn, hle, hlt⟩ := Tiling.Schedule.period_iff.mp h
    have lo := (naturalSchedule zone hz).cell_mono hle
    have hi := (naturalSchedule zone hz).cell_mono hlt.le
    rw [(naturalSchedule zone hz).cell_mark hs, hcell] at lo
    rw [(naturalSchedule zone hz).cell_mark hn, hcell] at hi
    rw [hmark] at hs hn
    -- the month of `now` is the one that began at `s`, for the next has not begun
    have hi : (zone.monthAt now).index = i := by
      by_contra hne
      have hnext : i + 1 = (zone.monthAt now).index := by omega
      rw [hnext, monthName_index] at hn
      exact (naturalReset_le hz hn).not_gt hlt
    subst hi
    rw [monthName_index] at hs
    simp only [naturalBounds, hs, nextMonth_eq, hn]
    rfl

theorem anchoredStart_eq {reset : NaiveDateTime} {now s : Int} :
    anchoredStart zone reset now = .ok s ↔
      (anchoredSchedule zone hz reset).start now = some s := by
  have hcell (t : Int) : (anchoredSchedule zone hz reset).cell t = (zone.monthAt t).index := rfl
  have hmark (i : Int) : (anchoredSchedule zone hz reset).mark i =
      (anchoredReset zone reset (monthName i)).toOption := rfl
  simp only [Tiling.Schedule.start, hcell, hmark, anchoredStart, monthName_index,
    previousMonth_eq]
  cases anchoredReset zone reset ((zone.monthAt now).year, (zone.monthAt now).month) with
  | error e => simp [bind, Except.bind, Except.toOption]
  | ok candidate =>
    simp only [bind, Except.bind, Except.toOption, Option.bind_some]
    split
    · exact Except.toOption_eq_some.symm
    · simp [pure, Except.pure]

include hz in
/-- The first anchor is the reset of its own month. -/
theorem anchoredReset_first {reset : NaiveDateTime} {first t : Int} {m : YearMonth}
    (hfirst : localDatetime zone reset.year reset.month reset.dayOfMonth reset.hour
      reset.minute = .ok first)
    (hm : m = zone.monthAt first) (ht : anchoredReset zone reset (m.year, m.month) = .ok t) :
    t = first := by
  obtain ⟨naive, hnaive, -⟩ := localDatetime_spec hfirst
  obtain ⟨valid, hmonth, hd, hlen⟩ := naiveDateTime_some hnaive
  obtain rfl : m = ⟨reset.year, reset.month, valid⟩ :=
    hm.trans (localDatetime_month (m := ⟨reset.year, reset.month, valid⟩) hz hfirst)
  have ht := anchoredDatetime_eq (m := ⟨reset.year, reset.month, valid⟩) ht
  rw [min_eq_left (by omega), hfirst] at ht
  exact (Except.ok.inj ht).symm

theorem anchoredBounds_eq {reset : NaiveDateTime} {first now s n : Int}
    (hfirst : localDatetime zone reset.year reset.month reset.dayOfMonth reset.hour
      reset.minute = .ok first) :
    anchoredBounds zone reset now = .ok (s, n) ↔
      (anchoredSchedule zone hz reset).period now = some (s, n) := by
  have hcell (t : Int) : (anchoredSchedule zone hz reset).cell t = (zone.monthAt t).index := rfl
  have hmark (i t : Int) : (anchoredSchedule zone hz reset).mark i = some t ↔
      anchoredReset zone reset (monthName i) = .ok t := Except.toOption_eq_some
  -- before the first anchor, no boundary of the schedule lies beyond it
  have hnear (s n : Int) (h : (anchoredSchedule zone hz reset).period now = some (s, n)) :
      (if now < first then min n first else n) = n := by
    obtain ⟨i, hs, hn, hle, hlt⟩ := Tiling.Schedule.period_iff.mp h
    split
    · rename_i hbefore
      refine min_eq_left (not_lt.mp fun hnear => ?_)
      have lo := (anchoredSchedule zone hz reset).cell_mono (hle.trans hbefore.le)
      have hi := (anchoredSchedule zone hz reset).cell_mono hnear.le
      rw [(anchoredSchedule zone hz reset).cell_mark hs, hcell] at lo
      rw [(anchoredSchedule zone hz reset).cell_mark hn, hcell] at hi
      rw [hmark] at hs hn
      have : i = (zone.monthAt first).index ∨ i + 1 = (zone.monthAt first).index := by omega
      rcases this with hi | hi
      · rw [hi, monthName_index] at hs
        have := anchoredReset_first hz hfirst rfl hs
        omega
      · rw [hi, monthName_index] at hn
        have := anchoredReset_first hz hfirst rfl hn
        omega
    · rfl
  have hbounds : anchoredBounds zone reset now = .ok (s, n) ↔
      ∃ next, (anchoredSchedule zone hz reset).period now = some (s, next) ∧
        (if now < first then min next first else next) = n := by
    simp only [anchoredBounds, hfirst, bind_ok, nextMonth_eq, pure, Except.pure, Except.ok.injEq,
      Prod.mk.injEq, Tiling.Schedule.period, Option.bind_eq_some_iff, Option.map_eq_some_iff,
      anchoredStart_eq hz, hmark, hcell]
    grind
  rw [hbounds]
  constructor
  · rintro ⟨next, h, rfl⟩
    rwa [hnear s next h]
  · intro h
    exact ⟨n, h, hnear s n h⟩

end

end Sbctl
