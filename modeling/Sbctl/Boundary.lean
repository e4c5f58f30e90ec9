import Sbctl.Sampling

/-!
# Accounting periods tile time

* `accountingSchedule`: an accepted configuration accounts by a schedule;
* `periods_tile`: its periods follow each other without gap or overlap, are
  told apart by their keys, and the reset task starts a new baseline exactly
  when the reported next reset has come.
-/

namespace Sbctl
open Clock

section
variable {lib : Libraries} {config : DeploymentConfig} {zone : Zone}

/-- Validation resolves an anchored reset to a single instant. -/
theorem validateAnchoredReset_ok {reset : NaiveDateTime}
    (h : validateAnchoredResetLocalTime zone reset = .ok ()) :
    ∃ first, localDatetime zone reset.year reset.month reset.dayOfMonth reset.hour
      reset.minute = .ok first := by
  unfold validateAnchoredResetLocalTime withYmdAndHms at h
  unfold localDatetime naiveDateTime
  cases hnaive : (fromYmdOpt reset.year reset.month reset.dayOfMonth).bind
      (andHmsOpt · reset.hour reset.minute) with
  | none =>
    rw [hnaive] at h
    cases h
  | some naive =>
    rw [hnaive] at h
    dsimp only at h ⊢
    cases hlocal : zone.fromLocal naive with
    | none =>
      rw [hlocal] at h
      cases h
    | single value => exact ⟨value, rfl⟩
    | ambiguous earliest latest =>
      rw [hlocal] at h
      cases h

theorem accepted_accounting (h : Accepted lib config)
    (hzone : lib.parseTz config.accountingTimezone = some zone) :
    validateAccountingPolicy lib config zone = .ok () := by
  obtain ⟨-, -, -, haccounting, -⟩ := accepted_iff.mp h
  simp only [validateSecretAndAccounting, check_ok, hzone] at haccounting
  exact haccounting.2.2.2

/-- An accepted configuration accounts by a schedule. -/
theorem accountingSchedule (h : Accepted lib config)
    (hzone : lib.parseTz config.accountingTimezone = some zone) (hz : zone.Regular) :
    ∃ S : Tiling.Schedule Int, (∀ t, S.cell t = (zone.monthAt t).index) ∧ ∀ now s n,
      accountingBounds lib config zone now = .ok (s, n) ↔ S.period now = some (s, n) := by
  have hpolicy := accepted_accounting h hzone
  cases hp : config.accountingPolicy with
  | naturalMonth =>
    refine ⟨naturalSchedule zone hz, fun _ => rfl, fun now s n => ?_⟩
    simp only [accountingBounds, hp, naturalBounds_eq hz]
  | anchoredMonth =>
    simp only [validateAccountingPolicy, hp] at hpolicy
    cases hat : config.anchoredResetAt with
    | none => simp [hat] at hpolicy
    | some resetAt =>
      simp only [hat] at hpolicy
      cases hreset : lib.parseNaiveDateTime resetAt with
      | none => simp [hreset] at hpolicy
      | some reset =>
        simp only [hreset] at hpolicy
        obtain ⟨first, hfirst⟩ := validateAnchoredReset_ok hpolicy
        refine ⟨anchoredSchedule zone hz reset, fun _ => rfl, fun now s n => ?_⟩
        simp only [accountingBounds, hp, hat, hreset, anchoredBounds_eq hz hfirst]

theorem accountingPeriod_ok (hzone : lib.parseTz config.accountingTimezone = some zone)
    {now : Int} {period : AccountingPeriod} :
    accountingPeriod lib config now = .ok period ↔
      ∃ s n, accountingBounds lib config zone now = .ok (s, n) ∧
        period = .active (startKey lib zone s) n := by
  simp only [accountingPeriod, hzone]
  cases accountingBounds lib config zone now with
  | error e => simp [Except.map]
  | ok bounds =>
    obtain ⟨s, n⟩ := bounds
    simp only [Except.map, Except.ok.injEq, Prod.mk.injEq]
    constructor
    · rintro rfl
      exact ⟨s, n, ⟨rfl, rfl⟩, rfl⟩
    · rintro ⟨_, _, ⟨rfl, rfl⟩, rfl⟩
      rfl

/-- Some period starts or ends at `b`. -/
def PeriodBoundary (lib : Libraries) (config : DeploymentConfig) (zone : Zone) (b : Int) : Prop :=
  ∃ now s n, accountingBounds lib config zone now = .ok (s, n) ∧ (b = s ∨ b = n)

/-- How the periods of a configuration lie in time. -/
structure PeriodsTile (lib : Libraries) (config : DeploymentConfig) (zone : Zone) : Prop where
  around : ∀ now s n, accountingBounds lib config zone now = .ok (s, n) → s ≤ now ∧ now < n
  constant : ∀ now s n, accountingBounds lib config zone now = .ok (s, n) →
    ∀ u, s ≤ u → u < n → accountingPeriod lib config u = accountingPeriod lib config now
  consecutive : ∀ now s n s' n', accountingBounds lib config zone now = .ok (s, n) →
    accountingBounds lib config zone n = .ok (s', n') → s' = n
  keys : ∀ t u p q, accountingPeriod lib config t = .ok p → accountingPeriod lib config u = .ok q →
    (p.cycleKey = q.cycleKey ↔
      ∀ b, PeriodBoundary lib config zone b → ¬ (min t u < b ∧ b ≤ max t u))
  /-- From inside a period, the reset task accumulates until the reported next
  reset and takes a new baseline from then on. -/
  rebaselines : ∀ {F : Type} [DecidableEq F] (codec : StateCodec F) file state now p runtime m,
    Holds codec file state → accountingPeriod lib config now = .ok p →
    state.cycleKey = p.cycleKey → state.interface = config.interface → now ≤ runtime.now →
    runtime.measurements = .ok m → ∀ contents report,
    resetWithRuntime codec lib config runtime file = .ok (contents, report) →
      contents = codec.encode (if runtime.now < p.nextReset then state.sample m
        else .new report.accountingPeriod config.interface m.bootId m.rx m.tx)

/-- The reset task samples a state of its own period and replaces any other. -/
theorem resetWithRuntime_contents {F : Type} [DecidableEq F] {codec : StateCodec F}
    {runtime : Runtime} {file : Option F} {state : TrafficState} {m : Measurements} {contents : F}
    {report : TrafficReport} (hs : Holds codec file state) (hm : runtime.measurements = .ok m)
    (hi : state.interface = config.interface)
    (h : resetWithRuntime codec lib config runtime file = .ok (contents, report)) :
    ∃ q, accountingPeriod lib config runtime.now = .ok q ∧ report.accountingPeriod = q.identity ∧
      contents = codec.encode (if state.cycleKey = q.cycleKey then state.sample m
        else .new q.cycleKey config.interface m.bootId m.rx m.tx) := by
  obtain ⟨c, rfl, hd⟩ := hs
  simp only [resetWithRuntime, bind_ok, mapError_ok, updateStateLocked_ok, pure, Except.pure,
    Except.ok.injEq, Prod.mk.injEq] at h
  obtain ⟨q, hq, m', hm', contents', ⟨-, hc, -⟩, s, -, rfl, rfl⟩ := h
  obtain rfl := Except.ok.inj (hm.symm.trans hm')
  refine ⟨q, hq, rfl, ?_⟩
  simp only [reconcile, hd, hi, bind, Except.bind, pure, Except.pure, Except.map,
    Except.ok.injEq, ne_eq, not_true_eq_false, or_false, ite_not] at hc
  exact hc.symm

/-- The periods of an accepted configuration tile time in a regular zone. A
printed time is assumed to determine the local time it was printed from. -/
theorem periods_tile (h : Accepted lib config)
    (hzone : lib.parseTz config.accountingTimezone = some zone) (hz : zone.Regular)
    (hprint : ∀ l o l' o', lib.toRfc3339 l o = lib.toRfc3339 l' o' → l = l') :
    PeriodsTile lib config zone := by
  obtain ⟨S, hcell, hS⟩ := accountingSchedule h hzone hz
  have hstart {t u s n s' n' : Int} (ht : S.period t = some (s, n))
      (hu : S.period u = some (s', n')) :
      startKey lib zone s = startKey lib zone s' ↔ s = s' := by
    constructor
    · intro hkey
      obtain ⟨i, hs, -⟩ := Tiling.Schedule.period_iff.mp ht
      obtain ⟨j, hs', -⟩ := Tiling.Schedule.period_iff.mp hu
      have hij : i = j := by
        rw [← S.cell_mark hs, ← S.cell_mark hs', hcell, hcell, Zone.monthAt, Zone.monthAt,
          hprint _ _ _ _ hkey]
      subst hij
      exact Option.some.inj (hs.symm.trans hs')
    · rintro rfl
      rfl
  constructor
  · intro now s n hb
    exact Tiling.Schedule.period_bounds ((hS _ _ _).mp hb)
  · intro now s n hb u hlo hhi
    have hu := (hS _ _ _).mpr (Tiling.Schedule.period_const ((hS _ _ _).mp hb) hlo hhi)
    simp only [accountingPeriod, hzone, hb, hu]
  · intro now s n s' n' hb hb'
    exact Tiling.Schedule.period_next ((hS _ _ _).mp hb) ((hS _ _ _).mp hb')
  · intro t u p q hp hq
    obtain ⟨s, n, hb, rfl⟩ := (accountingPeriod_ok hzone).mp hp
    obtain ⟨s', n', hb', rfl⟩ := (accountingPeriod_ok hzone).mp hq
    rw [hS] at hb hb'
    refine (hstart hb hb').trans (Tiling.Schedule.same_start_iff ?_ ?_ hb hb')
    · rintro b ⟨v, a, c, hv, hor⟩
      obtain ⟨i, ha, hc, -⟩ := Tiling.Schedule.period_iff.mp ((hS _ _ _).mp hv)
      rcases hor with rfl | rfl
      exacts [⟨i, ha⟩, ⟨i + 1, hc⟩]
    · exact fun v a c hv => ⟨v, a, c, (hS _ _ _).mpr hv, .inl rfl⟩
  · intro F _ codec file state now p runtime m hs hp hk hi hle hm contents report hreset
    obtain ⟨q, hq, hid, rfl⟩ := resetWithRuntime_contents hs hm hi hreset
    obtain ⟨s, n, hb, rfl⟩ := (accountingPeriod_ok hzone).mp hp
    obtain ⟨s', n', hb', rfl⟩ := (accountingPeriod_ok hzone).mp hq
    rw [hS] at hb hb'
    have hbounds := Tiling.Schedule.period_bounds hb
    have hbounds' := Tiling.Schedule.period_bounds hb'
    have hsame : state.cycleKey = (AccountingPeriod.active (startKey lib zone s') n').cycleKey ↔
        runtime.now < (AccountingPeriod.active (startKey lib zone s) n).nextReset := by
      rw [hk]
      refine (hstart hb hb').trans ⟨?_, fun hlt => ?_⟩
      · rintro rfl
        have hend := (Tiling.Schedule.period_const hb' le_rfl (hbounds'.1.trans_lt hbounds'.2)).symm.trans
          (Tiling.Schedule.period_const hb le_rfl (hbounds.1.trans_lt hbounds.2))
        exact (Prod.mk.inj (Option.some.inj hend)).2 ▸ hbounds'.2
      · have hsame := hb'.symm.trans (Tiling.Schedule.period_const hb (hbounds.1.trans hle) hlt)
        exact (Prod.mk.inj (Option.some.inj hsame)).1.symm
    rw [hid]
    simp only [hsame]
    rfl

end

theorem sampleLibraries_print {l o l' o' : Int}
    (h : sampleLibraries.toRfc3339 l o = sampleLibraries.toRfc3339 l' o') : l = l' := by
  have h := congrArg String.toList h
  by_cases hzero : l = 0 ∧ o = 0
  · by_cases hzero' : l' = 0 ∧ o' = 0
    · omega
    · by_cases hs' : l' < 0 <;> simp [sampleLibraries, hzero, hzero', hs'] at h
  · by_cases hzero' : l' = 0 ∧ o' = 0
    · by_cases hs : l < 0 <;> simp [sampleLibraries, hzero, hzero', hs] at h
    · by_cases hs : l < 0 <;> by_cases hs' : l' < 0 <;>
        simp [sampleLibraries, hzero, hzero', hs, hs'] at h <;> omega

/-! ## A schedule that meets a skipped hour -/

/-- The clock goes from two to three on 29 March 1970. -/
def springForward : Int := (87 * 24 + 2) * hour

def springOffset (t : Int) : Int := if t < springForward then 0 else hour

def springFromLocal (l : Int) : LocalResult :=
  if l < springForward then .single l
  else if l < springForward + hour then .none
  else .single (l - hour)

theorem springFromLocal_spec (l : Int) : match springFromLocal l with
    | .none => ∀ u, u + springOffset u ≠ l
    | .single t => t + springOffset t = l ∧ ∀ u, u + springOffset u = l → u = t
    | .ambiguous a b => a < b ∧ a + springOffset a = l ∧ b + springOffset b = l ∧
        ∀ u, u + springOffset u = l → a ≤ u ∧ u ≤ b := by
  have hhour : 0 < hour := by decide
  unfold springFromLocal springOffset
  by_cases hbefore : l < springForward
  · rw [if_pos hbefore]
    refine ⟨by simp only [if_pos hbefore]; omega, fun u hu => ?_⟩
    split at hu <;> omega
  · rw [if_neg hbefore]
    by_cases hskipped : l < springForward + hour
    · rw [if_pos hskipped]
      intro u hu
      split at hu <;> omega
    · rw [if_neg hskipped]
      refine ⟨?_, fun u hu => ?_⟩
      · split <;> omega
      · split at hu <;> omega

def springZone : Zone where
  offset := springOffset
  fromLocal := springFromLocal
  fromLocal_spec := springFromLocal_spec

theorem springZone_skips {lo hi : Int} (h : springZone.Skips lo hi) :
    lo = springForward ∧ hi = springForward + hour := by
  obtain ⟨t, rfl, rfl, hlt⟩ := h
  simp only [Zone.localTime, springZone, springOffset] at hlt ⊢
  split at hlt <;> split at hlt <;> simp_all <;> omega

theorem springZone_regular : springZone.Regular where
  offset_lt_day t := by
    simp only [springZone, springOffset]
    split <;> decide
  month_mono t u htu := by
    refine (midnight_le_iff _ _).mp (((midnight_le_iff _ _).mpr le_rfl).trans ?_)
    have hhour : 0 < hour := by decide
    simp only [Zone.localTime, springZone, springOffset]
    split <;> split <;> omega
  skip_short lo hi h := by
    obtain ⟨rfl, rfl⟩ := springZone_skips h
    decide
  skip_before_month_end lo hi h := by
    obtain ⟨rfl, rfl⟩ := springZone_skips h
    decide
  skip_over_midnight lo hi m h hlo hhi := by
    obtain ⟨rfl, rfl⟩ := springZone_skips h
    -- no month begins in the hour
    have hmonth := (midnight_le_iff m (springForward + hour - 1)).mp (by omega)
    have hstart : ¬ m.index ≤ (monthOfLocal (springForward - 1)).index := fun hle => by
      have := (midnight_le_iff m (springForward - 1)).mpr hle
      omega
    have hsame : (monthOfLocal (springForward + hour - 1)).index =
        (monthOfLocal (springForward - 1)).index := by decide
    omega

def springLibraries : Libraries :=
  { sampleLibraries with
    parseTz := fun _ => some springZone
    parseNaiveDateTime := fun _ => some ⟨1970, 1, 29, 2, 30⟩ }

/-- Resets on the 29th at half past two, which there is not in March. -/
def springConfig : DeploymentConfig :=
  { sampleConfig with
    accountingPolicy := .anchoredMonth
    anchoredResetAt := some "1970-01-29T02:30" }

theorem springConfig_accepted : Accepted springLibraries springConfig := by
  unfold Accepted
  decide

theorem periods_tile_sample : PeriodsTile springLibraries springConfig springZone ∧
    accountingBounds springLibraries springConfig springZone (springForward + 3 * day) =
      .ok (springForward + 30 * minute, 118 * day + hour + 30 * minute) :=
  ⟨periods_tile springConfig_accepted rfl springZone_regular fun _ _ _ _ => sampleLibraries_print,
    by decide +kernel⟩

end Sbctl
