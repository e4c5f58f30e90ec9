import Mathlib.Data.List.Induction
import Sbctl.Traffic

/-!
# Samples and reads agree

Each direction of the accounting state is a meter: its persisted counter is
the last reading, its accumulated bytes are what the readings measured. The
reset task records a reading, a read looks one reading ahead.

* `reset_reports_read`: a reset task run reports what a read would;
* `TaskRun.meter`: what a run of samples accumulates;
* `sampling_agrees`: both, and that a sample between its neighbours does not
  show in any later report.
-/

namespace Sbctl
open Machine Meter

inductive Direction where
  | rx
  | tx
  deriving DecidableEq, Repr

def Measurements.reading (m : Measurements) : Direction → Reading String
  | .rx => { epoch := m.bootId, count := m.rx.toNat }
  | .tx => { epoch := m.bootId, count := m.tx.toNat }

namespace TrafficState

def baseline (state : TrafficState) : Direction → Reading String
  | .rx => { epoch := state.bootId, count := state.baselineRx.toNat }
  | .tx => { epoch := state.bootId, count := state.baselineTx.toNat }

def accumulated (state : TrafficState) : Direction → Nat
  | .rx => state.accumulatedRx.toNat
  | .tx => state.accumulatedTx.toNat

def meter (state : TrafficState) (d : Direction) : Nat × Reading String :=
  (state.accumulated d, state.baseline d)

/-- The state after one more sample. -/
def sample (state : TrafficState) (m : Measurements) : TrafficState :=
  state.accumulate m.bootId m.rx m.tx

theorem accumulated_le (state : TrafficState) (d : Direction) : state.accumulated d ≤ maxU64 := by
  cases d <;> exact toNat_le_max _

theorem toNat_delta (epoch epoch' : String) (a b : UInt64) :
    (if epoch = epoch' ∧ a ≤ b then b - a else 0).toNat =
      gain ⟨epoch, a.toNat⟩ ⟨epoch', b.toNat⟩ := by
  unfold gain
  simp only [UInt64.le_iff_toNat_le]
  split
  · rename_i h
    exact UInt64.toNat_sub_of_le _ _ (UInt64.le_iff_toNat_le.mpr h.2)
  · rfl

theorem toNat_add_delta (epoch epoch' : String) (acc a b : UInt64) :
    (if epoch = epoch' ∧ a ≤ b then saturatingAdd acc (b - a) else acc).toNat =
      min (acc.toNat + gain ⟨epoch, a.toNat⟩ ⟨epoch', b.toNat⟩) maxU64 := by
  rw [← toNat_delta]
  have := toNat_le_max acc
  split
  · simp
  · simp only [UInt64.toNat_zero]
    omega

/-- A sample records one reading in each direction. -/
theorem meter_sample (state : TrafficState) (m : Measurements) (d : Direction) :
    (state.sample m).meter d = record maxU64 (state.meter d) (m.reading d) := by
  cases d <;>
    simp only [meter, sample, accumulate, accumulated, baseline, Measurements.reading, record,
      toNat_add_delta]

theorem meter_samples (state : TrafficState) (ms : List Measurements) (d : Direction) :
    (ms.foldl sample state).meter d =
      (min (state.accumulated d + measured (state.baseline d) (ms.map (·.reading d))) maxU64,
        latest (state.baseline d) (ms.map (·.reading d))) := by
  rw [← record_run _ _ _ _ (state.accumulated_le d)]
  induction ms generalizing state with
  | nil => rfl
  | cons m ms ih =>
    rw [List.foldl_cons, ih]
    simp only [List.map_cons, List.foldl_cons]
    exact congrArg (List.foldl (record maxU64) · _) (meter_sample state m d)

/-- A read looks one reading ahead of the accumulated bytes. -/
theorem liveReported_eq (state : TrafficState) (m : Measurements) :
    (state.liveReported m.bootId m.rx m.tx).1.toNat =
        min (state.accumulated .rx + gain (state.baseline .rx) (m.reading .rx)) maxU64 ∧
      (state.liveReported m.bootId m.rx m.tx).2.toNat =
        min (state.accumulated .tx + gain (state.baseline .tx) (m.reading .tx)) maxU64 := by
  simp only [liveReported, toNat_saturatingAdd, toNat_delta, accumulated, baseline,
    Measurements.reading, and_self]

/-- After the sample is taken, the same read finds it already accumulated. -/
theorem liveReported_sample (state : TrafficState) (m : Measurements) :
    (state.sample m).liveReported m.bootId m.rx m.tx =
      state.liveReported m.bootId m.rx m.tx := by
  have hd (d : Direction) : (state.sample m).accumulated d =
        min (state.accumulated d + gain (state.baseline d) (m.reading d)) maxU64 ∧
      (state.sample m).baseline d = m.reading d := Prod.mk.inj (meter_sample state m d)
  have hs := liveReported_eq (state.sample m) m
  have hr := liveReported_eq state m
  simp only [hd, gain_self, Nat.add_zero, min_assoc, min_self] at hs
  refine Prod.ext (UInt64.toNat_inj.mp ?_) (UInt64.toNat_inj.mp ?_)
  · rw [hs.1, hr.1]
  · rw [hs.2, hr.2]

/-- Two samples with neighbours of their own are one sample when the first
lies between what surrounds it. -/
theorem sample_between {state : TrafficState} {x c : Measurements}
    (h : ∀ d, Between (state.baseline d) (x.reading d) (c.reading d)) :
    (state.sample x).sample c = state.sample c := by
  have hd (d : Direction) : ((state.sample x).sample c).accumulated d =
      (state.sample c).accumulated d := by
    have h₂ := meter_samples state [x, c] d
    have h₁ := meter_samples state [c] d
    simp only [List.map_cons, List.map_nil, measured_insert (h d)] at h₂ h₁
    exact (congrArg Prod.fst h₂).trans (congrArg Prod.fst h₁).symm
  have hrx := UInt64.toNat_inj.mp (hd .rx)
  have htx := UInt64.toNat_inj.mp (hd .tx)
  simp only [sample, accumulate] at hrx htx ⊢
  rw [hrx, htx]

end TrafficState

/-- Taking the sample a report is about does not change the report. -/
theorem reportFromState_sample (config : DeploymentConfig) (period : AccountingPeriod)
    (state : TrafficState) (m : Measurements) :
    reportFromState config period state m = reportFromState config period (state.sample m) m := by
  rw [reportFromState, reportFromState, TrafficState.liveReported_sample]
  rfl

section
variable {F : Type} {codec : StateCodec F} {lib : Libraries}

/-- The command runs in the period and on the interface of the state. -/
def SamePeriod (lib : Libraries) (state : TrafficState) (config : DeploymentConfig)
    (runtime : Runtime) : Prop :=
  config.interface = state.interface ∧ ∀ period,
    accountingPeriod lib config runtime.now = .ok period → period.cycleKey = state.cycleKey

/-- The state file holds `state`. -/
def Holds (codec : StateCodec F) (file : Option F) (state : TrafficState) : Prop :=
  ∃ contents, file = some contents ∧ decodeState codec contents = .ok state

theorem mapError_ok {ε ε' α : Type} {f : ε → ε'} {x : Except ε α} {a : α} :
    x.mapError f = .ok a ↔ x = .ok a := by
  cases x <;> simp [Except.mapError]

theorem decodeState_ok {contents : F} {state : TrafficState} :
    decodeState codec contents = .ok state ↔
      codec.decode contents = .ok state ∧ state.schemaVersion = stateSchemaVersion := by
  unfold decodeState
  cases codec.decode contents with
  | error e => simp
  | ok s =>
    dsimp only
    split
    · rename_i h
      simp only [Except.ok.injEq, iff_self_and]
      rintro rfl
      exact h
    · rename_i h
      simp only [reduceCtorEq, Except.ok.injEq, false_iff, not_and]
      rintro rfl
      exact h

theorem holds_encode {state : TrafficState} (h : state.schemaVersion = stateSchemaVersion) :
    Holds codec (some (codec.encode state)) state :=
  ⟨_, rfl, decodeState_ok.mpr ⟨codec.decode_encode state, h⟩⟩

theorem Holds.schema {file : Option F} {state : TrafficState} (h : Holds codec file state) :
    state.schemaVersion = stateSchemaVersion := by
  obtain ⟨contents, -, hd⟩ := h
  exact (decodeState_ok.mp hd).2

variable {config : DeploymentConfig} {runtime : Runtime} {file : Option F} {state : TrafficState}

/-- Reading a current period fails only with the clock, the file or the
counters. -/
theorem reportWithRuntime_eq (hs : Holds codec file state)
    (hp : SamePeriod lib state config runtime) :
    reportWithRuntime codec lib config runtime file = (do
      let period ← accountingPeriod lib config runtime.now
      runtime.readable.mapError .storage
      let m ← runtime.measurements
      pure (reportFromState config period state m)) := by
  obtain ⟨contents, rfl, hd⟩ := hs
  simp only [reportWithRuntime, currentState, hd]
  cases hperiod : accountingPeriod lib config runtime.now with
  | error e => rfl
  | ok period =>
    cases runtime.readable with
    | error e => rfl
    | ok u =>
      have hcurrent : ¬ (state.cycleKey ≠ period.cycleKey ∨ state.interface ≠ config.interface) := by
        simp [hp.1, hp.2 period hperiod]
      simp only [Except.mapError, bind, Except.bind, hcurrent, if_false, pure, Except.pure]

theorem reportWithRuntime_ok (hs : Holds codec file state) (hp : SamePeriod lib state config runtime)
    {report : TrafficReport} :
    reportWithRuntime codec lib config runtime file = .ok report ↔
      ∃ period m, accountingPeriod lib config runtime.now = .ok period ∧
        runtime.measurements = .ok m ∧ runtime.readable = .ok () ∧
        report = reportFromState config period state m := by
  simp only [reportWithRuntime_eq hs hp, bind_ok, mapError_ok, pure, Except.pure,
    Except.ok.injEq]
  constructor
  · rintro ⟨period, hperiod, _, hr, m, hm, rfl⟩
    exact ⟨period, m, hperiod, hm, hr, rfl⟩
  · rintro ⟨period, m, hperiod, hm, hr, rfl⟩
    exact ⟨period, hperiod, (), hr, m, hm, rfl⟩

variable [DecidableEq F]

theorem updateStateLocked_ok {update : Option F → Except ConfigError F} {contents : F} :
    updateStateLocked runtime file update = .ok contents ↔
      runtime.readable = .ok () ∧ update file = .ok contents ∧
        (file = some contents ∨ runtime.writable = .ok ()) := by
  simp only [updateStateLocked, bind_ok, pure, Except.pure]
  constructor
  · rintro ⟨_, hr, c, hc, h⟩
    split at h
    · cases h
      exact ⟨hr, hc, .inl ‹_›⟩
    · obtain ⟨_, hw, h⟩ := bind_ok.mp h
      cases h
      exact ⟨hr, hc, .inr hw⟩
  · rintro ⟨hr, hc, h⟩
    refine ⟨(), hr, contents, hc, ?_⟩
    split
    · rfl
    · rcases h with h | h
      · contradiction
      · exact bind_ok.mpr ⟨(), h, rfl⟩

/-- In its own period the reset task takes one sample. -/
theorem resetWithRuntime_ok (hs : Holds codec file state) (hp : SamePeriod lib state config runtime)
    {contents : F} {report : TrafficReport} :
    resetWithRuntime codec lib config runtime file = .ok (contents, report) ↔
      ∃ period m, accountingPeriod lib config runtime.now = .ok period ∧
        runtime.measurements = .ok m ∧ runtime.readable = .ok () ∧
        (file = some contents ∨ runtime.writable = .ok ()) ∧
        contents = codec.encode (state.sample m) ∧
        report = reportFromState config period (state.sample m) m := by
  have hrec (period : AccountingPeriod) (hperiod : accountingPeriod lib config runtime.now = .ok period)
      (m : Measurements) : reconcile codec config period m file = .ok (state.sample m) := by
    obtain ⟨c, rfl, hd⟩ := hs
    simp only [reconcile, hd, bind, Except.bind, pure, Except.pure]
    rw [if_neg]
    · rfl
    · simp [hp.1, hp.2 period hperiod]
  simp only [resetWithRuntime, bind_ok, mapError_ok, updateStateLocked_ok, pure, Except.pure,
    Except.ok.injEq, Prod.mk.injEq]
  constructor
  · rintro ⟨period, hperiod, m, hm, c, ⟨hr, hc, hw⟩, s, hs', rfl, rfl⟩
    rw [hrec period hperiod] at hc hs'
    cases hs'
    obtain rfl := Except.ok.inj hc
    exact ⟨period, m, hperiod, hm, hr, hw, rfl, rfl⟩
  · rintro ⟨period, m, hperiod, hm, hr, hw, rfl, rfl⟩
    have := hrec period hperiod m
    exact ⟨period, hperiod, m, hm, _, ⟨hr, by rw [this]; rfl, hw⟩, _, this, rfl, rfl⟩

/-- A reset task run reports what a read at the same moment would, and what
the next read would. -/
theorem reset_reports_read (hs : Holds codec file state)
    (hp : SamePeriod lib state config runtime) {contents : F} {report : TrafficReport}
    (h : resetWithRuntime codec lib config runtime file = .ok (contents, report)) :
    reportWithRuntime codec lib config runtime file = .ok report ∧
      reportWithRuntime codec lib config runtime (some contents) = .ok report := by
  obtain ⟨period, m, hperiod, hm, hr, -, rfl, rfl⟩ := (resetWithRuntime_ok hs hp).mp h
  have hlive := (reportFromState_sample config period state m).symm
  have hs' : Holds codec (some (codec.encode (state.sample m))) (state.sample m) :=
    holds_encode hs.schema
  exact ⟨(reportWithRuntime_ok hs hp).mpr ⟨period, m, hperiod, hm, hr, hlive⟩,
    (reportWithRuntime_ok hs' hp).mpr ⟨period, m, hperiod, hm, hr, rfl⟩⟩

/-- A run of commands in the period of `state` from the state file `start`,
with the samples its reset tasks took. -/
inductive TaskRun (codec : StateCodec F) (lib : Libraries) (state : TrafficState)
    (start : Option F) : List Measurements → Option F → Prop
  | start : TaskRun codec lib state start [] start
  | sampled {ms file config runtime m contents report}
      (run : TaskRun codec lib state start ms file) (hp : SamePeriod lib state config runtime)
      (hm : runtime.measurements = .ok m)
      (step : resetWithRuntime codec lib config runtime file = .ok (contents, report)) :
      TaskRun codec lib state start (ms ++ [m]) (some contents)
  | failed {ms file config runtime error}
      (run : TaskRun codec lib state start ms file) (hp : SamePeriod lib state config runtime)
      (step : resetWithRuntime codec lib config runtime file = .error error) :
      TaskRun codec lib state start ms file
  | read {ms file config runtime result}
      (run : TaskRun codec lib state start ms file) (hp : SamePeriod lib state config runtime)
      (step : reportWithRuntime codec lib config runtime file = result) :
      TaskRun codec lib state start ms file

omit [DecidableEq F] in
theorem SamePeriod.congr {state' : TrafficState} (hk : state'.cycleKey = state.cycleKey)
    (hi : state'.interface = state.interface) (h : SamePeriod lib state config runtime) :
    SamePeriod lib state' config runtime :=
  ⟨h.1.trans hi.symm, fun period hp => (h.2 period hp).trans hk.symm⟩

theorem samePeriod_samples {ms : List Measurements} :
    SamePeriod lib (ms.foldl TrafficState.sample state) config runtime ↔
      SamePeriod lib state config runtime := by
  induction ms generalizing state with
  | nil => rfl
  | cons m ms ih => exact ih

/-- A run leaves in the file what its samples make of the state it starts from. -/
theorem TaskRun.holds_of {start : Option F} {ms : List Measurements} {first : TrafficState}
    (run : TaskRun codec lib state start ms file) (hs : Holds codec start first)
    (hk : first.cycleKey = state.cycleKey) (hi : first.interface = state.interface) :
    Holds codec file (ms.foldl TrafficState.sample first) := by
  induction run with
  | start => exact hs
  | sampled run hp hm step ih =>
    obtain ⟨_, m, _, hm', _, _, rfl, _⟩ :=
      (resetWithRuntime_ok ih (samePeriod_samples.mpr (hp.congr hk hi))).mp step
    obtain rfl := Except.ok.inj (hm.symm.trans hm')
    rw [List.foldl_append]
    exact holds_encode ih.schema
  | failed _ _ _ ih => exact ih
  | read _ _ _ ih => exact ih

theorem TaskRun.holds {start : Option F} {ms : List Measurements}
    (run : TaskRun codec lib state start ms file) (hs : Holds codec start state) :
    Holds codec file (ms.foldl TrafficState.sample state) :=
  run.holds_of hs rfl rfl

/-- What the reads and the runs of the reset task make of one period. -/
structure SamplingAgrees (codec : StateCodec F) (lib : Libraries) (state : TrafficState)
    (start : Option F) : Prop where
  /-- A reset task run, the read instead of it and the read after it agree. -/
  reports : ∀ config runtime, SamePeriod lib state config runtime → ∀ contents report,
    resetWithRuntime codec lib config runtime start = .ok (contents, report) →
      reportWithRuntime codec lib config runtime start = .ok report ∧
        reportWithRuntime codec lib config runtime (some contents) = .ok report
  /-- Where a read succeeds, so does a reset task run that can write. -/
  resets : ∀ config runtime, SamePeriod lib state config runtime → ∀ report,
    reportWithRuntime codec lib config runtime start = .ok report → runtime.writable = .ok () →
      ∃ contents, resetWithRuntime codec lib config runtime start = .ok (contents, report)
  /-- The bytes accumulated are the saturated sum of what was measured. -/
  accumulated : ∀ ms file, TaskRun codec lib state start ms file → ∃ final,
    Holds codec file final ∧ ∀ d, final.accumulated d =
      min maxU64 (state.accumulated d + measured (state.baseline d) (ms.map (·.reading d)))
  /-- A sample between its neighbours, of which the right one may be the
  measurement of the next read, shows in no later report. -/
  inserted : ∀ xs x cs file file', TaskRun codec lib state start (xs ++ x :: cs) file →
    TaskRun codec lib state start (xs ++ cs) file' → ∀ config runtime m,
      SamePeriod lib state config runtime → runtime.measurements = .ok m →
      (∀ d, Between (latest (state.baseline d) (xs.map (·.reading d))) (x.reading d)
        (((cs ++ [m]).head (by simp)).reading d)) →
      reportWithRuntime codec lib config runtime file =
        reportWithRuntime codec lib config runtime file'

theorem sampling_agrees {start : Option F} (hs : Holds codec start state) :
    SamplingAgrees codec lib state start where
  reports config runtime hp contents report h := reset_reports_read hs hp h
  resets config runtime hp report h hw := by
    obtain ⟨period, m, hperiod, hm, hr, rfl⟩ := (reportWithRuntime_ok hs hp).mp h
    have hreset := (resetWithRuntime_ok hs hp).mpr
      ⟨period, m, hperiod, hm, hr, .inr hw, rfl, rfl⟩
    obtain ⟨hread, -⟩ := reset_reports_read hs hp hreset
    exact ⟨_, (Except.ok.inj (hread.symm.trans h)) ▸ hreset⟩
  accumulated ms file run := by
    refine ⟨_, run.holds hs, fun d => ?_⟩
    rw [min_comm]
    exact congrArg Prod.fst (TrafficState.meter_samples state ms d)
  inserted xs x cs file file' run run' config runtime m hp hm hbetween := by
    rw [reportWithRuntime_eq (run.holds hs) (samePeriod_samples.mpr hp),
      reportWithRuntime_eq (run'.holds hs) (samePeriod_samples.mpr hp), hm]
    generalize hl : xs.foldl TrafficState.sample state = left at *
    have hskip : (x :: (cs ++ [m])).foldl TrafficState.sample left =
        (cs ++ [m]).foldl TrafficState.sample left := by
      have hleft (d : Direction) :
          left.baseline d = latest (state.baseline d) (xs.map (·.reading d)) :=
        hl ▸ congrArg Prod.snd (TrafficState.meter_samples state xs d)
      cases cs with
      | nil =>
        exact TrafficState.sample_between fun d => by rw [hleft]; exact hbetween d
      | cons c cs =>
        simp only [List.cons_append, List.foldl_cons]
        rw [TrafficState.sample_between fun d => by rw [hleft]; exact hbetween d]
    have hreport := reportFromState_sample config (m := m)
    simp only [List.foldl_append, List.foldl_cons, List.foldl_nil] at hskip
    simp only [List.foldl_append, List.foldl_cons, hl]
    cases accountingPeriod lib config runtime.now with
    | error e => rfl
    | ok period =>
      cases runtime.readable with
      | error e => rfl
      | ok u => exact congrArg Except.ok (by rw [hreport, hskip, ← hreport])

end

/-! ## A sample state -/

/-- State files that hold the state as it is. -/
def plainCodec : StateCodec TrafficState where
  encode := id
  decode := .ok
  decode_encode _ := rfl

def sampleState : TrafficState :=
  .new "1970-01-01T00:00:00+00:00" "eth0" "boot-a" 0 0

def sampleRuntime (m : Measurements) : Runtime where
  now := 0
  measurements := .ok m
  readable := .ok ()
  writable := .ok ()

theorem sampleState_holds : Holds plainCodec (some sampleState) sampleState :=
  ⟨sampleState, rfl, rfl⟩

theorem sample_period : accountingPeriod sampleLibraries sampleConfig 0 =
    .ok (.active "1970-01-01T00:00:00+00:00" 2678400000000000) := by
  decide

theorem sampleRuntime_samePeriod (m : Measurements) :
    SamePeriod sampleLibraries sampleState sampleConfig (sampleRuntime m) := by
  refine ⟨rfl, fun period h => ?_⟩
  cases sample_period.symm.trans h
  rfl

/-- The reset task runs once for each measurement. -/
theorem sample_run {state first : TrafficState} (h : Holds plainCodec (some first) first)
    (hk : first.cycleKey = state.cycleKey) (hi : first.interface = state.interface)
    (hp : ∀ m, SamePeriod sampleLibraries state sampleConfig (sampleRuntime m))
    (ms : List Measurements) :
    TaskRun plainCodec sampleLibraries state (some first) ms
      (some (ms.foldl TrafficState.sample first)) := by
  induction ms using List.reverseRecOn with
  | nil => exact .start
  | append_singleton ms m ih =>
    have hholds := ih.holds_of h hk hi
    rw [List.foldl_append]
    exact .sampled ih (hp m) rfl
      ((resetWithRuntime_ok hholds (samePeriod_samples.mpr ((hp m).congr hk hi))).mpr
        ⟨_, _, sample_period, rfl, rfl, .inr rfl, rfl, rfl⟩)

/-- A state that has measured something before. -/
def usedState : TrafficState :=
  { sampleState with baselineRx := 100, baselineTx := 20, accumulatedRx := 40, accumulatedTx := 30 }

def usedSamples : List Measurements :=
  [⟨105, 27, "boot-a"⟩, ⟨300, 30, "boot-a"⟩, ⟨7, 2, "boot-b"⟩,
    ⟨27, 12, "boot-b"⟩]

theorem usedState_holds : Holds plainCodec (some usedState) usedState := ⟨usedState, rfl, rfl⟩

theorem sampling_agrees_sample :
    SamplingAgrees plainCodec sampleLibraries usedState (some usedState) ∧
      TaskRun plainCodec sampleLibraries usedState (some usedState) usedSamples
        (some (usedSamples.foldl TrafficState.sample usedState)) ∧
      ∃ final, Holds plainCodec (some (usedSamples.foldl TrafficState.sample usedState)) final ∧
        final.accumulatedRx.toNat = 260 ∧ final.accumulatedTx.toNat = 50 := by
  have hagrees : SamplingAgrees plainCodec sampleLibraries usedState (some usedState) :=
    sampling_agrees usedState_holds
  have hrun := @sample_run usedState _ usedState_holds rfl rfl
    (fun m => sampleRuntime_samePeriod m) usedSamples
  obtain ⟨final, hfinal, hsum⟩ := hagrees.accumulated _ _ hrun
  exact ⟨hagrees, hrun, final, hfinal, (hsum .rx).trans (by decide), (hsum .tx).trans (by decide)⟩

end Sbctl
