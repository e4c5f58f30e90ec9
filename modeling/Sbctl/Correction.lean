import Sbctl.Sampling

/-!
# Corrections over whole runs

A correction by direction replaces the persisted baseline with its own
measurement. A correction of the total keeps the old baseline and stores what
is missing from the live counters, some of which may not be persisted yet.

* `correction_kept`: both kinds keep their promise in every later report, the
  second one under a condition on the first sample after it, without which it
  fails wherever no value saturates.
-/

namespace Sbctl
open Machine Meter

/-- The bytes measured after the correction, in one direction. -/
def measuredSince (m : Measurements) (later : List Measurements) (d : Direction) : Nat :=
  measured (m.reading d) (later.map (·.reading d))

/-- What a correction made at `m` promises of a report: the value set and what
was measured since, saturated. -/
def CorrectionKept (m : Measurements) (later : List Measurements) (report : TrafficReport) :
    CorrectionTarget → Prop
  | .total bytes => report.total.toNat =
      min maxU64 (bytes.toNat + (measuredSince m later .rx + measuredSince m later .tx))
  | .directions rx tx =>
    report.received.toNat = min maxU64 (rx.toNat + measuredSince m later .rx) ∧
      report.transmitted.toNat = min maxU64 (tx.toNat + measuredSince m later .tx)

instance (m : Measurements) (later : List Measurements) (report : TrafficReport) :
    (target : CorrectionTarget) → Decidable (CorrectionKept m later report target)
  | .total _ => inferInstanceAs (Decidable (_ = _))
  | .directions _ _ => inferInstanceAs (Decidable (_ ∧ _))

namespace TrafficState

/-- The first later sample, measured from the persisted baseline, adds up what
the correction saw and what came after it. -/
def Continues (state : TrafficState) (m : Measurements) (d : Direction) :
    List Measurements → Prop
  | [] => True
  | x :: _ => gain (state.baseline d) (x.reading d) =
      gain (state.baseline d) (m.reading d) + gain (m.reading d) (x.reading d)

instance (state : TrafficState) (m : Measurements) (d : Direction) :
    (later : List Measurements) → Decidable (state.Continues m d later)
  | [] => isTrue trivial
  | _ :: _ => inferInstanceAs (Decidable (_ = _))

/-- The bytes of a direction at `m`, before saturation. -/
def live (state : TrafficState) (m : Measurements) (d : Direction) : Nat :=
  state.accumulated d + gain (state.baseline d) (m.reading d)

/-- When a correction made at `m` keeps its promise through `later`. -/
def Undisturbed (state : TrafficState) (m : Measurements) (later : List Measurements) :
    CorrectionTarget → Prop
  | .directions _ _ => True
  | .total bytes => ∀ d, state.Continues m d later ∧
      (state.live m d + measuredSince m later d ≤ maxU64 ∨
        min (state.live m d) maxU64 ≤ bytes.toNat)

/-- No value on the way to a report meets its bound. -/
def Unsaturated (state : TrafficState) (m : Measurements) (later : List Measurements) :
    CorrectionTarget → Prop
  | .directions _ _ => True
  | .total bytes =>
    (∀ d, state.live m d ≤ maxU64 ∧ state.accumulated d +
        measured (state.baseline d) (later.map (·.reading d)) ≤ maxU64) ∧
      0 < bytes.toNat + (measuredSince m later .rx + measuredSince m later .tx) ∧
      bytes.toNat + (measuredSince m later .rx + measuredSince m later .tx) < maxU64

theorem measured_eq_of_continues {state : TrafficState} {m : Measurements} {d : Direction}
    {later : List Measurements} (hne : later ≠ []) (h : state.Continues m d later) :
    measured (state.baseline d) (later.map (·.reading d)) =
      gain (state.baseline d) (m.reading d) + measuredSince m later d := by
  cases later with
  | nil => exact absurd rfl hne
  | cons x xs =>
    simp only [Continues] at h
    simp only [measuredSince, List.map_cons, measured]
    omega

/-- The two directions share their boot, so measuring through the correction
never finds more in one direction and less in the other. -/
theorem continues_of_sum {state : TrafficState} {m : Measurements} {later : List Measurements}
    (hne : later ≠ [])
    (h : measured (state.baseline .rx) (later.map (·.reading .rx)) +
        measured (state.baseline .tx) (later.map (·.reading .tx)) =
      gain (state.baseline .rx) (m.reading .rx) + measuredSince m later .rx +
        (gain (state.baseline .tx) (m.reading .tx) + measuredSince m later .tx))
    (d : Direction) : state.Continues m d later := by
  cases later with
  | nil => exact absurd rfl hne
  | cons x xs =>
    simp only [measuredSince, List.map_cons, measured] at h
    by_cases hboot : state.bootId = x.bootId ∧ m.bootId ≠ state.bootId
    · -- the correction was measured in another boot and saw nothing of this one
      have hzero (d : Direction) : gain (state.baseline d) (m.reading d) = 0 ∧
          gain (m.reading d) (x.reading d) = 0 := by
        constructor
        · apply gain_other_epoch
          cases d <;> exact hboot.2.symm
        · apply gain_other_epoch
          cases d <;> exact fun h => hboot.2 (h.trans hboot.1.symm)
      have hrx := hzero .rx
      have htx := hzero .tx
      cases d <;> simp only [Continues] <;> omega
    · have htriangle (d : Direction) : gain (state.baseline d) (x.reading d) ≤
          gain (state.baseline d) (m.reading d) + gain (m.reading d) (x.reading d) := by
        apply gain_triangle
        cases d <;> exact fun h => not_not.mp fun hm => hboot ⟨h, hm⟩
      have hrx := htriangle .rx
      have htx := htriangle .tx
      cases d <;> simp only [Continues] <;> omega

theorem totalAdjustment_append (state : TrafficState) (record : CorrectionRecord) :
    { state with corrections := state.corrections ++ [record] }.totalAdjustment =
      state.totalAdjustment.saturatingAdd (adjustment record) := by
  simp [totalAdjustment]

end TrafficState

/-- A total is the two directions and the adjustment, kept between its bounds. -/
theorem correctedTotal_toNat (received transmitted : UInt64) (adjustment : I128) :
    ((correctedTotal received transmitted adjustment).toNat : Int) =
      max 0 (min (received.toNat + transmitted.toNat + adjustment.val) maxU64) := by
  have := toNat_le_max received
  have := toNat_le_max transmitted
  have := adjustment.upper
  simp only [correctedTotal, toNat_clampU64, maxU64, maxU128, maxI128] at *
  split <;> omega

@[simp] theorem targetAdjustment_val (total received transmitted : UInt64) :
    (targetAdjustment total received transmitted).val =
      total.toNat - (received.toNat + transmitted.toNat) := rfl

/-- A correction of the total leaves the counters and stores what is missing. -/
theorem planCorrection_total {state : TrafficState} {period : AccountingPeriod} {m : Measurements}
    {now : Int} {bytes : UInt64} {plan : CorrectionPlan}
    (h : planCorrection state period m now (.total bytes) = .ok plan) :
    (∃ record, plan.state = { state with corrections := state.corrections ++ [record] }) ∧
      plan.state.totalAdjustment.val =
        bytes.toNat - (min (state.live m .rx) maxU64 + min (state.live m .tx) maxU64 : Nat) := by
  simp only [planCorrection] at h
  split at h
  · cases h
  · rename_i offset hoffset
    obtain rfl := Except.ok.inj h
    refine ⟨⟨_, rfl⟩, ?_⟩
    obtain ⟨hrx, htx⟩ := state.liveReported_eq m
    dsimp only
    rw [TrafficState.totalAdjustment_append, TrafficState.adjustment,
      I128.saturatingAdd_checkedSub hoffset, targetAdjustment_val, hrx, htx]
    simp only [TrafficState.live, Nat.cast_add]

/-- A correction by direction is a new baseline. -/
theorem planCorrection_directions {state : TrafficState} {period : AccountingPeriod}
    {m : Measurements} {now : Int} {rx tx : UInt64} {plan : CorrectionPlan}
    (h : planCorrection state period m now (.directions rx tx) = .ok plan) :
    plan.state.schemaVersion = state.schemaVersion ∧ plan.state.cycleKey = state.cycleKey ∧
      plan.state.interface = state.interface ∧
      plan.state.meter .rx = (rx.toNat, m.reading .rx) ∧
      plan.state.meter .tx = (tx.toNat, m.reading .tx) := by
  simp only [planCorrection] at h
  split at h
  · cases h
  · obtain rfl := Except.ok.inj h
    exact ⟨rfl, rfl, rfl, rfl, rfl⟩

theorem planCorrection_frame {state : TrafficState} {period : AccountingPeriod} {m : Measurements}
    {now : Int} {target : CorrectionTarget} {plan : CorrectionPlan}
    (h : planCorrection state period m now target = .ok plan) :
    plan.state.schemaVersion = state.schemaVersion ∧ plan.state.cycleKey = state.cycleKey ∧
      plan.state.interface = state.interface := by
  cases target with
  | total bytes =>
    obtain ⟨⟨record, hplan⟩, -⟩ := planCorrection_total h
    rw [hplan]
    exact ⟨rfl, rfl, rfl⟩
  | directions rx tx =>
    obtain ⟨hv, hk, hi, -⟩ := planCorrection_directions h
    exact ⟨hv, hk, hi⟩

@[simp] theorem totalAdjustment_samples (state : TrafficState) (ms : List Measurements) :
    (ms.foldl TrafficState.sample state).totalAdjustment = state.totalAdjustment := by
  induction ms generalizing state with
  | nil => rfl
  | cons m ms ih => exact ih (state.sample m)

section
variable {F : Type} [DecidableEq F] {codec : StateCodec F} {lib : Libraries}
  {config : DeploymentConfig} {runtime : Runtime} {file : Option F} {state : TrafficState}

omit [DecidableEq F] in
theorem setUsedWithRuntime_ok (hs : Holds codec file state) {target : CorrectionTarget}
    {contents : F} {preview : CorrectionPreview}
    (h : setUsedWithRuntime codec lib config runtime target file = .ok (contents, preview)) :
    ∃ period m plan, runtime.measurements = .ok m ∧
      planCorrection state period m runtime.now target = .ok plan ∧
      contents = codec.encode plan.state := by
  obtain ⟨c, rfl, hd⟩ := hs
  simp only [setUsedWithRuntime, currentState, bind_ok, mapError_ok, hd, pure, Except.pure,
    Except.ok.injEq, exists_eq_left', Prod.mk.injEq] at h
  obtain ⟨period, -, s, ⟨-, -, hcurrent⟩, m, hm, plan, hplan, -, -, rfl, -⟩ := h
  split at hcurrent
  · cases hcurrent
  · cases hcurrent
    exact ⟨period, m, plan, hm, hplan, rfl⟩

/-- A report of the current period, read or made by a reset task run. -/
def Reported (codec : StateCodec F) (lib : Libraries) (config : DeploymentConfig)
    (runtime : Runtime) (file : Option F) (report : TrafficReport) : Prop :=
  reportWithRuntime codec lib config runtime file = .ok report ∨
    ∃ contents, resetWithRuntime codec lib config runtime file = .ok (contents, report)

theorem Reported.live {report : TrafficReport} (hs : Holds codec file state)
    (hp : SamePeriod lib state config runtime)
    (h : Reported codec lib config runtime file report) :
    ∃ x, runtime.measurements = .ok x ∧
      report.received.toNat = min (state.live x .rx) maxU64 ∧
      report.transmitted.toNat = min (state.live x .tx) maxU64 ∧
      report.totalAdjustment = state.totalAdjustment := by
  have hread : reportWithRuntime codec lib config runtime file = .ok report := by
    rcases h with h | ⟨contents, h⟩
    · exact h
    · exact (reset_reports_read hs hp h).1
  obtain ⟨period, x, -, hx, -, rfl⟩ := (reportWithRuntime_ok hs hp).mp hread
  obtain ⟨hrx, htx⟩ := state.liveReported_eq x
  exact ⟨x, hx, hrx, htx, rfl⟩

/-- The bytes of a direction after a run, at one more measurement. -/
theorem live_samples (state : TrafficState) (ms : List Measurements) (x : Measurements)
    (d : Direction) :
    min ((ms.foldl TrafficState.sample state).live x d) maxU64 =
      min (state.accumulated d + measured (state.baseline d) ((ms ++ [x]).map (·.reading d)))
        maxU64 := by
  have h := TrafficState.meter_samples state (ms ++ [x]) d
  rw [List.foldl_append, List.foldl_cons, List.foldl_nil, TrafficState.meter_sample] at h
  exact congrArg Prod.fst h

section Total
variable {state : TrafficState} {m : Measurements} {later : List Measurements}
  {report : TrafficReport} {bytes : UInt64}
  (hrx : report.received.toNat = min (state.accumulated .rx +
    measured (state.baseline .rx) (later.map (·.reading .rx))) maxU64)
  (htx : report.transmitted.toNat = min (state.accumulated .tx +
    measured (state.baseline .tx) (later.map (·.reading .tx))) maxU64)
  (hadj : report.totalAdjustment.val =
    bytes.toNat - (min (state.live m .rx) maxU64 + min (state.live m .tx) maxU64 : Nat))
  (hne : later ≠ [])
include hrx htx hadj hne

theorem total_kept (h : state.Undisturbed m later (.total bytes)) :
    CorrectionKept m later report (.total bytes) := by
  obtain ⟨hcrx, hrx'⟩ := h .rx
  obtain ⟨hctx, htx'⟩ := h .tx
  have hbrx := TrafficState.measured_eq_of_continues hne hcrx
  have hbtx := TrafficState.measured_eq_of_continues hne hctx
  have htotal := correctedTotal_toNat report.received report.transmitted report.totalAdjustment
  have := toNat_le_max bytes
  simp only [CorrectionKept, TrafficReport.total]
  simp only [TrafficState.live] at hadj hrx' htx'
  rw [hadj, hrx, htx, hbrx, hbtx] at htotal
  omega

theorem undisturbed_of_total_kept (hu : state.Unsaturated m later (.total bytes))
    (h : CorrectionKept m later report (.total bytes)) :
    state.Undisturbed m later (.total bytes) := by
  obtain ⟨hbounds, hlo, hhi⟩ := hu
  obtain ⟨hlrx, hsrx⟩ := hbounds .rx
  obtain ⟨hltx, hstx⟩ := hbounds .tx
  have htotal := correctedTotal_toNat report.received report.transmitted report.totalAdjustment
  simp only [CorrectionKept, TrafficReport.total] at h
  simp only [TrafficState.live] at hadj hlrx hltx
  rw [hadj, hrx, htx, h] at htotal
  have hcontinues : ∀ d, state.Continues m d later :=
    TrafficState.continues_of_sum hne (by omega)
  intro d
  have hsum := TrafficState.measured_eq_of_continues hne (hcontinues d)
  have := (hbounds d).2
  exact ⟨hcontinues d, .inl (by rw [TrafficState.live]; omega)⟩

end Total

/-- Every later report keeps the correction when the samples after it leave it
undisturbed and, where no value saturates, only then. -/
theorem correction_kept (hs : Holds codec file state)
    {m : Measurements} (hm : runtime.measurements = .ok m) {target : CorrectionTarget}
    {contents : F} {preview : CorrectionPreview}
    (h : setUsedWithRuntime codec lib config runtime target file = .ok (contents, preview))
    {ms : List Measurements} {file' : Option F}
    (run : TaskRun codec lib state (some contents) ms file')
    {config' : DeploymentConfig} {runtime' : Runtime} {x : Measurements} {report : TrafficReport}
    (hp' : SamePeriod lib state config' runtime') (hx : runtime'.measurements = .ok x)
    (hreport : Reported codec lib config' runtime' file' report) :
    (state.Undisturbed m (ms ++ [x]) target → CorrectionKept m (ms ++ [x]) report target) ∧
      (state.Unsaturated m (ms ++ [x]) target →
        CorrectionKept m (ms ++ [x]) report target → state.Undisturbed m (ms ++ [x]) target) := by
  obtain ⟨period, m', plan, hm', hplan, rfl⟩ := setUsedWithRuntime_ok hs h
  obtain rfl := Except.ok.inj (hm.symm.trans hm')
  obtain ⟨hv, hk, hi⟩ := planCorrection_frame hplan
  have hfile := run.holds_of (holds_encode (hv.trans hs.schema)) hk hi
  obtain ⟨x', hx', hrx, htx, hadj⟩ := hreport.live hfile (samePeriod_samples.mpr (hp'.congr hk hi))
  obtain rfl := Except.ok.inj (hx.symm.trans hx')
  rw [live_samples] at hrx htx
  rw [totalAdjustment_samples] at hadj
  cases target with
  | directions rx tx =>
    obtain ⟨-, -, -, hmrx, hmtx⟩ := planCorrection_directions hplan
    obtain ⟨harx, hbrx⟩ := Prod.mk.inj hmrx
    obtain ⟨hatx, hbtx⟩ := Prod.mk.inj hmtx
    rw [harx, hbrx, min_comm] at hrx
    rw [hatx, hbtx, min_comm] at htx
    exact ⟨fun _ => ⟨hrx, htx⟩, fun _ _ => trivial⟩
  | total bytes =>
    obtain ⟨⟨record, hstate⟩, hval⟩ := planCorrection_total hplan
    rw [hstate] at hrx htx
    rw [← hadj] at hval
    exact ⟨total_kept hrx htx hval (by simp), undisturbed_of_total_kept hrx htx hval (by simp)⟩

end

/-! ## A correction of the total before a reboot -/

/-- The sample state, its total set to 1000 while 100 bytes are not persisted. -/
def correctedSample : TrafficState :=
  { sampleState with corrections := [.totalAdjustment (.ofInt 900 (by decide)) 0] }

def correctedPreview : CorrectionPreview where
  accountingPeriod := "1970-01-01T00:00:00+00:00"
  nextReset := 2678400000000000
  currentReceived := 100
  currentTransmitted := 0
  currentTotal := 100
  targetReceived := 100
  targetTransmitted := 0
  targetTotal := 1000

def sampleReport (received transmitted : UInt64) : TrafficReport where
  interface := "eth0"
  received := received
  transmitted := transmitted
  totalAdjustment := .ofInt 900 (by decide)
  monthlyTrafficLimit := 0
  accountingPeriod := "1970-01-01T00:00:00+00:00"
  nextReset := 2678400000000000

theorem sample_corrected : setUsedWithRuntime plainCodec sampleLibraries sampleConfig
    (sampleRuntime ⟨100, 0, "boot-a"⟩) (.total 1000) (some sampleState) =
      .ok (correctedSample, correctedPreview) := by
  decide

/-- After a reboot the unpersisted bytes are gone from the total set. -/
theorem total_correction_lost :
    setUsedWithRuntime plainCodec sampleLibraries sampleConfig
        (sampleRuntime ⟨100, 0, "boot-a"⟩) (.total 1000) (some sampleState) =
          .ok (correctedSample, correctedPreview) ∧
      reportWithRuntime plainCodec sampleLibraries sampleConfig
        (sampleRuntime ⟨0, 0, "boot-b"⟩) (some correctedSample) = .ok (sampleReport 0 0) ∧
      ¬ CorrectionKept ⟨100, 0, "boot-a"⟩ [⟨0, 0, "boot-b"⟩] (sampleReport 0 0) (.total 1000) :=
  ⟨sample_corrected, by decide +kernel, by decide +kernel⟩

/-- A reset task in the boot of the correction, and one after a reboot. -/
def laterSamples : List Measurements := [⟨150, 10, "boot-a"⟩, ⟨30, 5, "boot-b"⟩]

theorem correction_kept_sample :
    TaskRun plainCodec sampleLibraries sampleState (some correctedSample) laterSamples
        (some (laterSamples.foldl TrafficState.sample correctedSample)) ∧
      CorrectionKept ⟨100, 0, "boot-a"⟩ (laterSamples ++ [⟨50, 5, "boot-b"⟩])
        (sampleReport 170 10) (.total 1000) := by
  have hrun := @sample_run sampleState correctedSample ⟨_, rfl, rfl⟩ rfl rfl
    sampleRuntime_samePeriod laterSamples
  refine ⟨hrun, ?_⟩
  refine (correction_kept sampleState_holds rfl sample_corrected hrun
    (sampleRuntime_samePeriod ⟨50, 5, "boot-b"⟩) rfl (.inl (by decide +kernel))).1 fun d => ?_
  cases d <;> decide +kernel

end Sbctl
