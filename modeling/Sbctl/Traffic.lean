import Sbctl.Period
import Sbctl.Lib.Meter

/-!
# Traffic accounting

The reset task samples the interface counters into a persisted state; reads
add the counters' progress since the last sample without writing. Corrections
by the administrator change the state under the same lock.
-/

namespace Sbctl
open Machine

def stateSchemaVersion : UInt32 := 2

/-- A persisted manual correction to the current accounting period. -/
inductive CorrectionRecord where
  | totalAdjustment (bytes : I128) (at' : Int)
  | setDirection (rx tx : UInt64) (at' : Int)
  deriving DecidableEq

structure TrafficState where
  schemaVersion : UInt32
  cycleKey : String
  interface : String
  baselineRx : UInt64
  baselineTx : UInt64
  accumulatedRx : UInt64
  accumulatedTx : UInt64
  bootId : String
  corrections : List CorrectionRecord
  deriving DecidableEq

/-- One reading of the interface counters. -/
structure Measurements where
  rx : UInt64
  tx : UInt64
  bootId : String
  deriving DecidableEq

namespace TrafficState

def new (cycleKey interface bootId : String) (rx tx : UInt64) : TrafficState where
  schemaVersion := stateSchemaVersion
  cycleKey := cycleKey
  interface := interface
  baselineRx := rx
  baselineTx := tx
  accumulatedRx := 0
  accumulatedTx := 0
  bootId := bootId
  corrections := []

/-- Adds the counters' progress since the baseline, which the measurement then
replaces. A changed boot or a counter that went back adds nothing. -/
def accumulate (state : TrafficState) (bootId : String) (rx tx : UInt64) : TrafficState :=
  { state with
    accumulatedRx :=
      if state.bootId = bootId ∧ state.baselineRx ≤ rx
      then saturatingAdd state.accumulatedRx (rx - state.baselineRx) else state.accumulatedRx
    accumulatedTx :=
      if state.bootId = bootId ∧ state.baselineTx ≤ tx
      then saturatingAdd state.accumulatedTx (tx - state.baselineTx) else state.accumulatedTx
    baselineRx := rx
    baselineTx := tx
    bootId := bootId }

def liveReported (state : TrafficState) (bootId : String) (rx tx : UInt64) : UInt64 × UInt64 :=
  let deltaRx := if state.bootId = bootId ∧ state.baselineRx ≤ rx then rx - state.baselineRx else 0
  let deltaTx := if state.bootId = bootId ∧ state.baselineTx ≤ tx then tx - state.baselineTx else 0
  (saturatingAdd state.accumulatedRx deltaRx, saturatingAdd state.accumulatedTx deltaTx)

def adjustment : CorrectionRecord → I128
  | .totalAdjustment bytes _ => bytes
  | .setDirection _ _ _ => 0

def totalAdjustment (state : TrafficState) : I128 :=
  (state.corrections.map adjustment).foldl I128.saturatingAdd 0

end TrafficState

def maxU128 : Nat := 2 ^ 128 - 1

def correctedTotal (received transmitted : UInt64) (adjustment : I128) : UInt64 :=
  let directions := received.toNat + transmitted.toNat
  let adjusted :=
    if 0 ≤ adjustment.val then min (directions + adjustment.val.toNat) maxU128
    else directions - adjustment.val.natAbs
  clampU64 adjusted

structure TrafficReport where
  interface : String
  received : UInt64
  transmitted : UInt64
  totalAdjustment : I128
  monthlyTrafficLimit : UInt64
  accountingPeriod : String
  nextReset : Int
  deriving DecidableEq

def TrafficReport.total (report : TrafficReport) : UInt64 :=
  correctedTotal report.received report.transmitted report.totalAdjustment

def reportFromState (config : DeploymentConfig) (period : AccountingPeriod) (state : TrafficState)
    (measurements : Measurements) : TrafficReport :=
  let live := state.liveReported measurements.bootId measurements.rx measurements.tx
  { interface := config.interface
    received := live.1
    transmitted := live.2
    totalAdjustment := state.totalAdjustment
    monthlyTrafficLimit := config.monthlyTrafficLimit
    accountingPeriod := period.identity
    nextReset := period.nextReset }

/-- How a state is written into its file and read back. -/
structure StateCodec (F : Type) where
  encode : TrafficState → F
  decode : F → Except String TrafficState
  decode_encode : ∀ state, decode (encode state) = .ok state

/-- What the world offers one command: the clock, the counters, and whether
the state file can be read and replaced. -/
structure Runtime where
  now : Int
  measurements : Except TrafficError Measurements
  readable : Except ConfigError Unit
  writable : Except ConfigError Unit

section
variable {F : Type} [DecidableEq F] (codec : StateCodec F)

def decodeState (contents : F) : Except ConfigError TrafficState :=
  match codec.decode contents with
  | .error message => .error (.stateCorrupt message)
  | .ok state =>
    if state.schemaVersion = stateSchemaVersion then .ok state
    else .error (.stateSchemaMismatch state.schemaVersion)

/-- Replaces the state file, unless that would not change it. -/
def updateStateLocked (runtime : Runtime) (prior : Option F)
    (update : Option F → Except ConfigError F) : Except ConfigError F := do
  runtime.readable
  let contents ← update prior
  if prior = some contents then pure contents
  else do
    runtime.writable
    pure contents

/-- The state the reset task leaves: a new baseline when the period or the
interface changed, the accumulated counters otherwise. -/
def reconcile (config : DeploymentConfig) (period : AccountingPeriod) (m : Measurements)
    (prior : Option F) : Except ConfigError TrafficState := do
  let fresh := TrafficState.new period.cycleKey config.interface m.bootId m.rx m.tx
  let state ← match prior with
    | some contents => decodeState codec contents
    | none => pure fresh
  pure (if state.cycleKey ≠ period.cycleKey ∨ state.interface ≠ config.interface then fresh
    else state.accumulate m.bootId m.rx m.tx)

/-- The reset task. Returns the new contents of the state file. -/
def resetWithRuntime (lib : Libraries) (config : DeploymentConfig) (runtime : Runtime)
    (file : Option F) : Except TrafficError (F × TrafficReport) := do
  let period ← accountingPeriod lib config runtime.now
  let measurements ← runtime.measurements
  let contents ← (updateStateLocked runtime file fun prior =>
    (reconcile codec config period measurements prior).map codec.encode).mapError .storage
  let state ← (reconcile codec config period measurements file).mapError .storage
  pure (contents, reportFromState config period state measurements)

/-- The persisted state, if it belongs to the period and the interface. -/
def currentState (config : DeploymentConfig) (runtime : Runtime) (period : AccountingPeriod)
    (file : Option F) : Except TrafficError TrafficState := do
  runtime.readable.mapError .storage
  match file with
  | none => .error .stateMissing
  | some contents => do
    let state ← (decodeState codec contents).mapError .storage
    if state.cycleKey ≠ period.cycleKey ∨ state.interface ≠ config.interface then
      .error .stateStale
    else pure state

/-- Reads the current period without writing. -/
def reportWithRuntime (lib : Libraries) (config : DeploymentConfig) (runtime : Runtime)
    (file : Option F) : Except TrafficError TrafficReport := do
  let period ← accountingPeriod lib config runtime.now
  let state ← currentState codec config runtime period file
  let measurements ← runtime.measurements
  pure (reportFromState config period state measurements)

end

inductive CorrectionTarget where
  | total (bytes : UInt64)
  | directions (rx tx : UInt64)
  deriving DecidableEq, Repr

structure CorrectionPreview where
  accountingPeriod : String
  nextReset : Int
  currentReceived : UInt64
  currentTransmitted : UInt64
  currentTotal : UInt64
  targetReceived : UInt64
  targetTransmitted : UInt64
  targetTotal : UInt64
  deriving DecidableEq

structure CorrectionPlan where
  state : TrafficState
  preview : CorrectionPreview

/-- What is missing from two directions to a total. -/
def targetAdjustment (total received transmitted : UInt64) : I128 :=
  .ofInt (total.toNat - (received.toNat + transmitted.toNat)) (by
    have := toNat_le_max total
    have := toNat_le_max received
    have := toNat_le_max transmitted
    simp only [maxU64, minI128, maxI128] at *
    omega)

def planCorrection (state : TrafficState) (period : AccountingPeriod) (measurements : Measurements)
    (now : Int) (target : CorrectionTarget) : Except TrafficError CorrectionPlan :=
  let (currentReceived, currentTransmitted) :=
    state.liveReported measurements.bootId measurements.rx measurements.tx
  let currentAdjustment := state.totalAdjustment
  let currentTotal := correctedTotal currentReceived currentTransmitted currentAdjustment
  let preview (targetReceived targetTransmitted targetTotal : UInt64) : CorrectionPreview :=
    { accountingPeriod := period.identity
      nextReset := period.nextReset
      currentReceived, currentTransmitted, currentTotal
      targetReceived, targetTransmitted, targetTotal }
  match target with
  | .total total =>
    let wanted := targetAdjustment total currentReceived currentTransmitted
    match I128.checkedSub wanted currentAdjustment with
    | none => .error (.overflow "total correction adjustment")
    | some offset => .ok
      { state :=
          { state with corrections := state.corrections ++ [.totalAdjustment offset now] }
        preview := preview currentReceived currentTransmitted total }
  | .directions rx tx =>
    if maxU64 < rx.toNat + tx.toNat then .error (.overflow "target directional total")
    else
      let corrected : TrafficState :=
        { state with
          accumulatedRx := rx
          accumulatedTx := tx
          baselineRx := measurements.rx
          baselineTx := measurements.tx
          bootId := measurements.bootId
          corrections := state.corrections ++ [.setDirection rx tx now] }
      .ok
        { state := corrected
          preview := preview rx tx (correctedTotal rx tx corrected.totalAdjustment) }

/-- An administrator's correction. Returns the new contents of the state file. -/
def setUsedWithRuntime {F : Type} (codec : StateCodec F) (lib : Libraries)
    (config : DeploymentConfig) (runtime : Runtime) (target : CorrectionTarget)
    (file : Option F) : Except TrafficError (F × CorrectionPreview) := do
  let period ← accountingPeriod lib config runtime.now
  let state ← currentState codec config runtime period file
  let measurements ← runtime.measurements
  let plan ← planCorrection state period measurements runtime.now target
  runtime.writable.mapError .storage
  pure (codec.encode plan.state, plan.preview)

end Sbctl
