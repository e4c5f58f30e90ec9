import Mathlib.Data.List.Chain
import Sbctl.Boundary
import Sbctl.Email
import Sbctl.Release
import Sbctl.Sampling
import Sbctl.Lib.DateText

/-!
# Scheduled mail

A timer checks every hour whether a report is due: one for each day, and a
reminder for each reset. What has been sent is kept in a file, which is written
after curl has sent a mail and read before the next one.

* `send_cases`: what one check may do;
* `recorded_step`: what every check keeps;
* `reports_once`: over any run of checks no report is sent twice, and none is
  lost to a failure.
-/

namespace Sbctl

open Text Clock Calendar

/-! ## What has been sent -/

structure DeliveryState where
  daily : Option String
  reminder : Option String
  deriving DecidableEq

namespace DeliveryState

def toValue (state : DeliveryState) : Json :=
  .obj [("daily", optionText state.daily), ("reminder", optionText state.reminder)]

/-- An object may lack a field, an array has both. -/
def ofValue : Json → Option DeliveryState
  | .obj fields => do
    let daily ← defaultedField fields "daily" readOptionText none
    let reminder ← defaultedField fields "reminder" readOptionText none
    return { daily, reminder }
  | .arr [daily, reminder] => do
    let daily ← readOptionText daily
    let reminder ← readOptionText reminder
    return { daily, reminder }
  | _ => none

def toVec (state : DeliveryState) : List UInt8 :=
  bytes (String.ofList (Json.print Json.compact 0 state.toValue))

def fromSlice (contents : List UInt8) : Option DeliveryState :=
  ((fromUtf8 contents).bind fun text => Json.parse text.toList).bind ofValue

theorem fromSlice_toVec (state : DeliveryState) : fromSlice state.toVec = some state := by
  have hprintable : Json.Printable state.toValue := by
    refine .obj ?_
    simp only [List.forall_mem_cons]
    exact ⟨printable_optionText _, printable_optionText _, nofun⟩
  rw [fromSlice, toVec, fromUtf8_bytes, Option.bind_some, String.toList_ofList,
    Json.parse_print hprintable, Option.bind_some]
  simp [toValue, ofValue, defaultedField, fieldValue, readOptionText_optionText]

end DeliveryState

/-- The local day of an instant. -/
def localDay (zone : Zone) (now : Int) : Int := zone.localTime now / day

def dayText (zone : Zone) (now : Int) : String := String.ofList (dateText (localDay zone now))

/-- A reset as it is remembered, in UTC. -/
def resetText (lib : Libraries) (reset : Int) : String := lib.toRfc3339 reset 0

/-- Whether a reset lies in the hours before it that a reminder is for. -/
def InWindow (config : EmailConfig) (now reset : Int) : Prop :=
  let remaining := (reset - now).tdiv second
  0 < config.resetReminderHours ∧ 0 < remaining ∧
    remaining ≤ config.resetReminderHours.toNat * 3600

instance (config : EmailConfig) (now reset : Int) : Decidable (InWindow config now reset) := by
  unfold InWindow; infer_instance

/-- Whether the report of the day and the reminder are due. -/
def due (lib : Libraries) (state : DeliveryState) (config : EmailConfig) (now : Int)
    (nextReset : Option Int) (displayTimezone : String) : Bool × Bool :=
  let today := dayText ((lib.parseTz displayTimezone).getD .utc) now
  (config.dailyReport && state.daily ≠ some today,
    nextReset.any fun reset =>
      InWindow config now reset ∧ state.reminder ≠ some (resetText lib reset))

/-! ## Checks -/

/-- A mail that was sent, with the local day and the reset it was due for. -/
structure SentMail where
  text : List Char
  daily : Option Int
  reset : Option Int

/-- The file of what has been sent, and the mails, the newest first. -/
structure Mailbox where
  file : Option (List UInt8)
  sent : List SentMail

def Mailbox.empty : Mailbox := ⟨none, []⟩

/-- What a check meets. A file that is missing is `none`, one that does not parse
`some none`. The deployment is one that was validated when it was loaded. The text of
the report depends on whether it includes the subscription and is a reminder. -/
structure Check (lib : Libraries) (F : Type) where
  scheduled : Bool
  email : Option (Option EmailConfig)
  lock : Bool
  deployment : Option {config : DeploymentConfig // Accepted lib config}
  readable : Bool
  now : Int
  runtime : Runtime
  traffic : Option F
  body : Bool → Bool → Except String String
  host : MailHost
  writable : Bool

section
variable {lib : Libraries} {F : Type} (codec : StateCodec F)

def loadEmail (lib : Libraries) (file : Option (Option EmailConfig)) :
    Except String EmailConfig :=
  match file with
  | none => .error "邮件尚未配置；运行 sbctl email configure"
  | some none => .error "邮件配置格式无效"
  | some (some config) => do
    config.validate lib
    return config

def loadState (check : Check lib F) (file : Option (List UInt8)) :
    Except String DeliveryState :=
  if ¬ check.readable then .error "无法读取邮件发送状态"
  else match file with
    | none => .ok ⟨none, none⟩
    | some contents =>
      match DeliveryState.fromSlice contents with
      | some state => .ok state
      | none => .error "邮件发送状态损坏"

/-- What a check works with: the configurations and the state. -/
def loadAll (check : Check lib F) (file : Option (List UInt8)) :
    Except String (EmailConfig × {config : DeploymentConfig // Accepted lib config} ×
      DeliveryState) := do
  let config ← loadEmail lib check.email
  if ¬ check.lock then .error "无法锁定邮件任务"
  else match check.deployment with
    | none => .error "部署尚未初始化"
    | some deployment => do
      let state ← loadState check file
      return (config, deployment, state)

def nextReset (check : Check lib F) (deployment : DeploymentConfig) : Option Int :=
  (reportWithRuntime codec lib deployment check.runtime check.traffic).toOption.map (·.nextReset)

def displayZone (lib : Libraries) (deployment : DeploymentConfig) : Zone :=
  (lib.parseTz deployment.clientDisplayTimezone).getD .utc

/-- The day a check looks at. -/
def Check.today (check : Check lib F) (deployment : DeploymentConfig) : Int :=
  localDay (displayZone lib deployment) check.now

/-- The state after a scheduled mail. -/
def recordSent (lib : Libraries) (state : DeliveryState) (deployment : DeploymentConfig)
    (now : Int) (nextReset : Option Int) (daily reminder : Bool) :
    Except String DeliveryState := do
  let state ←
    if daily then
      match lib.parseTz deployment.clientDisplayTimezone with
      | none => .error "时区无效"
      | some zone => .ok { state with daily := some (dayText zone now) }
    else .ok state
  return if reminder then { state with reminder := nextReset.map (resetText lib) } else state

/-- A mail of a check; a scheduled one is for what was due. -/
def sentMail (check : Check lib F) (deployment : DeploymentConfig) (text : List Char)
    (nextReset : Option Int) (daily reminder : Bool) : SentMail where
  text := text
  daily := if check.scheduled ∧ daily then some (check.today deployment) else none
  reset := if check.scheduled ∧ reminder then nextReset else none

/-- Saves what a scheduled mail was for. -/
def saveSent (check : Check lib F) (state : Except String DeliveryState) (box : Mailbox) :
    Except String Bool × Mailbox :=
  match state with
  | .error e => (.error e, box)
  | .ok state =>
    if check.writable then (.ok true, { box with file := some state.toVec })
    else (.error "邮件已发送，但发送状态保存失败", box)

/-- One check. Tells whether a mail was sent. -/
def send (check : Check lib F) (box : Mailbox) : Except String Bool × Mailbox :=
  match loadAll check box.file with
  | .error e => (.error e, box)
  | .ok (config, deployment, state) =>
    let reset := nextReset codec check deployment
    let (daily, reminder) :=
      due lib state config check.now reset deployment.val.clientDisplayTimezone
    if check.scheduled ∧ ¬ daily ∧ ¬ reminder then (.ok false, box)
    else match check.body config.includeSubscription (check.scheduled && reminder) with
      | .error e => (.error e, box)
      | .ok body =>
        match deliver lib check.host config body (check.scheduled && reminder) with
        | .error e => (.error e, box)
        | .ok text =>
          let box' :=
            { box with sent := sentMail check deployment text reset daily reminder :: box.sent }
          if check.scheduled then
            saveSent check (recordSent lib state deployment check.now reset daily reminder) box'
          else (.ok true, box')

/-- The mailbox after some checks, the newest first. -/
def mailboxAfter : List (Check lib F) → Mailbox
  | [] => .empty
  | check :: earlier => (send codec check (mailboxAfter earlier)).2

/-! ## What one check may do -/

/-- A state after a report of a day and a reminder of a reset. -/
def DeliveryState.after (lib : Libraries) (state : DeliveryState) (daily reset : Option Int) :
    DeliveryState where
  daily := (daily.map fun d => String.ofList (dateText d)).or state.daily
  reminder := (reset.map (resetText lib)).or state.reminder

/-- The results of a check whose state can be saved. -/
inductive SendResult (check : Check lib F) (box : Mailbox) : Except String Bool → Mailbox → Prop
  | failed (e : String) : SendResult check box (.error e) box
  | manual (text : List Char) : check.scheduled = false →
    SendResult check box (.ok true) { box with sent := ⟨text, none, none⟩ :: box.sent }
  | quiet {config : EmailConfig} {deployment : {config : DeploymentConfig // Accepted lib config}}
      {state : DeliveryState} :
    loadAll check box.file = .ok (config, deployment, state) → check.scheduled = true →
    due lib state config check.now (nextReset codec check deployment)
      deployment.val.clientDisplayTimezone = (false, false) →
    SendResult check box (.ok false) box
  | reported {config : EmailConfig}
      {deployment : {config : DeploymentConfig // Accepted lib config}} {state : DeliveryState}
      {daily reminder : Bool} (mail : SentMail) :
    loadAll check box.file = .ok (config, deployment, state) → check.scheduled = true →
    due lib state config check.now (nextReset codec check deployment)
      deployment.val.clientDisplayTimezone = (daily, reminder) →
    mail.daily = (if daily then some (check.today deployment) else none) →
    mail.reset = (if reminder then nextReset codec check deployment else none) →
    SendResult check box (.ok true)
      ⟨some (state.after lib mail.daily mail.reset).toVec, mail :: box.sent⟩

theorem accepted_displayTimezone {config : DeploymentConfig} (h : Accepted lib config) :
    lib.parseTz config.clientDisplayTimezone = some (displayZone lib config) := by
  obtain ⟨-, -, -, haccounting, -⟩ := accepted_iff.mp h
  obtain ⟨_, -, haccounting⟩ := bind_ok.mp haccounting
  obtain ⟨_, -, haccounting⟩ := bind_ok.mp haccounting
  split at haccounting
  · cases haccounting
  · obtain ⟨_, hdisplay, -⟩ := bind_ok.mp haccounting
    have hsome := rejectIf_ok.mp hdisplay
    unfold displayZone
    cases hzone : lib.parseTz config.clientDisplayTimezone with
    | none => exact absurd (by rw [hzone]; rfl) hsome
    | some zone => rfl

theorem recordSent_ok {deployment : DeploymentConfig} (h : Accepted lib deployment)
    (state : DeliveryState) (now : Int) {reset : Option Int} (daily : Bool) {reminder : Bool}
    (hreset : reminder = true → reset.isSome) :
    recordSent lib state deployment now reset daily reminder =
      .ok (state.after lib (if daily then some (localDay (displayZone lib deployment) now) else none)
        (if reminder then reset else none)) := by
  have hzone := accepted_displayTimezone h
  unfold recordSent
  cases reminder with
  | false =>
    cases daily with
    | false => rfl
    | true =>
      simp only [if_true, hzone]
      rfl
  | true =>
    obtain ⟨at', rfl⟩ := Option.isSome_iff_exists.mp (hreset rfl)
    cases daily with
    | false => rfl
    | true =>
      simp only [if_true, hzone]
      rfl

theorem due_reminder {state : DeliveryState} {config : EmailConfig} {now : Int}
    {reset : Option Int} {displayTimezone : String} {daily : Bool}
    (h : due lib state config now reset displayTimezone = (daily, true)) : reset.isSome := by
  cases reset with
  | none => cases (Prod.mk.inj h).2
  | some at' => rfl

/-- All that a check may do, where its state can be saved. -/
theorem send_cases {check : Check lib F} (hwritable : check.writable = true) (box : Mailbox) :
    SendResult codec check box (send codec check box).1 (send codec check box).2 := by
  unfold send
  cases hload : loadAll check box.file with
  | error e => exact .failed e
  | ok loaded =>
    obtain ⟨config, deployment, state⟩ := loaded
    dsimp only
    rcases hdue : due lib state config check.now (nextReset codec check deployment)
      deployment.val.clientDisplayTimezone with ⟨daily, reminder⟩
    dsimp only
    by_cases hquiet : check.scheduled ∧ ¬ daily ∧ ¬ reminder
    · obtain ⟨hscheduled, hdaily, hreminder⟩ := hquiet
      rw [if_pos ⟨hscheduled, hdaily, hreminder⟩]
      rw [Bool.eq_false_of_not_eq_true hdaily, Bool.eq_false_of_not_eq_true hreminder] at hdue
      exact .quiet hload hscheduled hdue
    · rw [if_neg hquiet]
      cases check.body config.includeSubscription (check.scheduled && reminder) with
      | error e => exact .failed e
      | ok body =>
        dsimp only
        cases deliver lib check.host config body (check.scheduled && reminder) with
        | error e => exact .failed e
        | ok text =>
          dsimp only
          cases hscheduled : check.scheduled with
          | false =>
            have hmail : sentMail check deployment text (nextReset codec check deployment) daily
                reminder = ⟨text, none, none⟩ := by simp [sentMail, hscheduled]
            rw [if_neg Bool.false_ne_true, hmail]
            exact .manual text hscheduled
          | true =>
            rw [if_pos rfl, recordSent_ok deployment.property _ _ _
              (fun hreminder => due_reminder (hreminder ▸ hdue)), saveSent]
            dsimp only
            rw [if_pos hwritable]
            have hdaily : (sentMail check deployment text (nextReset codec check deployment) daily
                reminder).daily = if daily then some (check.today deployment) else none := by
              simp [sentMail, hscheduled]
            have hreset : (sentMail check deployment text (nextReset codec check deployment) daily
                reminder).reset = if reminder then nextReset codec check deployment else none := by
              simp [sentMail, hscheduled]
            have h := SendResult.reported (sentMail check deployment text
              (nextReset codec check deployment) daily reminder) hload hscheduled hdue hdaily hreset
            rw [hdaily, hreset] at h
            exact h

/-! ## What every check keeps -/

def Mailbox.dailies (box : Mailbox) : List Int := box.sent.filterMap (·.daily)

def Mailbox.resets (box : Mailbox) : List Int := box.sent.filterMap (·.reset)

/-- The state that tells the last report and the last reminder. -/
def Mailbox.record (lib : Libraries) (box : Mailbox) : DeliveryState :=
  .after lib ⟨none, none⟩ box.dailies.head? box.resets.head?

/-- The file tells the last report and the last reminder, and each was for another
day or reset than the one before it. -/
structure Recorded (lib : Libraries) (box : Mailbox) : Prop where
  file : box.file = some (box.record lib).toVec ∨
    box.file = none ∧ box.record lib = ⟨none, none⟩
  dailies : box.dailies.IsChain (· ≠ ·)
  resets : box.resets.IsChain (· ≠ ·)

theorem recorded_empty : Recorded lib .empty := ⟨.inr ⟨rfl, rfl⟩, .nil, .nil⟩

theorem loadAll_ok {check : Check lib F} {file : Option (List UInt8)} {config : EmailConfig}
    {deployment : {config : DeploymentConfig // Accepted lib config}} {state : DeliveryState}
    (h : loadAll check file = .ok (config, deployment, state)) :
    loadEmail lib check.email = .ok config ∧ check.deployment = some deployment ∧
      loadState check file = .ok state := by
  obtain ⟨config', hconfig, h⟩ := bind_ok.mp h
  split at h
  · cases h
  · split at h
    · cases h
    · rename_i deployment' hdeployment
      obtain ⟨state', hstate, h⟩ := bind_ok.mp h
      cases h
      exact ⟨hconfig, hdeployment, hstate⟩

/-- The state that is loaded is the one on record. -/
theorem Recorded.loaded {box : Mailbox} (h : Recorded lib box) {check : Check lib F}
    {state : DeliveryState} (hload : loadState check box.file = .ok state) :
    state = box.record lib := by
  unfold loadState at hload
  split at hload
  · cases hload
  · rcases h.file with hfile | ⟨hfile, hrecord⟩
    · rw [hfile] at hload
      simp only [DeliveryState.fromSlice_toVec] at hload
      exact (Except.ok.inj hload).symm
    · rw [hfile] at hload
      rw [hrecord]
      exact (Except.ok.inj hload).symm

section
variable {box : Mailbox} {config : EmailConfig} {check : Check lib F}
  {deployment : {config : DeploymentConfig // Accepted lib config}} {daily reminder : Bool}

/-- A report that is due is for another day than the last one. -/
theorem due_daily (hdue : due lib (box.record lib) config check.now
    (nextReset codec check deployment) deployment.val.clientDisplayTimezone = (true, reminder)) :
    ∀ d ∈ box.dailies.head?, check.today deployment ≠ d := by
  rintro d hd rfl
  have htrue := congrArg Prod.fst hdue
  simp only [due, Bool.and_eq_true, decide_eq_true_eq, ne_eq] at htrue
  apply htrue.2
  rw [Mailbox.record, DeliveryState.after, Option.mem_def.mp hd]
  rfl

theorem due_reset (hdue : due lib (box.record lib) config check.now
    (nextReset codec check deployment) deployment.val.clientDisplayTimezone = (daily, true)) :
    ∃ reset, nextReset codec check deployment = some reset ∧
      ∀ r ∈ box.resets.head?, reset ≠ r := by
  obtain ⟨reset, hreset⟩ := Option.isSome_iff_exists.mp (due_reminder hdue)
  refine ⟨reset, hreset, ?_⟩
  rintro r hr rfl
  have htrue := congrArg Prod.snd hdue
  simp only [due, hreset, Option.any_some, decide_eq_true_eq, ne_eq] at htrue
  apply htrue.2
  rw [Mailbox.record, DeliveryState.after, Option.mem_def.mp hr]
  rfl

/-- A report that is wanted and not due has been sent. -/
theorem not_due_daily (hdue : due lib (box.record lib) config check.now
    (nextReset codec check deployment) deployment.val.clientDisplayTimezone = (false, reminder))
    (hwanted : config.dailyReport = true) :
    box.dailies.head? = some (check.today deployment) := by
  have hfalse := congrArg Prod.fst hdue
  simp only [due, hwanted, Bool.true_and, decide_eq_false_iff_not, ne_eq, not_not] at hfalse
  cases hhead : box.dailies.head? with
  | none =>
    rw [Mailbox.record, DeliveryState.after, hhead] at hfalse
    cases hfalse
  | some d =>
    rw [Mailbox.record, DeliveryState.after, hhead] at hfalse
    have htext := String.ofList_injective (Option.some.inj hfalse)
    rw [dateText_injective htext]
    rfl

theorem not_due_reset (hprint : ∀ l o l' o', lib.toRfc3339 l o = lib.toRfc3339 l' o' → l = l')
    (hdue : due lib (box.record lib) config check.now (nextReset codec check deployment)
      deployment.val.clientDisplayTimezone = (daily, false))
    {reset : Int} (hreset : nextReset codec check deployment = some reset)
    (hwindow : InWindow config check.now reset) : box.resets.head? = some reset := by
  have hfalse := congrArg Prod.snd hdue
  simp only [due, hreset, Option.any_some, hwindow, true_and, decide_eq_false_iff_not, ne_eq,
    not_not] at hfalse
  cases hhead : box.resets.head? with
  | none =>
    rw [Mailbox.record, DeliveryState.after, hhead] at hfalse
    cases hfalse
  | some r =>
    rw [Mailbox.record, DeliveryState.after, hhead] at hfalse
    rw [hprint _ _ _ _ (Option.some.inj hfalse)]

end

theorem head?_toList_append (x : Option Int) (xs : List Int) :
    (x.toList ++ xs).head? = x.or xs.head? := by
  cases x <;> rfl

theorem dailies_cons (mail : SentMail) (box : Mailbox) (file : Option (List UInt8)) :
    Mailbox.dailies ⟨file, mail :: box.sent⟩ = mail.daily.toList ++ box.dailies := by
  rw [Mailbox.dailies, List.filterMap_cons]
  cases mail.daily <;> rfl

theorem resets_cons (mail : SentMail) (box : Mailbox) (file : Option (List UInt8)) :
    Mailbox.resets ⟨file, mail :: box.sent⟩ = mail.reset.toList ++ box.resets := by
  rw [Mailbox.resets, List.filterMap_cons]
  cases mail.reset <;> rfl

theorem record_cons (mail : SentMail) (box : Mailbox) (file : Option (List UInt8)) :
    Mailbox.record lib ⟨file, mail :: box.sent⟩ =
      (box.record lib).after lib mail.daily mail.reset := by
  rw [Mailbox.record, dailies_cons, resets_cons, head?_toList_append, head?_toList_append]
  cases hdaily : mail.daily <;> cases hreset : mail.reset <;> rfl

theorem isChain_toList_append {x : Option Int} {xs : List Int} (h : xs.IsChain (· ≠ ·))
    (hx : ∀ y ∈ x, ∀ d ∈ xs.head?, y ≠ d) : (x.toList ++ xs).IsChain (· ≠ ·) := by
  cases x with
  | none => exact h
  | some y => exact h.cons (hx y rfl)

theorem recorded_step {check : Check lib F} (hwritable : check.writable = true) {box : Mailbox}
    (h : Recorded lib box) : Recorded lib (send codec check box).2 := by
  generalize hr : (send codec check box).1 = r
  generalize hbox : (send codec check box).2 = box'
  have hcases := send_cases codec hwritable box
  rw [hr, hbox] at hcases
  cases hcases with
  | failed e => exact h
  | quiet => exact h
  | manual text =>
    exact ⟨h.file, h.dailies, h.resets⟩
  | @reported config deployment state daily reminder mail hload hscheduled hdue hdaily hreset =>
    have hstate := h.loaded (loadAll_ok hload).2.2
    subst hstate
    constructor
    · left
      rw [record_cons]
    · rw [dailies_cons, hdaily]
      refine isChain_toList_append h.dailies ?_
      cases daily with
      | false => nofun
      | true =>
        rintro y ⟨⟩
        exact due_daily codec hdue
    · rw [resets_cons, hreset]
      refine isChain_toList_append h.resets ?_
      cases reminder with
      | false => nofun
      | true =>
        obtain ⟨reset, hsome, hapart⟩ := due_reset codec hdue
        rw [hsome]
        rintro y ⟨⟩
        exact hapart

theorem recorded_run {run : List (Check lib F)} (h : ∀ check ∈ run, check.writable = true) :
    Recorded lib (mailboxAfter codec run) := by
  induction run with
  | nil => exact recorded_empty
  | cons check earlier ih =>
    obtain ⟨hwritable, hearlier⟩ := List.forall_mem_cons.mp h
    exact recorded_step codec hwritable (ih hearlier)

/-! ## Days and resets that do not go back -/

/-- Neighbours that differ, in an order that never rises, are all different. -/
theorem nodup_of_isChain {xs : List Int} (hne : xs.IsChain (· ≠ ·)) (hge : xs.Pairwise (· ≥ ·)) :
    xs.Nodup := by
  induction xs with
  | nil => exact .nil
  | cons x xs ih =>
    obtain ⟨hfirst, hrest⟩ := List.pairwise_cons.mp hge
    refine List.nodup_cons.mpr ⟨fun hmem => ?_, ih hne.tail hrest⟩
    cases xs with
    | nil => cases hmem
    | cons y ys =>
      have hxy : x ≠ y := hne.rel_head? rfl
      have hle : y ≤ x := hfirst y List.mem_cons_self
      have hlt : x ≤ y := by
        rcases List.mem_cons.mp hmem with rfl | hmem
        · exact le_rfl
        · exact (List.pairwise_cons.mp hrest).1 x hmem
      exact hxy (le_antisymm hlt hle)

/-- The day and the next reset a check sees, if it sees a deployment. -/
def Check.day? (check : Check lib F) : Option Int :=
  check.deployment.map fun deployment => check.today deployment.val

def Check.reset? (check : Check lib F) : Option Int :=
  check.deployment.bind fun deployment => nextReset codec check deployment.val

theorem toList_append_sublist {x y : Option Int} {xs ys : List Int} (h : xs.Sublist ys)
    (hx : x = none ∨ x = y) : (x.toList ++ xs).Sublist (y.toList ++ ys) := by
  refine List.Sublist.append ?_ h
  rcases hx with rfl | rfl
  · exact List.nil_sublist _
  · exact List.Sublist.refl _

theorem filterMap_cons_toList {α : Type} (f : α → Option Int) (a : α) (l : List α) :
    (a :: l).filterMap f = (f a).toList ++ l.filterMap f := by
  rw [List.filterMap_cons]
  cases f a <;> rfl

/-- Every report was for the day of a check, and every reminder for its reset. -/
theorem sent_sublist {run : List (Check lib F)} (h : ∀ check ∈ run, check.writable = true) :
    (mailboxAfter codec run).dailies.Sublist (run.filterMap Check.day?) ∧
      (mailboxAfter codec run).resets.Sublist (run.filterMap (Check.reset? codec)) := by
  induction run with
  | nil => exact ⟨.slnil, .slnil⟩
  | cons check earlier ih =>
    obtain ⟨hwritable, hearlier⟩ := List.forall_mem_cons.mp h
    obtain ⟨hdays, hresets⟩ := ih hearlier
    have hcases := send_cases codec hwritable (mailboxAfter codec earlier)
    rw [filterMap_cons_toList, filterMap_cons_toList]
    rw [mailboxAfter]
    generalize (send codec check (mailboxAfter codec earlier)).1 = r at hcases
    generalize (send codec check (mailboxAfter codec earlier)).2 = box at hcases ⊢
    cases hcases with
    | failed e =>
      exact ⟨hdays.trans (List.sublist_append_right _ _),
        hresets.trans (List.sublist_append_right _ _)⟩
    | quiet =>
      exact ⟨hdays.trans (List.sublist_append_right _ _),
        hresets.trans (List.sublist_append_right _ _)⟩
    | manual text =>
      exact ⟨hdays.trans (List.sublist_append_right _ _),
        hresets.trans (List.sublist_append_right _ _)⟩
    | @reported config deployment state daily reminder mail hload _ _ hdaily hreset =>
      obtain ⟨-, hdeployment, -⟩ := loadAll_ok hload
      rw [dailies_cons, resets_cons]
      constructor
      · refine toList_append_sublist hdays ?_
        rw [hdaily, Check.day?, hdeployment]
        cases daily with
        | false => exact .inl rfl
        | true => exact .inr rfl
      · refine toList_append_sublist hresets ?_
        rw [hreset, Check.reset?, hdeployment]
        cases reminder with
        | false => exact .inl rfl
        | true => exact .inr rfl

/-- Later reports name later resets. -/
theorem nextReset_mono {deployment : DeploymentConfig} (h : Accepted lib deployment) {zone : Zone}
    (hzone : lib.parseTz deployment.accountingTimezone = some zone) (hz : zone.Regular)
    {older newer : Check lib F} (hle : older.runtime.now ≤ newer.runtime.now) {r r' : Int}
    (hr : nextReset codec older deployment = some r)
    (hr' : nextReset codec newer deployment = some r') : r ≤ r' := by
  obtain ⟨S, -, hS⟩ := accountingSchedule h hzone hz
  have hperiod {check : Check lib F} {reset : Int}
      (hreset : nextReset codec check deployment = some reset) :
      ∃ s, S.period check.runtime.now = some (s, reset) := by
    obtain ⟨report, hreport, rfl⟩ := Option.map_eq_some_iff.mp hreset
    have hok : reportWithRuntime codec lib deployment check.runtime check.traffic = .ok report :=
      Except.toOption_eq_some.mp hreport
    obtain ⟨p, hp, hok⟩ := bind_ok.mp hok
    obtain ⟨_, -, hok⟩ := bind_ok.mp hok
    obtain ⟨_, -, hok⟩ := bind_ok.mp hok
    cases hok
    obtain ⟨s, n, hbounds, rfl⟩ := (accountingPeriod_ok hzone).mp hp
    exact ⟨s, (hS _ _ _).mp hbounds⟩
  obtain ⟨s, hs⟩ := hperiod hr
  obtain ⟨s', hs'⟩ := hperiod hr'
  by_contra hlt
  have hbounds := Tiling.Schedule.period_bounds hs
  have hbounds' := Tiling.Schedule.period_bounds hs'
  have hsame := Tiling.Schedule.period_const hs (hbounds.1.trans hle)
    (hbounds'.2.trans (not_le.mp hlt))
  rw [hs'] at hsame
  have heq := (Prod.mk.inj (Option.some.inj hsame)).2
  exact hlt heq.ge

/-! ## Whole runs -/

/-- What a run of checks, the newest first, has sent. -/
structure ReportsOnce (run : List (Check lib F)) : Prop where
  /-- No report is for the day of the one before it, no reminder for its reset. -/
  apart : (mailboxAfter codec run).dailies.IsChain (· ≠ ·) ∧
    (mailboxAfter codec run).resets.IsChain (· ≠ ·)
  /-- Where local days do not go back, no two reports are for one day. -/
  days : (run.Pairwise fun newer older => ∀ d ∈ newer.day?, ∀ e ∈ older.day?, e ≤ d) →
    (mailboxAfter codec run).dailies.Nodup
  /-- Under one deployment and clocks that do not go back, no two reminders are for
  one reset. -/
  resets : ∀ (deployment : DeploymentConfig) (zone : Zone), Accepted lib deployment →
    lib.parseTz deployment.accountingTimezone = some zone → zone.Regular →
    (∀ check ∈ run, ∀ d ∈ check.deployment, d.val = deployment) →
    (run.Pairwise fun newer older => older.runtime.now ≤ newer.runtime.now) →
      (mailboxAfter codec run).resets.Nodup
  /-- After a scheduled check that succeeds, what it found wanted has been sent. -/
  sent : ∀ check earlier, check :: earlier <:+ run → check.scheduled = true →
    ∀ sent, (send codec check (mailboxAfter codec earlier)).1 = .ok sent →
      ∃ config deployment, loadEmail lib check.email = .ok config ∧
        check.deployment = some deployment ∧
        (config.dailyReport = true →
          (mailboxAfter codec (check :: earlier)).dailies.head? = some (check.today deployment)) ∧
        ∀ reset, nextReset codec check deployment = some reset → InWindow config check.now reset →
          (mailboxAfter codec (check :: earlier)).resets.head? = some reset
  /-- A check that fails leaves what it found due. -/
  kept : ∀ check earlier, check :: earlier <:+ run →
    ∀ e, (send codec check (mailboxAfter codec earlier)).1 = .error e →
      mailboxAfter codec (check :: earlier) = mailboxAfter codec earlier

theorem sent_reports (hprint : ∀ l o l' o', lib.toRfc3339 l o = lib.toRfc3339 l' o' → l = l')
    {check : Check lib F} (hwritable : check.writable = true) {box : Mailbox}
    (h : Recorded lib box) (hscheduled : check.scheduled = true) {sent : Bool}
    (hok : (send codec check box).1 = .ok sent) :
    ∃ config deployment, loadEmail lib check.email = .ok config ∧
      check.deployment = some deployment ∧
      (config.dailyReport = true →
        (send codec check box).2.dailies.head? = some (check.today deployment)) ∧
      ∀ reset, nextReset codec check deployment = some reset → InWindow config check.now reset →
        (send codec check box).2.resets.head? = some reset := by
  have hcases := send_cases codec hwritable box
  rw [hok] at hcases
  generalize (send codec check box).2 = box' at hcases ⊢
  cases hcases with
  | manual text hmanual =>
    rw [hscheduled] at hmanual
    cases hmanual
  | @quiet config deployment state hload _ hdue =>
    obtain ⟨hconfig, hdeployment, hstate⟩ := loadAll_ok hload
    rw [h.loaded hstate] at hdue
    exact ⟨config, deployment, hconfig, hdeployment, not_due_daily codec hdue,
      fun _ => not_due_reset codec hprint hdue⟩
  | @reported config deployment state daily reminder mail hload _ hdue hdaily hreset =>
    obtain ⟨hconfig, hdeployment, hstate⟩ := loadAll_ok hload
    rw [h.loaded hstate] at hdue
    refine ⟨config, deployment, hconfig, hdeployment, ?_, ?_⟩
    · intro hwanted
      rw [dailies_cons, head?_toList_append, hdaily]
      cases daily with
      | false => exact not_due_daily codec hdue hwanted
      | true => rfl
    · intro reset hsome hwindow
      rw [resets_cons, head?_toList_append, hreset]
      cases reminder with
      | false => exact not_due_reset codec hprint hdue hsome hwindow
      | true => rw [if_pos rfl, hsome]; rfl

/-- Where what was sent can always be saved, reports are sent once: each scheduled
check catches up on what is due, and none sends it again. A printed time is assumed
to determine the time it was printed from. -/
theorem reports_once (hprint : ∀ l o l' o', lib.toRfc3339 l o = lib.toRfc3339 l' o' → l = l')
    {run : List (Check lib F)} (h : ∀ check ∈ run, check.writable = true) :
    ReportsOnce codec run := by
  have hrecorded := recorded_run codec h
  obtain ⟨hdays, hresets⟩ := sent_sublist codec h
  have hsuffix {check : Check lib F} {earlier : List (Check lib F)}
      (hrun : check :: earlier <:+ run) : check.writable = true ∧
        Recorded lib (mailboxAfter codec earlier) := by
    have hall : ∀ c ∈ check :: earlier, c.writable = true :=
      fun c hc => h c (hrun.subset hc)
    obtain ⟨hwritable, hearlier⟩ := List.forall_mem_cons.mp hall
    exact ⟨hwritable, recorded_run codec hearlier⟩
  constructor
  · exact ⟨hrecorded.dailies, hrecorded.resets⟩
  · intro hpairwise
    exact nodup_of_isChain hrecorded.dailies ((List.Pairwise.filterMap _
      (fun _ _ hday d hd e he => hday d hd e he) hpairwise).sublist hdays)
  · intro deployment zone haccepted hzone hz hsame hclock
    refine nodup_of_isChain hrecorded.resets (List.Pairwise.sublist hresets ?_)
    refine List.pairwise_filterMap.mpr ?_
    refine List.Pairwise.imp_of_mem ?_ hclock
    intro newer older hnewer holder hle r hr r' hr'
    obtain ⟨d, hd, hreset⟩ := Option.bind_eq_some_iff.mp hr
    obtain ⟨d', hd', hreset'⟩ := Option.bind_eq_some_iff.mp hr'
    rw [hsame newer hnewer d hd] at hreset
    rw [hsame older holder d' hd'] at hreset'
    exact nextReset_mono codec haccepted hzone hz hle hreset' hreset
  · intro check earlier hrun hscheduled sent hok
    obtain ⟨hwritable, hbox⟩ := hsuffix hrun
    exact sent_reports codec hprint hwritable hbox hscheduled hok
  · intro check earlier hrun e herror
    obtain ⟨hwritable, -⟩ := hsuffix hrun
    have hcases := send_cases codec hwritable (mailboxAfter codec earlier)
    rw [herror] at hcases
    rw [mailboxAfter]
    generalize (send codec check (mailboxAfter codec earlier)).2 = box at hcases ⊢
    cases hcases with
    | failed e => rfl

end

/-! ## Two checks an hour before a reset, of which the first fails -/

/-- The reset after the sample period is printed as it is. -/
def resetLibraries : Libraries :=
  { sampleLibraries with
    toRfc3339 := fun l o =>
      if l = 2678400000000000 ∧ o = 0 then "1970-02-01T00:00:00+00:00"
      else sampleLibraries.toRfc3339 l o }

theorem resetLibraries_print {l o l' o' : Int}
    (h : resetLibraries.toRfc3339 l o = resetLibraries.toRfc3339 l' o') : l = l' := by
  have hother (l o : Int) : sampleLibraries.toRfc3339 l o ≠ "1970-02-01T00:00:00+00:00" := by
    intro heq
    have hlist := congrArg String.toList heq
    by_cases hzero : l = 0 ∧ o = 0
    · simp [sampleLibraries, hzero] at hlist
    · by_cases hsign : l < 0 <;> simp [sampleLibraries, hzero, hsign] at hlist
  simp only [resetLibraries] at h
  by_cases hreset : l = 2678400000000000 ∧ o = 0
  · by_cases hreset' : l' = 2678400000000000 ∧ o' = 0
    · omega
    · rw [if_pos hreset, if_neg hreset'] at h
      exact absurd h.symm (hother l' o')
  · by_cases hreset' : l' = 2678400000000000 ∧ o' = 0
    · rw [if_neg hreset, if_pos hreset'] at h
      exact absurd h (hother l o)
    · rw [if_neg hreset, if_neg hreset'] at h
      exact sampleLibraries_print h

theorem resetLibraries_accepted : Accepted resetLibraries sampleConfig := by
  unfold Accepted
  decide

def sampleCheck (reached : Bool) : Check resetLibraries TrafficState where
  scheduled := true
  email := some (some sampleEmail)
  lock := true
  deployment := some ⟨sampleConfig, resetLibraries_accepted⟩
  readable := true
  now := 2678400000000000 - hour
  runtime := sampleRuntime ⟨100, 0, "boot-a"⟩
  traffic := some sampleState
  body _ _ := .ok "VPS"
  host := if reached then sampleMailHost else
    { sampleMailHost with curl := fun _ _ => .error "SMTP 发送失败" }
  writable := true

theorem reports_once_sample :
    (∀ check ∈ [sampleCheck true, sampleCheck false], check.writable = true) ∧
      (mailboxAfter plainCodec [sampleCheck true, sampleCheck false]).dailies = [30] ∧
      (mailboxAfter plainCodec [sampleCheck true, sampleCheck false]).resets =
        [2678400000000000] ∧
      ReportsOnce plainCodec [sampleCheck true, sampleCheck false] :=
  ⟨by simp [sampleCheck], by decide, by decide,
    reports_once plainCodec (fun _ _ _ _ => resetLibraries_print) (by simp [sampleCheck])⟩

end Sbctl
