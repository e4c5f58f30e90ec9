import Sbctl.Publication

/-!
# Acknowledging a refresh

A command publishes a generation, remembers the inode number of the directory
that is visible afterwards, refreshes the data plane, and removes the refresh
marker from the visible directory if its inode number is the remembered one.

* `mindful_step`: what every careful step keeps;
* `careful_run`: where no inode number comes back while it is remembered, and
  every command remembers its own generation, each removal is its own;
* `foreign_marker_cleared`: a run in which an inode number does come back.
-/

namespace Sbctl

open Text

/-- The generation a process is to acknowledge, with its inode number. -/
def Process.memory : Process → Option (Nat × Nat)
  | .stamped own generation | .refreshed own generation => some (own, generation)
  | .acknowledger _ (some own) (some generation) stage =>
    match stage with
    | .requested | .locked | .opened _ | .checked _ => some (own, generation)
    | .releasing _ | .returned _ => none
  | _ => none

namespace World

/-- Whenever a marker was removed, it was the remover's own. -/
def ClearsOwn (w : World) : Prop := ∀ entry ∈ w.cleared, entry.1 = some entry.2

/-- A generation the data plane was not refreshed for has lost nothing of what
was published, its marker included. -/
def KeepsPending (w : World) : Prop :=
  w.disk.visible ∉ w.refreshed → ∀ g, w.disk.published w.disk.visible = some g →
    ∀ name m, g.read name = some m → w.disk.directory.read name = some m

/-- Every acknowledgement follows a publication of the same process. -/
def FollowsPublication : Event → Prop
  | .acknowledge _ _ _ => False
  | _ => True

/-- No generation becomes visible with an inode number that is remembered for
another, and what a process remembers is the generation it left visible. -/
def Careful (w : World) : Event → Prop
  | .advance p => ∀ r s, w.processes p = .publisher r (.committing s) →
    ∀ q own generation, (w.processes q).memory = some (own, generation) →
      (w.disk.nodes s.staged).ino ≠ generation
  | .stamp p => ∀ r own, w.processes p = .publisher r (.returned (.ok ()) own) →
    own = w.disk.visible
  | _ => True

/-- The states of the runs whose steps are all careful. -/
inductive CarefulRun (ino : Nat) (directory : Directory) : World → Prop
  | start : CarefulRun ino directory (initial ino directory)
  | next {w w' event} (run : CarefulRun ino directory w) (follows : FollowsPublication event)
      (careful : w.Careful event) (step : w.step event = some w') : CarefulRun ino directory w'

/-! ## What a process remembers -/

/-- A published generation and its inode number: while some directory is
visible under that number, it is this one. -/
structure Remembers (d : Disk) (own generation : Nat) : Prop where
  published : ∃ g, d.published own = some g
  only : (d.nodes d.visible).ino = generation → own = d.visible

end World

open World

/-- What a process that acknowledges relies on. -/
def Acknowledging.Mindful (d : Disk) (refreshed : List Nat) (own generation : Nat) :
    Acknowledging → Prop
  | .requested | .locked | .opened _ =>
    Remembers d own generation ∧ (own = d.visible → own ∈ refreshed)
  | .checked handle => handle = own ∧ own ∈ refreshed
  | .releasing _ | .returned _ => True

def Process.Mindful (d : Disk) (refreshed : List Nat) : Process → Prop
  | .publisher _ (.returned _ own) => ∃ g, d.published own = some g
  | .stamped own generation => Remembers d own generation
  | .refreshed own generation =>
    Remembers d own generation ∧ (own = d.visible → own ∈ refreshed)
  | .acknowledger _ own expected stage => ∃ o g, own = some o ∧ expected = some g ∧
      stage.Mindful d refreshed o g
  | _ => True

namespace World

structure Mindful (w : World) : Prop where
  processes : ∀ p, (w.processes p).Mindful w.disk w.refreshed
  clearsOwn : w.ClearsOwn
  keepsPending : w.KeepsPending

section
variable {d d' : Disk} {refreshed refreshed' : List Nat} {own generation : Nat}

theorem Remembers.steady (hs : Steady d d') (h : Remembers d own generation) :
    Remembers d' own generation where
  published := hs.published_eq ▸ h.published
  only := by
    rw [hs.visible_eq, hs.ino_eq]
    exact h.only

theorem refreshed_steady (hs : Steady d d') (hsub : ∀ id ∈ refreshed, id ∈ refreshed')
    (h : own = d.visible → own ∈ refreshed) : own = d'.visible → own ∈ refreshed' := by
  rw [hs.visible_eq]
  exact fun heq => hsub own (h heq)

theorem mindful_steady {process : Process} (hs : Steady d d')
    (hsub : ∀ id ∈ refreshed, id ∈ refreshed') (h : process.Mindful d refreshed) :
    process.Mindful d' refreshed' := by
  cases process with
  | publisher r stage =>
    cases stage with
    | returned result own =>
      obtain ⟨g, hg⟩ := h
      exact ⟨g, by rw [hs.published_eq, hg]⟩
    | _ => trivial
  | stamped own generation => exact Remembers.steady hs h
  | refreshed own generation => exact ⟨h.1.steady hs, refreshed_steady hs hsub h.2⟩
  | acknowledger marker own expected stage =>
    obtain ⟨o, g, hown, hexpected, h⟩ := h
    refine ⟨o, g, hown, hexpected, ?_⟩
    cases stage with
    | requested | locked | opened handle => exact ⟨h.1.steady hs, refreshed_steady hs hsub h.2⟩
    | checked handle => exact ⟨h.1, hsub o h.2⟩
    | releasing result | returned result => trivial
  | idle | reader first second stage | dead => trivial

/-- A generation that becomes visible is none of those remembered, if its inode
number is not. -/
theorem Remembers.exchange {s : Staging} (hs : s.Inv d) (h : Remembers d own generation)
    (hino : (d.nodes s.staged).ino ≠ generation) :
    Remembers (d.exchange s.staged) own generation ∧ own ≠ (d.exchange s.staged).visible := by
  obtain ⟨g, hg⟩ := h.published
  refine ⟨⟨⟨g, Disk.grows_exchange hs.unpublished _ _ hg⟩, fun heq => absurd heq hino⟩, ?_⟩
  rintro rfl
  have hnone : d.published s.staged = some g := hg
  rw [hs.unpublished] at hnone
  cases hnone

theorem mindful_exchange {s : Staging} {process : Process} (hs : s.Inv d)
    (hino : ∀ own generation, process.memory = some (own, generation) →
      (d.nodes s.staged).ino ≠ generation)
    (h : process.Mindful d refreshed) : process.Mindful (d.exchange s.staged) refreshed := by
  cases process with
  | publisher r stage =>
    cases stage with
    | returned result own =>
      obtain ⟨g, hg⟩ := h
      exact ⟨g, Disk.grows_exchange hs.unpublished _ _ hg⟩
    | _ => trivial
  | stamped own generation => exact (Remembers.exchange hs h (hino own generation rfl)).1
  | refreshed own generation =>
    obtain ⟨hremembers, hne⟩ := h.1.exchange hs (hino own generation rfl)
    exact ⟨hremembers, fun heq => absurd heq hne⟩
  | acknowledger marker own expected stage =>
    obtain ⟨o, g, rfl, rfl, h⟩ := h
    refine ⟨o, g, rfl, rfl, ?_⟩
    cases stage with
    | requested | locked | opened handle =>
      obtain ⟨hremembers, hne⟩ := h.1.exchange hs (hino o g rfl)
      exact ⟨hremembers, fun heq => absurd heq hne⟩
    | checked handle => exact h
    | releasing result | returned result => trivial
  | idle | reader first second stage | dead => trivial

end

/-! ## Every careful step -/

variable {w w' : World} {p : ProcessId}

theorem mindful_publisher {d : Disk} {refreshed : List Nat} {r : Request} {stage : Publishing}
    (hd : d.Inv) (h : ∀ result own, stage = .returned result own → own = d.visible) :
    (Process.publisher r stage).Mindful d refreshed := by
  cases stage with
  | returned result own =>
    cases h result own rfl
    exact hd.visible_published
  | _ => trivial

/-- A step that leaves what is visible, and removes no marker. -/
theorem Mindful.steady {process : Process} (h : w.Mindful) (hs : Steady w.disk w'.disk)
    (hdirectory : w'.disk.directory = w.disk.directory) (hmoved : Moved w w' p process)
    (hprocess : process.Mindful w.disk w.refreshed) : w'.Mindful where
  processes q := by
    rw [hmoved.processes_eq, hmoved.refreshed_eq]
    refine mindful_steady hs (fun _ hid => hid) ?_
    by_cases hq : q = p
    · subst hq
      simpa using hprocess
    · simpa [Function.update_of_ne hq] using h.processes q
  clearsOwn := by
    rw [ClearsOwn, hmoved.cleared_eq]
    exact h.clearsOwn
  keepsPending := by
    rw [KeepsPending, hs.visible_eq, hs.published_eq, hmoved.refreshed_eq, hdirectory]
    exact h.keepsPending

/-- A step that only moves the process on. -/
theorem Mindful.become {process : Process} (h : w.Mindful)
    (hprocess : process.Mindful w.disk w.refreshed) : (w.become p process).Mindful :=
  h.steady (.refl _) rfl ⟨rfl, rfl, rfl⟩ hprocess

theorem Mindful.relock {process : Process} {lock : Option ProcessId} (h : w.Mindful)
    (hprocess : process.Mindful w.disk w.refreshed) :
    (({ w with lock } : World).become p process).Mindful :=
  h.steady (.refl _) rfl ⟨rfl, rfl, rfl⟩ hprocess

theorem mindful_advancePublisher {r : Request} {stage : Publishing} (hinv : w.Inv) (h : w.Mindful)
    (hp : w.processes p = .publisher r stage) (hcareful : w.Careful (.advance p))
    (hw : w.advancePublisher p r stage = some w') : w'.Mindful := by
  obtain ⟨stage', hmoved, hown, hdisk⟩ := publisher_cases hinv hp hw
  cases hdisk with
  | inl hsteady =>
    exact h.steady hsteady.1 hsteady.2 hmoved (mindful_publisher hinv.disk hown)
  | inr hexchange =>
    obtain ⟨s, rest, rfl, hs, rfl, hdisk⟩ := hexchange
    refine ⟨fun q => ?_, ?_, ?_⟩
    · rw [hmoved.processes_eq, hmoved.refreshed_eq, hdisk]
      by_cases hq : q = p
      · subst hq
        rw [Function.update_self]
        trivial
      · rw [Function.update_of_ne hq]
        exact mindful_exchange hs (hcareful r s hp q) (h.processes q)
    · rw [ClearsOwn, hmoved.cleared_eq]
      exact h.clearsOwn
    · -- What became visible is what was recorded as published.
      intro _ g hg name m hm
      rw [hdisk] at hg ⊢
      rw [Disk.exchange] at hg
      simp only [Function.update_self, Option.some.injEq] at hg
      subst hg
      exact hm

theorem mindful_advanceAcknowledger {marker : String} {own expected : Option Nat}
    {stage : Acknowledging} (hinv : w.Inv) (h : w.Mindful)
    (hp : w.processes p = .acknowledger marker own expected stage)
    (hw : w.advanceAcknowledger p marker own expected stage = some w') : w'.Mindful := by
  obtain ⟨-, hlocal⟩ := hp ▸ hinv.processes p
  obtain ⟨o, g, rfl, rfl, hmind⟩ := hp ▸ h.processes p
  have hfinish (result : Except String Bool) :
      (w.become p (.acknowledger marker (some o) (some g) (.releasing result))).Mindful :=
    h.become ⟨o, g, rfl, rfl, trivial⟩
  cases stage with
  | requested =>
    simp only [advanceAcknowledger] at hw
    split at hw
    · cases hw
      exact h.become ⟨o, g, rfl, rfl, trivial⟩
    · split at hw <;> cases hw
      exact h.relock ⟨o, g, rfl, rfl, hmind⟩
  | locked =>
    cases hw
    exact h.become ⟨o, g, rfl, rfl, hmind⟩
  | opened handle =>
    simp only [advanceAcknowledger] at hw
    split at hw
    · cases hw
      exact hfinish _
    rename_i hexpected
    split at hw
    · cases hw
      exact hfinish _
    split at hw
    · cases hw
      have hhandle : handle = w.disk.visible := hlocal
      have hino : g = (w.disk.nodes handle).ino := Option.some.inj (not_not.mp hexpected)
      have hown : o = w.disk.visible := hmind.1.only (by rw [hino, hhandle])
      exact h.become ⟨o, g, rfl, rfl, hhandle.trans hown.symm, hmind.2 hown⟩
    · cases hw
      exact hfinish _
  | checked handle =>
    obtain ⟨rfl, hrefreshed⟩ := hmind
    have hhandle : handle = w.disk.visible := hlocal
    cases hw
    refine ⟨fun q => ?_, ?_, fun hpending => ?_⟩
    · refine mindful_steady (steady_setContent _ _ _) (fun _ hid => hid) ?_
      by_cases hq : q = p
      · subst hq
        simp only [World.become, Function.update_self]
        exact ⟨handle, g, rfl, rfl, trivial⟩
      · simpa [World.become, Function.update_of_ne hq] using h.processes q
    · intro entry hentry
      cases hentry with
      | head => rfl
      | tail _ hentry => exact h.clearsOwn entry hentry
    · exact absurd (hhandle ▸ hrefreshed) hpending
  | releasing result =>
    cases hw
    exact h.relock ⟨o, g, rfl, rfl, trivial⟩
  | returned result => cases hw

theorem mindful_advanceReader {first second : String} {stage : PairReading} (h : w.Mindful)
    (hw : w.advanceReader p first second stage = some w') : w'.Mindful := by
  cases stage with
  | opened handle | openedFirst handle a =>
    simp only [advanceReader] at hw
    split at hw <;> cases hw <;> exact h.become trivial
  | requested | openedSecond a b =>
    cases hw
    exact h.become trivial
  | returned result => cases hw

theorem mindful_stagePublisher {r : Request} {before : Directory} {previous ino : Nat}
    (hinv : w.Inv) (h : w.Mindful) (hw : w.stagePublisher p r before previous ino = some w') :
    w'.Mindful := by
  have hdirectory := directory_stagePublisher hinv hw
  obtain ⟨disk, hdisk, rfl⟩ := Option.map_eq_some_iff.mp hw
  have hsteady := steady_makeDirectory hinv.disk hdisk
  dsimp only at hdirectory ⊢
  split at hdirectory
  · exact h.steady hsteady hdirectory ⟨rfl, rfl, rfl⟩ trivial
  · split at hdirectory <;> exact h.steady hsteady hdirectory ⟨rfl, rfl, rfl⟩ trivial

theorem mindful_fail {message : String} (hinv : w.Inv) (h : w.Mindful)
    (hw : w.fail p message = some w') : w'.Mindful := by
  unfold fail at hw
  split at hw
  · rename_i stage hp
    cases stage <;> cases hw
    · exact h.become hinv.disk.visible_published
    all_goals exact h.become trivial
  all_goals
    first
    | cases hw
      done
    | rename_i hp
      obtain ⟨o, g, hown, hexpected, -⟩ := hp ▸ h.processes p
      cases hw
      exact h.become ⟨o, g, hown, hexpected, trivial⟩
    | cases hw
      exact h.become trivial

theorem mindful_step {event : Event} (hinv : w.Inv) (h : w.Mindful)
    (hfollows : FollowsPublication event) (hcareful : w.Careful event)
    (hw : w.step event = some w') : w'.Mindful := by
  have hstart (process : Process) (htrivial : process.Mindful w.disk w.refreshed) {p : ProcessId}
      (hw : w.start p process = some w') : w'.Mindful := by
    unfold start at hw
    split at hw <;> cases hw
    exact h.become htrivial
  cases event with
  | publish p r => exact hstart (.publisher r .requested) trivial hw
  | acknowledge p marker expected => exact hfollows.elim
  | read p first second => exact hstart (.reader first second .requested) trivial hw
  | stamp p =>
    simp only [step] at hw
    split at hw
    · rename_i r own hp
      cases hw
      have hmind := h.processes p
      rw [hp] at hmind
      have hpublished : ∃ g, w.disk.published own = some g := hmind
      have hown : own = w.disk.visible := hcareful r own hp
      exact h.become ⟨hpublished, fun _ => hown⟩
    · cases hw
  | refresh p =>
    simp only [step] at hw
    split at hw
    · rename_i own generation hp
      cases hw
      have hmind := h.processes p
      rw [hp] at hmind
      have hremembers : Remembers w.disk own generation := hmind
      refine ⟨fun q => ?_, h.clearsOwn, fun hpending => ?_⟩
      · by_cases hq : q = p
        · subst hq
          simp only [become, Function.update_self]
          exact ⟨hremembers, fun hown => hown ▸ List.mem_cons_self⟩
        · simp only [become, Function.update_of_ne hq]
          exact mindful_steady (.refl _) (fun _ hid => List.mem_cons_of_mem _ hid) (h.processes q)
      · exact absurd List.mem_cons_self hpending
    · cases hw
  | confirm p marker =>
    simp only [step] at hw
    split at hw
    · rename_i own generation hp
      cases hw
      have hmind : (Process.refreshed own generation).Mindful w.disk w.refreshed :=
        hp ▸ h.processes p
      exact h.become ⟨own, generation, rfl, rfl, hmind⟩
    · cases hw
  | advance p =>
    simp only [step, advance] at hw
    split at hw
    · exact mindful_advancePublisher hinv h ‹_› hcareful hw
    · exact mindful_advanceAcknowledger hinv h ‹_› hw
    · exact mindful_advanceReader h hw
    all_goals cases hw
  | makeDirectory p ino =>
    simp only [step] at hw
    split at hw
    · exact mindful_stagePublisher hinv h hw
    · cases hw
  | skip p =>
    simp only [step, skip] at hw
    split at hw <;> cases hw <;> exact h.become trivial
  | fail p message => exact mindful_fail hinv h hw
  | crash p =>
    cases hw
    exact h.relock trivial

theorem mindful_initial (ino : Nat) (directory : Directory) : (initial ino directory).Mindful where
  processes _ := trivial
  clearsOwn := fun entry hentry => absurd hentry List.not_mem_nil
  keepsPending := by
    intro _ g hg name m hm
    simp only [initial, Function.update_self, Option.some.injEq] at hg
    subst hg
    exact hm

theorem careful_run {ino : Nat} {directory : Directory} {w : World}
    (h : CarefulRun ino directory w) : w.Inv ∧ w.Mindful := by
  induction h with
  | start => exact ⟨inv_initial ino directory, mindful_initial ino directory⟩
  | next run follows careful step ih => exact ⟨inv_step ih.1 step, mindful_step ih.1 ih.2 follows careful step⟩

/-- In every state of a run whose steps are all careful, each removal of a
marker was from the remover's own generation, and a generation the data plane
was not refreshed for has its marker. -/
theorem acknowledges_own {ino : Nat} {directory : Directory} {w : World}
    (h : CarefulRun ino directory w) : w.ClearsOwn ∧ w.KeepsPending := by
  obtain ⟨-, hmindful⟩ := careful_run h
  exact ⟨hmindful.clearsOwn, hmindful.keepsPending⟩

/-! ## Checking a run -/

def actor : Event → ProcessId
  | .publish p _ | .acknowledge p _ _ | .read p _ _ | .stamp p | .refresh p | .confirm p _
  | .advance p | .makeDirectory p _ | .skip p | .fail p _ | .crash p => p

theorem processes_advanceAcknowledger {marker : String} {own expected : Option Nat}
    {stage : Acknowledging}
    (hw : w.advanceAcknowledger p marker own expected stage = some w') : ∃ stage', w'.processes =
      Function.update w.processes p (.acknowledger marker own expected stage') := by
  cases stage with
  | requested =>
    simp only [advanceAcknowledger] at hw
    split at hw
    · cases hw
      exact ⟨_, rfl⟩
    · split at hw <;> cases hw
      exact ⟨_, rfl⟩
  | opened handle =>
    simp only [advanceAcknowledger] at hw
    split at hw
    · cases hw
      exact ⟨_, rfl⟩
    split at hw
    · cases hw
      exact ⟨_, rfl⟩
    split at hw <;> cases hw <;> exact ⟨_, rfl⟩
  | locked | checked handle | releasing result =>
    cases hw
    exact ⟨_, rfl⟩
  | returned result => cases hw

theorem processes_advanceReader {first second : String} {stage : PairReading}
    (hw : w.advanceReader p first second stage = some w') : ∃ stage', w'.processes =
      Function.update w.processes p (.reader first second stage') := by
  cases stage with
  | opened handle | openedFirst handle a =>
    simp only [advanceReader] at hw
    split at hw <;> cases hw <;> exact ⟨_, rfl⟩
  | requested | openedSecond a b =>
    cases hw
    exact ⟨_, rfl⟩
  | returned result => cases hw

/-- A step moves one process. -/
theorem processes_step {event : Event} (hinv : w.Inv) (hw : w.step event = some w')
    {q : ProcessId} (hq : q ≠ actor event) : w'.processes q = w.processes q := by
  have hstart {p : ProcessId} {process : Process} (hq : q ≠ p)
      (hw : w.start p process = some w') : w'.processes q = w.processes q := by
    unfold start at hw
    split at hw <;> cases hw
    exact Function.update_of_ne hq _ _
  cases event with
  | publish p r | acknowledge p marker expected | read p first second => exact hstart hq hw
  | stamp p | refresh p | confirm p marker =>
    simp only [step] at hw
    split at hw <;> cases hw
    exact Function.update_of_ne hq _ _
  | advance p =>
    simp only [step, advance] at hw
    split at hw
    · obtain ⟨stage', hmoved, -, -⟩ := publisher_cases hinv ‹_› hw
      rw [hmoved.processes_eq]
      exact Function.update_of_ne hq _ _
    · obtain ⟨stage', heq⟩ := processes_advanceAcknowledger hw
      rw [heq]
      exact Function.update_of_ne hq _ _
    · obtain ⟨stage', heq⟩ := processes_advanceReader hw
      rw [heq]
      exact Function.update_of_ne hq _ _
    all_goals cases hw
  | makeDirectory p ino =>
    simp only [step] at hw
    split at hw
    · obtain ⟨disk, -, rfl⟩ := Option.map_eq_some_iff.mp hw
      dsimp only
      split
      · exact Function.update_of_ne hq _ _
      · split <;> exact Function.update_of_ne hq _ _
    · cases hw
  | skip p =>
    simp only [step, skip] at hw
    split at hw <;> cases hw <;> exact Function.update_of_ne hq _ _
  | fail p message =>
    simp only [step, fail] at hw
    split at hw
    · rename_i stage hp
      cases stage <;> cases hw <;> exact Function.update_of_ne hq _ _
    all_goals cases hw <;> exact Function.update_of_ne hq _ _
  | crash p =>
    cases hw
    exact Function.update_of_ne hq _ _

/-- The careful steps of the first `n` processes, as a check that evaluates. -/
def checkCareful (n : Nat) (w : World) : Event → Bool
  | .acknowledge _ _ _ => false
  | .advance p =>
    match w.processes p with
    | .publisher _ (.committing s) => (List.range n).all fun q =>
      (w.processes q).memory.all fun memory => (w.disk.nodes s.staged).ino != memory.2
    | _ => true
  | .stamp p =>
    match w.processes p with
    | .publisher _ (.returned (.ok ()) own) => own == w.disk.visible
    | _ => true
  | _ => true

def checkedRun (n : Nat) : World → List Event → Option World
  | w, [] => some w
  | w, event :: rest =>
    if actor event < n ∧ w.checkCareful n event then
      (w.step event).bind fun w => checkedRun n w rest
    else none

theorem checkCareful_sound {n : Nat} {event : Event} (hidle : ∀ q, n ≤ q → w.processes q = .idle)
    (h : w.checkCareful n event) : FollowsPublication event ∧ w.Careful event := by
  cases event with
  | acknowledge p marker expected => cases h
  | advance p =>
    refine ⟨trivial, fun r s hp q own generation hq => ?_⟩
    simp only [checkCareful, hp] at h
    by_cases hlt : q < n
    · have hall := List.all_eq_true.mp h q (List.mem_range.mpr hlt)
      rw [hq] at hall
      exact bne_iff_ne.mp hall
    · rw [hidle q (not_lt.mp hlt)] at hq
      cases hq
  | stamp p =>
    refine ⟨trivial, fun r own hp => ?_⟩
    simp only [checkCareful, hp] at h
    exact beq_iff_eq.mp h
  | _ => exact ⟨trivial, trivial⟩

theorem CarefulRun.checked {ino n : Nat} {directory : Directory} {events : List Event}
    (h : CarefulRun ino directory w) (hidle : ∀ q, n ≤ q → w.processes q = .idle)
    (hw : checkedRun n w events = some w') : CarefulRun ino directory w' := by
  induction events generalizing w with
  | nil =>
    cases hw
    exact h
  | cons event rest ih =>
    rw [checkedRun] at hw
    split at hw
    · rename_i hcheck
      obtain ⟨next, hnext, hrest⟩ := Option.bind_eq_some_iff.mp hw
      obtain ⟨hfollows, hcareful⟩ := checkCareful_sound hidle hcheck.2
      refine ih (h.next hfollows hcareful hnext) (fun q hq => ?_) hrest
      have hne : q ≠ actor event := (hcheck.1.trans_le hq).ne'
      rw [processes_step (careful_run h).1 hnext hne, hidle q hq]
    · cases hw

/-- All the steps of a publication over a generation of `n` files. -/
def publication (p : ProcessId) (contents : Bytes) (ino n : Nat) : List Event :=
  [.publish p (sampleRequest contents), .advance p, .advance p, .makeDirectory p ino] ++
    List.replicate (2 * n + 10) (.advance p)

/-- Two commands, of which the second publishes before the first confirms. -/
def overtakingEvents : List Event :=
  publication 0 [2] 2 2 ++ [.stamp 0] ++ publication 1 [3] 3 3 ++ [.stamp 1, .refresh 0] ++
    [.confirm 0 ".pending"] ++ List.replicate 4 (.advance 0) ++ [.refresh 1] ++
    [.confirm 1 ".pending"] ++ List.replicate 5 (.advance 1)

theorem acknowledges_own_sample : ∃ w, CarefulRun 1 sampleDirectory w ∧
    w.cleared = [(some 2, 2)] ∧ w.ClearsOwn ∧ w.KeepsPending := by
  have hrun : (checkedRun 2 (initial 1 sampleDirectory) overtakingEvents).any fun w =>
      w.cleared = [(some 2, 2)] := by decide +kernel
  obtain ⟨w, hw, hcleared⟩ := (Option.any_eq_true _ _).mp hrun
  have hcareful := CarefulRun.start.checked (fun _ _ => rfl) hw
  exact ⟨w, hcareful, of_decide_eq_true hcleared, acknowledges_own hcareful⟩

/-- The third publication's directory gets the inode number of the first's,
which the second has removed. -/
def reusingEvents : List Event :=
  publication 0 [2] 2 2 ++ [.stamp 0] ++ publication 1 [3] 3 3 ++ [.refresh 0] ++
    publication 2 [4] 2 3 ++ [.confirm 0 ".pending"] ++ List.replicate 5 (.advance 0)

theorem foreign_marker_cleared : ∃ events w, (∀ event ∈ events, FollowsPublication event) ∧
    run (initial 1 sampleDirectory) events = some w ∧ ¬ w.ClearsOwn ∧ ¬ w.KeepsPending := by
  have hrun : (run (initial 1 sampleDirectory) reusingEvents).any fun w =>
      w.cleared = [(some 1, 3)] ∧ w.refreshed = [2] ∧ w.disk.visible = 3 ∧
        ((w.disk.published 3).bind fun g => g.read (bytes ".pending")).isSome ∧
          w.disk.directory.read (bytes ".pending") = none := by decide +kernel
  obtain ⟨w, hw, hfacts⟩ := (Option.any_eq_true _ _).mp hrun
  obtain ⟨hcleared, hrefreshed, hvisible, hpublished, hnone⟩ := of_decide_eq_true hfacts
  obtain ⟨m, hm⟩ := Option.isSome_iff_exists.mp hpublished
  obtain ⟨g, hg, hm⟩ := Option.bind_eq_some_iff.mp hm
  refine ⟨reusingEvents, w, ?_, hw, fun hown => ?_, fun hkeeps => ?_⟩
  · intro event hevent
    cases event with
    | acknowledge p marker expected => simp [reusingEvents, publication] at hevent
    | _ => trivial
  · have := hown (some 1, 3) (by rw [hcleared]; exact List.mem_singleton.mpr rfl)
    cases this
  · have hpending : w.disk.visible ∉ w.refreshed := by rw [hvisible, hrefreshed]; decide
    have := hkeeps hpending g (hvisible ▸ hg) _ m hm
    rw [hnone] at this
    cases this

end World

end Sbctl
