import Sbctl.Generations

/-!
# Generations are never torn

What every process relies on, whatever the others do. Only the holder of the
lock changes a directory; the staged one is not visible until it is complete,
and the visible one never gains an entry.

* `inv_step`, `inv_run`: what every step and every run keeps;
* `directory_step`: which steps change what is visible;
* `generations_never_torn`: what readers and publishers are left with.
-/

namespace Sbctl

open Text

namespace Disk

theorem content_setContent (d : Disk) (id k : Nat) (directory : Directory) :
    (d.setContent id directory).content k = if k = id then directory else d.content k := by
  by_cases h : k = id
  · subst h
    simp [setContent, content]
  · simp [setContent, content, h]

theorem content_removeDirectory (d : Disk) (id k : Nat) :
    (d.removeDirectory id).content k = d.content k := by
  by_cases h : k = id
  · subst h
    simp [removeDirectory, content]
  · simp [removeDirectory, content, h]

theorem makeDirectory_eq {d d' : Disk} {ino : Nat} {directory : Directory}
    (h : d.makeDirectory ino directory = some d') :
    d' = { d with nodes := Function.update d.nodes d.next ⟨ino, directory, true⟩,
                  next := d.next + 1 } ∧
      ∀ id < d.next, (d.nodes id).linked → (d.nodes id).ino ≠ ino := by
  unfold makeDirectory at h
  split at h <;> cases h
  rename_i hfree
  refine ⟨rfl, fun id hid hlinked heq => ?_⟩
  have := List.all_eq_true.mp hfree id (List.mem_range.mpr hid)
  simp [hlinked, heq] at this

theorem content_makeDirectory {d d' : Disk} {ino : Nat} {directory : Directory}
    (h : d.makeDirectory ino directory = some d') (k : Nat) :
    d'.content k = if k = d.next then directory else d.content k := by
  obtain ⟨rfl, -⟩ := makeDirectory_eq h
  by_cases hk : k = d.next
  · subst hk
    simp [content]
  · simp [content, hk]

/-- What the file system keeps: a directory that was published never gains an
entry. -/
structure Inv (d : Disk) : Prop where
  visible_published : ∃ g, d.published d.visible = some g
  within : ∀ {id : Nat} {g : Directory}, d.published id = some g →
    ∀ {name : Bytes} {m : Material}, (d.content id).read name = some m → g.read name = some m
  lt_next : ∀ {id : Nat} {g : Directory}, d.published id = some g → id < d.next

/-- What was published stays recorded. -/
def Grows (d d' : Disk) : Prop :=
  ∀ id g, d.published id = some g → d'.published id = some g

theorem Grows.refl (d : Disk) : d.Grows d := fun _ _ hg => hg

theorem Inv.setContent {d : Disk} (h : d.Inv) {id : Nat} {directory : Directory}
    (hwithin : ∀ g, d.published id = some g → ∀ name m, directory.read name = some m →
      g.read name = some m) : (d.setContent id directory).Inv where
  visible_published := h.visible_published
  within := by
    intro k g hg name m hm
    rw [content_setContent] at hm
    split at hm
    · rename_i hk
      subst hk
      exact hwithin g hg name m hm
    · exact h.within hg hm
  lt_next := h.lt_next

theorem Inv.unlink {d : Disk} (h : d.Inv) (id : Nat) (name : Bytes) :
    (d.setContent id ((d.content id).unlink name)).Inv := by
  apply h.setContent
  intro g hg k m hm
  rw [Directory.read_unlink] at hm
  split at hm
  · cases hm
  · exact h.within hg hm

theorem Inv.removeDirectory {d : Disk} (h : d.Inv) (id : Nat) : (d.removeDirectory id).Inv where
  visible_published := h.visible_published
  within := by
    intro k g hg name m hm
    rw [content_removeDirectory] at hm
    exact h.within hg hm
  lt_next := h.lt_next

theorem Inv.makeDirectory {d d' : Disk} (h : d.Inv) {ino : Nat} {directory : Directory}
    (hd : d.makeDirectory ino directory = some d') : d'.Inv := by
  have hcontent := content_makeDirectory hd
  obtain ⟨rfl, -⟩ := makeDirectory_eq hd
  refine ⟨h.visible_published, ?_, fun hg => Nat.lt_succ_of_lt (h.lt_next hg)⟩
  intro k g hg name m hm
  rw [hcontent, if_neg (h.lt_next hg).ne] at hm
  exact h.within hg hm

theorem Inv.exchange {d : Disk} (h : d.Inv) {id : Nat} (hlt : id < d.next) :
    (d.exchange id).Inv where
  visible_published := ⟨_, Function.update_self _ _ _⟩
  within := by
    intro k g hg name m hm
    by_cases hk : k = id
    · subst hk
      simp only [Disk.exchange, Function.update_self, Option.some.injEq] at hg
      exact hg ▸ hm
    · simp only [Disk.exchange, Function.update_of_ne hk] at hg
      exact h.within hg hm
  lt_next := by
    intro k g hg
    by_cases hk : k = id
    · exact hk ▸ hlt
    · simp only [Disk.exchange, Function.update_of_ne hk] at hg
      exact h.lt_next hg

theorem grows_exchange {d : Disk} {id : Nat} (h : d.published id = none) :
    d.Grows (d.exchange id) := by
  intro k g hg
  have hk : k ≠ id := by
    rintro rfl
    rw [h] at hg
    cases hg
  simpa [Disk.exchange, Function.update_of_ne hk] using hg

end Disk

/-! ## What a process relies on -/

/-- Nobody else changes the visible directory, or the staged one, which was
never visible. -/
structure Staging.Inv (d : Disk) (s : Staging) : Prop where
  before_eq : d.directory = s.before
  previous_eq : s.previous = d.visible
  apart : s.staged ≠ d.visible
  lt_next : s.staged < d.next
  unpublished : d.published s.staged = none

/-- What a publisher leaves visible, with what it returns. -/
def Request.Leaves (r : Request) (before after : Directory) : Except String Unit → Prop
  | .error _ => after = before
  | .ok () => r.replaceFilesWithMarker before = .ok none ∧ after = before ∨
      r.replaceFilesWithMarker before = .ok (some after)

/-- While a generation is staged, what is left to do to it makes it the staged
generation of the one before. -/
def Publishing.Inv (d : Disk) (r : Request) : Publishing → Prop
  | .requested => True
  | .locked before => d.directory = before ∧ r.validate = .ok ()
  | .opened before previous =>
    d.directory = before ∧ r.validate = .ok () ∧ previous = d.visible
  | .linking s rest => s.Inv d ∧ r.stage s.before = do
      let staged ← r.linkEntries s.before rest (d.content s.staged)
      let staged ← r.writeFiles r.files staged
      return r.applyDirectoryPolicy staged
  | .writing s rest => s.Inv d ∧ r.stage s.before = do
      let staged ← r.writeFiles rest (d.content s.staged)
      return r.applyDirectoryPolicy staged
  | .preparing s => s.Inv d ∧
      r.stage s.before = .ok (r.applyDirectoryPolicy (d.content s.staged))
  | .comparing s => s.Inv d ∧ r.stage s.before = .ok (d.content s.staged)
  | .marking s => s.Inv d ∧ r.replaceFilesWithMarker s.before =
      (r.mark (d.content s.staged)).map some
  | .committing s => s.Inv d ∧ r.replaceFilesWithMarker s.before = .ok (some (d.content s.staged))
  | .cleaning before target _ result => target ≠ d.visible ∧ r.Leaves before d.directory result
  | .releasing before result => r.Leaves before d.directory result
  | .returned _ _ => True

def Publishing.holds : Publishing → Bool
  | .requested | .returned _ _ => false
  | _ => true

def Acknowledging.holds : Acknowledging → Bool
  | .requested | .returned _ => false
  | _ => true

def Process.holds : Process → Bool
  | .publisher _ stage => stage.holds
  | .acknowledger _ _ _ stage => stage.holds
  | _ => false

/-- Two files of one generation that was published. -/
def Together (d : Disk) (first second : String) (a b : Material) : Prop :=
  ∃ id g, d.published id = some g ∧ g.read (bytes first) = some a ∧ g.read (bytes second) = some b

def PairReading.Inv (d : Disk) (first second : String) : PairReading → Prop
  | .requested => True
  | .opened handle => ∃ g, d.published handle = some g
  | .openedFirst handle a => ∃ g, d.published handle = some g ∧ g.read (bytes first) = some a
  | .openedSecond a b => Together d first second a b
  | .returned (.ok (x, y)) => ∃ a b, Together d first second a b ∧ a.bytes = x ∧ b.bytes = y
  | .returned (.error _) => True

def Acknowledging.Inv (d : Disk) : Acknowledging → Prop
  | .opened handle | .checked handle => handle = d.visible
  | _ => True

def Process.Local (d : Disk) : Process → Prop
  | .publisher r stage => stage.Inv d r
  | .acknowledger _ _ _ stage => stage.Inv d
  | .reader first second stage => stage.Inv d first second
  | .idle | .stamped _ _ | .refreshed _ _ | .dead => True

def Process.Inv (d : Disk) (lock : Option ProcessId) (p : ProcessId) (process : Process) : Prop :=
  (process.holds → lock = some p) ∧ process.Local d

theorem Together.mono {d d' : Disk} (hgrows : d.Grows d') {first second : String} {a b : Material}
    (h : Together d first second a b) : Together d' first second a b := by
  obtain ⟨id, g, hg, hread⟩ := h
  exact ⟨id, g, hgrows _ _ hg, hread⟩

theorem PairReading.Inv.mono {d d' : Disk} (hgrows : d.Grows d') {first second : String}
    {stage : PairReading} (h : stage.Inv d first second) : stage.Inv d' first second := by
  cases stage with
  | requested => trivial
  | opened handle =>
    obtain ⟨g, hg⟩ := h
    exact ⟨g, hgrows _ _ hg⟩
  | openedFirst handle a =>
    obtain ⟨g, hg, ha⟩ := h
    exact ⟨g, hgrows _ _ hg, ha⟩
  | openedSecond a b => exact Together.mono hgrows h
  | returned result =>
    cases result with
    | error message => trivial
    | ok pair =>
      obtain ⟨a, b, htogether, hbytes⟩ := h
      exact ⟨a, b, htogether.mono hgrows, hbytes⟩

/-- Without the lock, a process relies on nothing but what was published. -/
theorem Process.Local.mono {d d' : Disk} (hgrows : d.Grows d') {process : Process}
    (hfree : process.holds = false) (h : process.Local d) : process.Local d' := by
  cases process with
  | publisher r stage =>
    cases stage with
    | requested | returned result own => trivial
    | _ => cases hfree
  | acknowledger marker own expected stage =>
    cases stage with
    | requested | returned result => trivial
    | _ => cases hfree
  | reader first second stage => exact PairReading.Inv.mono hgrows h
  | idle | stamped own generation | refreshed own generation | dead => trivial

namespace World

structure Inv (w : World) : Prop where
  disk : w.disk.Inv
  processes : ∀ p, (w.processes p).Inv w.disk w.lock p

/-- One process moves. The others keep what they rely on: whoever of them
holds the lock finds it and the file system as they were. -/
theorem Inv.update {w : World} (h : w.Inv) {p : ProcessId} {process : Process} {disk : Disk}
    {lock : Option ProcessId} {refreshed : List Nat} {cleared : List (Option Nat × Nat)}
    (hdisk : disk.Inv) (hgrows : w.disk.Grows disk)
    (hothers : ∀ q, q ≠ p → w.lock = some q → lock = some q ∧ disk = w.disk)
    (hown : process.Inv disk lock p) :
    Inv ⟨disk, lock, Function.update w.processes p process, refreshed, cleared⟩ := by
  refine ⟨hdisk, fun q => ?_⟩
  by_cases hq : q = p
  · subst hq
    simpa using hown
  · simp only [Function.update_of_ne hq]
    obtain ⟨hlock, hlocal⟩ := h.processes q
    cases hholds : (w.processes q).holds with
    | false => exact ⟨fun h => (Bool.false_ne_true (hholds.symm.trans h)).elim,
        hlocal.mono hgrows hholds⟩
    | true =>
      obtain ⟨hlock', rfl⟩ := hothers q hq (hlock hholds)
      exact ⟨fun _ => hlock', hlocal⟩

theorem Inv.become {w : World} (h : w.Inv) {p : ProcessId} {process : Process}
    (hown : process.Inv w.disk w.lock p) : (w.become p process).Inv :=
  h.update h.disk (Disk.Grows.refl _) (fun _ _ hq => ⟨hq, rfl⟩) hown

/-- The holder of the lock changes the file system. -/
theorem Inv.change {w : World} (h : w.Inv) {p : ProcessId} (hlock : w.lock = some p)
    {process : Process} {disk : Disk} (hdisk : disk.Inv) (hgrows : w.disk.Grows disk)
    {cleared : List (Option Nat × Nat)} (hlocal : process.Local disk) :
    (({ w with disk, cleared } : World).become p process).Inv := by
  refine h.update hdisk hgrows (fun q hq hq' => ?_) ⟨fun _ => hlock, hlocal⟩
  rw [hlock] at hq'
  exact absurd (Option.some.inj hq').symm hq

theorem Inv.acquire {w : World} (h : w.Inv) {p : ProcessId} (hfree : w.lock = none)
    {process : Process} (hlocal : process.Local w.disk) :
    (({ w with lock := some p } : World).become p process).Inv := by
  refine h.update h.disk (Disk.Grows.refl _) (fun q _ hq => ?_) ⟨fun _ => rfl, hlocal⟩
  rw [hfree] at hq
  cases hq

theorem Inv.release {w : World} (h : w.Inv) {p : ProcessId} (hlock : w.lock = some p)
    {process : Process} (hholds : process.holds = false) (hlocal : process.Local w.disk) :
    (({ w with lock := none } : World).become p process).Inv := by
  refine h.update h.disk (Disk.Grows.refl _) (fun q hq hq' => ?_) ⟨fun h => ?_, hlocal⟩
  · rw [hlock] at hq'
    exact absurd (Option.some.inj hq').symm hq
  · rw [hholds] at h
    cases h

/-! ## Publishers -/

theorem directory_setContent {d : Disk} {id : Nat} {directory : Directory} (h : id ≠ d.visible) :
    (d.setContent id directory).directory = d.directory := by
  rw [Disk.directory, Disk.content_setContent]
  exact if_neg h.symm

theorem staging_setContent {d : Disk} {s : Staging} (h : s.Inv d) (directory : Directory) :
    s.Inv (d.setContent s.staged directory) where
  before_eq := (directory_setContent h.apart).trans h.before_eq
  previous_eq := h.previous_eq
  apart := h.apart
  lt_next := h.lt_next
  unpublished := h.unpublished

theorem inv_setContent {d : Disk} {s : Staging} (hd : d.Inv) (h : s.Inv d) (directory : Directory) :
    (d.setContent s.staged directory).Inv := by
  apply hd.setContent
  intro g hg
  rw [h.unpublished] at hg
  cases hg

variable {w w' : World} {p : ProcessId} {r : Request}

theorem inv_abandon {s : Staging} {message : String} (h : w.Inv) (hlock : w.lock = some p)
    (hs : s.Inv w.disk) : (w.abandon p r s message).Inv :=
  h.become ⟨fun _ => hlock, hs.apart, hs.before_eq⟩

/-- The holder of the lock replaces what it has staged so far. -/
theorem Inv.restage {s : Staging} {staged : Directory} {process : Process} (h : w.Inv)
    (hlock : w.lock = some p) (hs : s.Inv w.disk)
    (hlocal : s.Inv (w.disk.setContent s.staged staged) →
      (w.disk.setContent s.staged staged).content s.staged = staged →
      process.Local (w.disk.setContent s.staged staged)) :
    (({ w with disk := w.disk.setContent s.staged staged } : World).become p process).Inv := by
  refine h.change hlock (inv_setContent h.disk hs staged) (Disk.Grows.refl _) (hlocal ?_ ?_)
  · exact staging_setContent hs staged
  · rw [Disk.content_setContent, if_pos rfl]

theorem content_previous {d : Disk} {s : Staging} (h : s.Inv d) :
    d.content s.previous = s.before := by
  rw [h.previous_eq]
  exact h.before_eq

section
variable {s : Staging} (h : w.Inv)

include h

/-- The holder of the lock tries to change what it has staged, and abandons it when that
fails. -/
theorem inv_outcome {outcome : Except String Directory} {stage : Publishing}
    (hlock : w.lock = some p) (hs : s.Inv w.disk)
    (hw : (match outcome with
      | .error message => some (w.abandon p r s message)
      | .ok staged => some (({ w with disk := w.disk.setContent s.staged staged } : World).become p
          (.publisher r stage))) = some w')
    (hnext : ∀ staged, outcome = .ok staged → s.Inv (w.disk.setContent s.staged staged) →
      (w.disk.setContent s.staged staged).content s.staged = staged →
      stage.Inv (w.disk.setContent s.staged staged) r) : w'.Inv := by
  cases outcome with
  | error message =>
    cases hw
    exact inv_abandon h hlock hs
  | ok staged =>
    cases hw
    exact h.restage hlock hs (hnext staged rfl)

theorem inv_requested (hw : w.advancePublisher p r .requested = some w') : w'.Inv := by
  simp only [advancePublisher] at hw
  split at hw
  · cases hw
    exact h.become ⟨nofun, trivial⟩
  · rename_i hvalid
    split at hw <;> cases hw
    exact h.acquire ‹_› ⟨rfl, hvalid⟩

theorem inv_linking {rest : List Bytes} (hlock : w.lock = some p)
    (hstage : (Publishing.linking s rest).Inv w.disk r)
    (hw : w.advancePublisher p r (.linking s rest) = some w') : w'.Inv := by
  obtain ⟨hs, hrest⟩ := hstage
  cases rest with
  | nil =>
    cases hw
    exact h.become ⟨fun _ => hlock, hs, hrest⟩
  | cons name rest =>
    simp only [advancePublisher, content_previous hs] at hw
    refine inv_outcome h hlock hs hw fun staged hlink hs' hcontent => ⟨hs', ?_⟩
    rw [hrest, hcontent, Request.linkEntries, hlink]
    rfl

theorem inv_writing {rest : List (String × Bytes)} (hlock : w.lock = some p)
    (hstage : (Publishing.writing s rest).Inv w.disk r)
    (hw : w.advancePublisher p r (.writing s rest) = some w') : w'.Inv := by
  obtain ⟨hs, hrest⟩ := hstage
  cases rest with
  | nil =>
    cases hw
    exact h.become ⟨fun _ => hlock, hs, hrest⟩
  | cons file rest =>
    simp only [advancePublisher] at hw
    refine inv_outcome h hlock hs hw fun staged hwrite hs' hcontent => ⟨hs', ?_⟩
    rw [hrest, hcontent, Request.writeFiles, hwrite]
    rfl

theorem inv_comparing (hlock : w.lock = some p) (hstage : (Publishing.comparing s).Inv w.disk r)
    (hw : w.advancePublisher p r (.comparing s) = some w') : w'.Inv := by
  obtain ⟨hs, hrest⟩ := hstage
  simp only [advancePublisher, content_previous hs] at hw
  cases hsame : r.unchanged s.before (w.disk.content s.staged) with
  | error message =>
    rw [hsame] at hw
    cases hw
    exact inv_abandon h hlock hs
  | ok same =>
    have hresult := Request.replaceFilesWithMarker_of_stage hrest hsame
    rw [hsame] at hw
    cases same with
    | true =>
      cases hw
      exact h.become ⟨fun _ => hlock, hs.apart, .inl ⟨hresult, hs.before_eq⟩⟩
    | false =>
      cases hw
      exact h.become ⟨fun _ => hlock, hs, hresult⟩

theorem inv_committing (hlock : w.lock = some p)
    (hstage : (Publishing.committing s).Inv w.disk r)
    (hw : w.advancePublisher p r (.committing s) = some w') : w'.Inv := by
  obtain ⟨hs, hrest⟩ := hstage
  simp only [advancePublisher] at hw
  split at hw
  · cases hw
    refine h.change hlock (h.disk.exchange hs.lt_next)
      (Disk.grows_exchange hs.unpublished) ⟨?_, .inr hrest⟩
    rw [hs.previous_eq]
    exact hs.apart.symm
  · cases hw
    exact inv_abandon h hlock hs

theorem inv_cleaning {before : Directory} {target : Nat} {rest : List Bytes}
    {result : Except String Unit} (hlock : w.lock = some p)
    (hstage : (Publishing.cleaning before target rest result).Inv w.disk r)
    (hw : w.advancePublisher p r (.cleaning before target rest result) = some w') : w'.Inv := by
  obtain ⟨hapart, hleaves⟩ := hstage
  cases rest with
  | nil =>
    cases hw
    refine h.change hlock (h.disk.removeDirectory target) (Disk.Grows.refl _) ?_
    change r.Leaves before (Disk.directory _) result
    rw [Disk.directory, Disk.content_removeDirectory]
    exact hleaves
  | cons name rest =>
    cases hw
    refine h.change hlock (h.disk.unlink target name) (Disk.Grows.refl _) ⟨hapart, ?_⟩
    rw [directory_setContent hapart]
    exact hleaves

end

/-- A step of a publisher keeps the invariant, whatever its stage. -/
theorem inv_advancePublisher {stage : Publishing} (h : w.Inv)
    (hp : w.processes p = .publisher r stage)
    (hw : w.advancePublisher p r stage = some w') : w'.Inv := by
  obtain ⟨hlock, hstage⟩ := hp ▸ h.processes p
  cases stage with
  | requested => exact inv_requested h hw
  | locked before =>
    cases hw
    obtain ⟨hbefore, hvalid⟩ := hstage
    exact h.become ⟨fun _ => hlock rfl, hbefore, hvalid, rfl⟩
  | opened before previous => cases hw
  | linking s rest => exact inv_linking h (hlock rfl) hstage hw
  | writing s rest => exact inv_writing h (hlock rfl) hstage hw
  | preparing s =>
    obtain ⟨hs, hrest⟩ := hstage
    cases hw
    refine h.restage (hlock rfl) hs fun hs' hcontent => ⟨hs', ?_⟩
    rw [hrest, hcontent]
  | comparing s => exact inv_comparing h (hlock rfl) hstage hw
  | marking s =>
    obtain ⟨hs, hrest⟩ := hstage
    simp only [advancePublisher] at hw
    refine inv_outcome h (hlock rfl) hs hw fun staged hmark hs' hcontent => ⟨hs', ?_⟩
    rw [hrest, hmark, hcontent]
    rfl
  | committing s => exact inv_committing h (hlock rfl) hstage hw
  | cleaning before target rest result => exact inv_cleaning h (hlock rfl) hstage hw
  | releasing before result =>
    cases hw
    exact h.release (hlock rfl) rfl trivial
  | returned result own => cases hw

/-- A new directory is not the visible one, and was never visible. -/
theorem staging_makeDirectory {d d' : Disk} {ino : Nat} {directory : Directory} (hd : d.Inv)
    (h : d.makeDirectory ino directory = some d') :
    Staging.Inv d' ⟨d.directory, d.visible, d.next⟩ := by
  have hcontent := Disk.content_makeDirectory h
  obtain ⟨rfl, -⟩ := Disk.makeDirectory_eq h
  have hlt : d.visible < d.next := by
    obtain ⟨g, hg⟩ := hd.visible_published
    exact hd.lt_next hg
  refine ⟨(hcontent d.visible).trans (if_neg hlt.ne), rfl, hlt.ne', Nat.lt_succ_self _, ?_⟩
  cases hg : d.published d.next with
  | none => rfl
  | some g => exact absurd (hd.lt_next hg) (lt_irrefl _)

theorem grows_makeDirectory {d d' : Disk} {ino : Nat} {directory : Directory}
    (h : d.makeDirectory ino directory = some d') : d.Grows d' := by
  obtain ⟨rfl, -⟩ := Disk.makeDirectory_eq h
  exact Disk.Grows.refl d

theorem inv_stagePublisher {before : Directory} {previous ino : Nat} (h : w.Inv)
    (hp : w.processes p = .publisher r (.opened before previous))
    (hw : w.stagePublisher p r before previous ino = some w') : w'.Inv := by
  obtain ⟨hlock, hbefore, hvalid, rfl⟩ := hp ▸ h.processes p
  obtain ⟨disk, hdisk, hw⟩ := Option.map_eq_some_iff.mp hw
  have hinv := h.disk.makeDirectory hdisk
  have hgrows := grows_makeDirectory hdisk
  have hs := staging_makeDirectory h.disk hdisk
  have hstaged := (Disk.content_makeDirectory hdisk w.disk.next).trans (if_pos rfl)
  have hcontent : w.disk.content w.disk.visible = before := hbefore
  rw [hbefore] at hs
  simp only [hcontent] at hw
  have habandoned (message : String) :
      (({ w with disk } : World).abandon p r ⟨before, w.disk.visible, w.disk.next⟩ message).Inv :=
    h.change (hlock rfl) hinv hgrows ⟨hs.apart, hs.before_eq⟩
  cases hnames : before.entryNames with
  | error message =>
    rw [hnames] at hw
    exact hw ▸ habandoned message
  | ok names =>
    cases hsize : r.checkSize names with
    | error message =>
      simp only [hnames, hsize] at hw
      exact hw ▸ habandoned message
    | ok u =>
      simp only [hnames, hsize] at hw
      refine hw ▸ h.change (hlock rfl) hinv hgrows ⟨hs, ?_⟩
      simp only [hstaged, Request.stage, hvalid, hnames]
      change (r.checkSize names).bind _ = _
      rw [hsize]
      rfl

theorem inv_failPublisher {stage : Publishing} {message : String} (h : w.Inv)
    (hp : w.processes p = .publisher r stage)
    (hw : w.failPublisher p r message stage = some w') : w'.Inv := by
  obtain ⟨hlock, hstage⟩ := hp ▸ h.processes p
  cases stage with
  | requested =>
    cases hw
    exact h.become ⟨nofun, trivial⟩
  | locked before | opened before previous =>
    cases hw
    exact h.become ⟨fun _ => hlock rfl, hstage.1⟩
  | linking s rest | writing s rest | preparing s | comparing s | marking s | committing s =>
    cases hw
    exact inv_abandon h (hlock rfl) hstage.1
  | cleaning before target rest result | releasing before result | returned result own => cases hw

/-! ## Acknowledgers and readers -/

theorem inv_advanceAcknowledger {marker : String} {own expected : Option Nat}
    {stage : Acknowledging} (h : w.Inv)
    (hp : w.processes p = .acknowledger marker own expected stage)
    (hw : w.advanceAcknowledger p marker own expected stage = some w') : w'.Inv := by
  obtain ⟨hlock, hstage⟩ := hp ▸ h.processes p
  cases stage with
  | requested =>
    simp only [advanceAcknowledger] at hw
    split at hw
    · cases hw
      exact h.become ⟨nofun, trivial⟩
    · split at hw <;> cases hw
      exact h.acquire ‹_› trivial
  | locked =>
    cases hw
    exact h.become ⟨fun _ => hlock rfl, rfl⟩
  | opened handle =>
    have hfinish (result : Except String Bool) :
        (w.become p (.acknowledger marker own expected (.releasing result))).Inv :=
      h.become ⟨fun _ => hlock rfl, trivial⟩
    simp only [advanceAcknowledger] at hw
    split at hw
    · cases hw
      exact hfinish _
    split at hw
    · cases hw
      exact hfinish _
    split at hw
    · cases hw
      exact h.become ⟨fun _ => hlock rfl, hstage⟩
    · cases hw
      exact hfinish _
  | checked handle =>
    cases hw
    exact h.change (hlock rfl) (h.disk.unlink handle (bytes marker)) (Disk.Grows.refl _) trivial
  | releasing result =>
    cases hw
    exact h.release (hlock rfl) rfl trivial
  | returned result => cases hw

theorem inv_advanceReader {first second : String} {stage : PairReading} (h : w.Inv)
    (hp : w.processes p = .reader first second stage)
    (hw : w.advanceReader p first second stage = some w') : w'.Inv := by
  obtain ⟨-, hstage⟩ := hp ▸ h.processes p
  cases stage with
  | requested =>
    cases hw
    exact h.become ⟨nofun, h.disk.visible_published⟩
  | opened handle =>
    obtain ⟨g, hg⟩ := hstage
    simp only [advanceReader] at hw
    split at hw
    · cases hw
      exact h.become ⟨nofun, trivial⟩
    · rename_i material hread
      cases hw
      obtain ⟨hread, -⟩ := Directory.regularFile_ok hread
      exact h.become ⟨nofun, g, hg, h.disk.within hg hread⟩
  | openedFirst handle a =>
    obtain ⟨g, hg, ha⟩ := hstage
    simp only [advanceReader] at hw
    split at hw
    · cases hw
      exact h.become ⟨nofun, trivial⟩
    · rename_i material hread
      cases hw
      obtain ⟨hread, -⟩ := Directory.regularFile_ok hread
      exact h.become ⟨nofun, handle, g, hg, ha, h.disk.within hg hread⟩
  | openedSecond a b =>
    cases hw
    refine h.become ⟨nofun, ?_⟩
    change PairReading.Inv _ first second (.returned _)
    cases ha : readMaterial a with
    | error message => exact trivial
    | ok x =>
      cases hb : readMaterial b with
      | error message => exact trivial
      | ok y => exact ⟨a, b, hstage, readMaterial_ok ha, readMaterial_ok hb⟩
  | returned result => cases hw

/-! ## Every step -/

theorem inv_advance (h : w.Inv) (hw : w.advance p = some w') : w'.Inv := by
  unfold advance at hw
  split at hw
  · exact inv_advancePublisher h ‹_› hw
  · exact inv_advanceAcknowledger h ‹_› hw
  · exact inv_advanceReader h ‹_› hw
  all_goals cases hw

theorem inv_skip (h : w.Inv) (hw : w.skip p = some w') : w'.Inv := by
  unfold skip at hw
  split at hw
  · rename_i r before target name rest result hp
    cases hw
    obtain ⟨hlock, hapart, hleaves⟩ := hp ▸ h.processes p
    exact h.become ⟨fun _ => hlock rfl, hapart, hleaves⟩
  · rename_i r before target result hp
    cases hw
    obtain ⟨hlock, hapart, hleaves⟩ := hp ▸ h.processes p
    exact h.become ⟨fun _ => hlock rfl, hleaves⟩
  · cases hw

theorem inv_fail {message : String} (h : w.Inv) (hw : w.fail p message = some w') : w'.Inv := by
  unfold fail at hw
  split at hw
  · exact inv_failPublisher h ‹_› hw
  · cases hw
    exact h.become ⟨nofun, trivial⟩
  · rename_i hp
    cases hw
    exact h.become ⟨fun _ => (hp ▸ h.processes p).1 rfl, trivial⟩
  · rename_i hp
    cases hw
    exact h.become ⟨fun _ => (hp ▸ h.processes p).1 rfl, trivial⟩
  · rename_i hp
    cases hw
    exact h.become ⟨fun _ => (hp ▸ h.processes p).1 rfl, trivial⟩
  · cases hw
  · cases hw
    exact h.become ⟨nofun, trivial⟩
  · cases hw

theorem inv_start {process : Process} (h : w.Inv) (hw : w.start p process = some w')
    (hfree : process.holds = false) (hlocal : process.Local w.disk) : w'.Inv := by
  unfold start at hw
  split at hw
  · cases hw
    refine h.become ⟨fun hheld => ?_, hlocal⟩
    rw [hfree] at hheld
    cases hheld
  · cases hw

/-- A process dies and no longer holds the lock. -/
theorem inv_crash (h : w.Inv) :
    (({ w with lock := if w.lock = some p then none else w.lock } : World).become p .dead).Inv := by
  refine h.update h.disk (Disk.Grows.refl _) (fun q hq hlock => ?_) ⟨nofun, trivial⟩
  have hne : w.lock ≠ some p := by
    rw [hlock]
    exact fun heq => hq (Option.some.inj heq)
  rw [if_neg hne]
  exact ⟨hlock, rfl⟩

theorem inv_step {event : Event} (h : w.Inv) (hw : w.step event = some w') : w'.Inv := by
  cases event with
  | publish p r => exact inv_start h hw rfl trivial
  | acknowledge p marker expected => exact inv_start h hw rfl trivial
  | read p first second => exact inv_start h hw rfl trivial
  | stamp p =>
    simp only [step] at hw
    split at hw <;> cases hw
    exact h.become ⟨nofun, trivial⟩
  | refresh p =>
    simp only [step] at hw
    split at hw <;> cases hw
    exact h.update h.disk (Disk.Grows.refl _) (fun _ _ hq => ⟨hq, rfl⟩) ⟨nofun, trivial⟩
  | confirm p marker =>
    simp only [step] at hw
    split at hw <;> cases hw
    exact h.become ⟨nofun, trivial⟩
  | advance p => exact inv_advance h hw
  | makeDirectory p ino =>
    simp only [step] at hw
    split at hw
    · exact inv_stagePublisher h ‹_› hw
    · cases hw
  | skip p => exact inv_skip h hw
  | fail p message => exact inv_fail h hw
  | crash p =>
    cases hw
    exact inv_crash h

theorem inv_run {events : List Event} (h : w.Inv) (hw : run w events = some w') : w'.Inv := by
  induction events generalizing w with
  | nil =>
    cases hw
    exact h
  | cons event rest ih =>
    obtain ⟨next, hnext, hrest⟩ := Option.bind_eq_some_iff.mp hw
    exact ih (inv_step h hnext) hrest

theorem inv_initial (ino : Nat) (directory : Directory) : (initial ino directory).Inv where
  disk := by
    refine ⟨⟨directory, by simp [initial]⟩, ?_, ?_⟩
    · intro id g hg name m hm
      by_cases hid : id = 0
      · subst hid
        simp only [initial, Function.update_self, Option.some.injEq] at hg
        exact hg ▸ hm
      · simp [initial, Function.update_of_ne hid] at hg
    · intro id g hg
      by_cases hid : id = 0
      · subst hid
        exact Nat.zero_lt_one
      · simp [initial, Function.update_of_ne hid] at hg
  processes _ := ⟨nofun, trivial⟩

/-! ## What a step does -/

/-- The same directory is visible, under the same inode number. -/
structure Steady (d d' : Disk) : Prop where
  visible_eq : d'.visible = d.visible
  published_eq : d'.published = d.published
  ino_eq : (d'.nodes d.visible).ino = (d.nodes d.visible).ino

theorem Steady.refl (d : Disk) : Steady d d := ⟨rfl, rfl, rfl⟩

theorem steady_setContent (d : Disk) (id : Nat) (directory : Directory) :
    Steady d (d.setContent id directory) := by
  refine ⟨rfl, rfl, ?_⟩
  by_cases h : d.visible = id
  · simp [Disk.setContent, h]
  · simp [Disk.setContent, Function.update_of_ne h]

theorem steady_removeDirectory (d : Disk) (id : Nat) : Steady d (d.removeDirectory id) := by
  refine ⟨rfl, rfl, ?_⟩
  by_cases h : d.visible = id
  · simp [Disk.removeDirectory, h]
  · simp [Disk.removeDirectory, Function.update_of_ne h]

theorem steady_makeDirectory {d d' : Disk} {ino : Nat} {directory : Directory} (hd : d.Inv)
    (h : d.makeDirectory ino directory = some d') : Steady d d' := by
  obtain ⟨rfl, -⟩ := Disk.makeDirectory_eq h
  refine ⟨rfl, rfl, ?_⟩
  obtain ⟨g, hg⟩ := hd.visible_published
  have hne : d.visible ≠ d.next := (hd.lt_next hg).ne
  simp [Function.update_of_ne hne]

/-- What the directories are called for, after a step of `p`. -/
structure Moved (w w' : World) (p : ProcessId) (process : Process) : Prop where
  processes_eq : w'.processes = Function.update w.processes p process
  refreshed_eq : w'.refreshed = w.refreshed
  cleared_eq : w'.cleared = w.cleared

/-- A step of a publisher is steady or an exchange, and what it has published
when it returns is what is visible. -/
theorem publisher_cases {stage : Publishing} (h : w.Inv) (hp : w.processes p = .publisher r stage)
    (hw : w.advancePublisher p r stage = some w') : ∃ stage', Moved w w' p (.publisher r stage') ∧
      (∀ result own, stage' = .returned result own → own = w.disk.visible) ∧
      (Steady w.disk w'.disk ∧ w'.disk.directory = w.disk.directory ∨
        ∃ s rest, stage = .committing s ∧ s.Inv w.disk ∧
          stage' = .cleaning s.before s.previous rest (.ok ()) ∧
          w'.disk = w.disk.exchange s.staged) := by
  obtain ⟨-, hstage⟩ := hp ▸ h.processes p
  cases stage with
  | requested =>
    simp only [advancePublisher] at hw
    split at hw
    · cases hw
      refine ⟨_, ⟨rfl, rfl, rfl⟩, fun _ _ heq => ?_, .inl ⟨.refl _, rfl⟩⟩
      cases heq
      rfl
    · split at hw <;> cases hw
      exact ⟨_, ⟨rfl, rfl, rfl⟩, nofun, .inl ⟨.refl _, rfl⟩⟩
  | locked before =>
    cases hw
    exact ⟨_, ⟨rfl, rfl, rfl⟩, nofun, .inl ⟨.refl _, rfl⟩⟩
  | opened before previous => cases hw
  | linking s rest =>
    cases rest with
    | nil =>
      cases hw
      exact ⟨_, ⟨rfl, rfl, rfl⟩, nofun, .inl ⟨.refl _, rfl⟩⟩
    | cons name rest =>
      simp only [advancePublisher] at hw
      split at hw <;> cases hw
      · exact ⟨_, ⟨rfl, rfl, rfl⟩, nofun, .inl ⟨.refl _, rfl⟩⟩
      · exact ⟨_, ⟨rfl, rfl, rfl⟩, nofun,
          .inl ⟨steady_setContent _ _ _, directory_setContent hstage.1.apart⟩⟩
  | writing s rest =>
    cases rest with
    | nil =>
      cases hw
      exact ⟨_, ⟨rfl, rfl, rfl⟩, nofun, .inl ⟨.refl _, rfl⟩⟩
    | cons file rest =>
      simp only [advancePublisher] at hw
      split at hw <;> cases hw
      · exact ⟨_, ⟨rfl, rfl, rfl⟩, nofun, .inl ⟨.refl _, rfl⟩⟩
      · exact ⟨_, ⟨rfl, rfl, rfl⟩, nofun,
          .inl ⟨steady_setContent _ _ _, directory_setContent hstage.1.apart⟩⟩
  | preparing s =>
    cases hw
    exact ⟨_, ⟨rfl, rfl, rfl⟩, nofun,
      .inl ⟨steady_setContent _ _ _, directory_setContent hstage.1.apart⟩⟩
  | comparing s =>
    simp only [advancePublisher] at hw
    split at hw <;> cases hw <;> exact ⟨_, ⟨rfl, rfl, rfl⟩, nofun, .inl ⟨.refl _, rfl⟩⟩
  | marking s =>
    simp only [advancePublisher] at hw
    split at hw <;> cases hw
    · exact ⟨_, ⟨rfl, rfl, rfl⟩, nofun, .inl ⟨.refl _, rfl⟩⟩
    · exact ⟨_, ⟨rfl, rfl, rfl⟩, nofun,
        .inl ⟨steady_setContent _ _ _, directory_setContent hstage.1.apart⟩⟩
  | committing s =>
    simp only [advancePublisher] at hw
    split at hw <;> cases hw
    · exact ⟨_, ⟨rfl, rfl, rfl⟩, nofun, .inr ⟨s, _, rfl, hstage.1, rfl, rfl⟩⟩
    · exact ⟨_, ⟨rfl, rfl, rfl⟩, nofun, .inl ⟨.refl _, rfl⟩⟩
  | cleaning before target rest result =>
    cases rest with
    | nil =>
      cases hw
      exact ⟨_, ⟨rfl, rfl, rfl⟩, nofun,
        .inl ⟨steady_removeDirectory _ _, Disk.content_removeDirectory _ _ _⟩⟩
    | cons name rest =>
      cases hw
      exact ⟨_, ⟨rfl, rfl, rfl⟩, nofun,
        .inl ⟨steady_setContent _ _ _, directory_setContent hstage.1⟩⟩
  | releasing before result =>
    cases hw
    refine ⟨_, ⟨rfl, rfl, rfl⟩, fun _ _ heq => ?_, .inl ⟨.refl _, rfl⟩⟩
    cases heq
    rfl
  | returned result own => cases hw

/-! ## What becomes visible -/

/-- A publisher exchanges in what it staged, and is going to succeed. -/
def Exchanges (w w' : World) : Prop :=
  ∃ p r s rest, w.processes p = .publisher r (.committing s) ∧
    w'.processes p = .publisher r (.cleaning s.before s.previous rest (.ok ()))

/-- An acknowledger removes its marker from the visible directory. -/
def Acknowledges (w w' : World) : Prop :=
  ∃ p marker own expected handle,
    w.processes p = .acknowledger marker own expected (.checked handle) ∧
      w'.disk.directory = w.disk.directory.unlink (bytes marker)

theorem directory_advanceAcknowledger {marker : String} {own expected : Option Nat}
    {stage : Acknowledging} (h : w.Inv)
    (hp : w.processes p = .acknowledger marker own expected stage)
    (hw : w.advanceAcknowledger p marker own expected stage = some w') :
    w'.disk.directory = w.disk.directory ∨ w.Acknowledges w' := by
  obtain ⟨-, hstage⟩ := hp ▸ h.processes p
  cases stage with
  | requested =>
    simp only [advanceAcknowledger] at hw
    split at hw
    · cases hw
      exact .inl rfl
    · split at hw <;> cases hw
      exact .inl rfl
  | opened handle =>
    simp only [advanceAcknowledger] at hw
    split at hw
    · cases hw
      exact .inl rfl
    split at hw
    · cases hw
      exact .inl rfl
    split at hw <;> cases hw <;> exact .inl rfl
  | checked handle =>
    cases hw
    refine .inr ⟨p, marker, own, expected, handle, hp, ?_⟩
    have hhandle : handle = w.disk.visible := hstage
    change (w.disk.setContent handle _).content w.disk.visible = _
    rw [Disk.content_setContent, if_pos hhandle.symm, hhandle]
    rfl
  | locked | releasing result =>
    cases hw
    exact .inl rfl
  | returned result => cases hw

theorem directory_advanceReader {first second : String} {stage : PairReading}
    (hw : w.advanceReader p first second stage = some w') :
    w'.disk.directory = w.disk.directory := by
  cases stage with
  | opened handle | openedFirst handle a =>
    simp only [advanceReader] at hw
    split at hw <;> cases hw <;> rfl
  | requested | openedSecond a b =>
    cases hw
    rfl
  | returned result => cases hw

theorem directory_stagePublisher {before : Directory} {previous ino : Nat} (h : w.Inv)
    (hw : w.stagePublisher p r before previous ino = some w') :
    w'.disk.directory = w.disk.directory := by
  obtain ⟨disk, hdisk, rfl⟩ := Option.map_eq_some_iff.mp hw
  have hs := staging_makeDirectory h.disk hdisk
  dsimp only
  split
  · exact hs.before_eq
  · split <;> exact hs.before_eq

theorem directory_start {process : Process} (hw : w.start p process = some w') :
    w'.disk.directory = w.disk.directory := by
  unfold start at hw
  split at hw <;> cases hw
  rfl

theorem directory_fail {message : String} (hw : w.fail p message = some w') :
    w'.disk.directory = w.disk.directory := by
  unfold fail at hw
  split at hw
  · rename_i stage hp
    cases stage <;> cases hw <;> rfl
  all_goals cases hw <;> rfl

/-- What is visible changes by a publisher's exchange and an acknowledger's
removal alone. -/
theorem directory_step {event : Event} (h : w.Inv) (hw : w.step event = some w') :
    w'.disk.directory = w.disk.directory ∨ w.Exchanges w' ∨ w.Acknowledges w' := by
  cases event with
  | publish p r => exact .inl (directory_start hw)
  | acknowledge p marker expected => exact .inl (directory_start hw)
  | read p first second => exact .inl (directory_start hw)
  | stamp p | refresh p | confirm p marker =>
    simp only [step] at hw
    split at hw <;> cases hw
    exact .inl rfl
  | advance p =>
    simp only [step, advance] at hw
    split at hw
    · rename_i r stage hp
      obtain ⟨stage', hmoved, -, hdisk⟩ := publisher_cases h hp hw
      cases hdisk with
      | inl hsteady => exact .inl hsteady.2
      | inr hexchange =>
        obtain ⟨s, rest, rfl, -, rfl, -⟩ := hexchange
        refine .inr (.inl ⟨p, r, s, rest, hp, ?_⟩)
        rw [hmoved.processes_eq, Function.update_self]
    · cases directory_advanceAcknowledger h ‹_› hw with
      | inl hsame => exact .inl hsame
      | inr hacknowledges => exact .inr (.inr hacknowledges)
    · exact .inl (directory_advanceReader hw)
    all_goals cases hw
  | makeDirectory p ino =>
    simp only [step] at hw
    split at hw
    · exact .inl (directory_stagePublisher h hw)
    · cases hw
  | skip p =>
    simp only [step, skip] at hw
    split at hw <;> cases hw <;> exact .inl rfl
  | fail p message => exact .inl (directory_fail hw)
  | crash p =>
    cases hw
    exact .inl rfl

/-! ## The result -/

theorem leaves_ok {before after : Directory} (h : r.Leaves before after (.ok ())) :
    (∀ file ∈ r.files, ∃ m, after.read (bytes file.1) = some m ∧ m.bytes = file.2) ∧
    (∀ name m, ¬ r.replaces name → (∀ marker, r.marker = some marker → bytes marker ≠ name) →
      before.read name = some m → after.read name = some m) ∧
    (¬ r.Holds before → ∀ marker, r.marker = some marker →
      after.read (bytes marker) = some r.markerMaterial) := by
  cases h with
  | inl hkept =>
    obtain ⟨hnone, rfl⟩ := hkept
    have hholds := Request.replaceFilesWithMarker_none hnone
    refine ⟨fun file hfile => ⟨_, hholds.2 file hfile, rfl⟩, fun _ _ _ _ hm => hm, ?_⟩
    exact fun hdiffers => absurd hholds hdiffers
  | inr hpublished =>
    obtain ⟨hfiles, hretained, hmarker⟩ := Request.replaceFilesWithMarker_some hpublished
    refine ⟨fun file hfile => ⟨_, hfiles file hfile, rfl⟩, fun name m hname hother hm => ?_,
      fun _ => hmarker⟩
    rw [hretained name hname hother]
    exact hm

/-- In every run, a reader that succeeds has two files of one published
generation. A publisher that still holds the lock and is to return an error
leaves what it found; one that is to succeed leaves what was requested, with
the auxiliary files it found, and marked if anything differed. No other step
changes what is visible. -/
theorem generations_never_torn {ino : Nat} {directory : Directory} {events : List Event} {w : World}
    (h : run (initial ino directory) events = some w) :
    (∀ p first second x y, w.processes p = .reader first second (.returned (.ok (x, y))) →
      ∃ id g a b, w.disk.published id = some g ∧ g.read (bytes first) = some a ∧
        g.read (bytes second) = some b ∧ a.bytes = x ∧ b.bytes = y) ∧
    (∀ p r before message, w.processes p = .publisher r (.releasing before (.error message)) →
      w.disk.directory = before) ∧
    (∀ p r before, w.processes p = .publisher r (.releasing before (.ok ())) →
      (∀ file ∈ r.files, ∃ m, w.disk.directory.read (bytes file.1) = some m ∧ m.bytes = file.2) ∧
      (∀ name m, ¬ r.replaces name → (∀ marker, r.marker = some marker → bytes marker ≠ name) →
        before.read name = some m → w.disk.directory.read name = some m) ∧
      (¬ r.Holds before → ∀ marker, r.marker = some marker →
        w.disk.directory.read (bytes marker) = some r.markerMaterial)) ∧
    ∀ event w', w.step event = some w' →
      w'.disk.directory = w.disk.directory ∨ w.Exchanges w' ∨ w.Acknowledges w' := by
  have hinv := inv_run (inv_initial ino directory) h
  refine ⟨fun p first second x y hp => ?_, fun p r before message hp => ?_,
    fun p r before hp => ?_, fun event w' hw => directory_step hinv hw⟩
  · obtain ⟨-, a, b, ⟨id, g, hg, ha, hb⟩, hx, hy⟩ := hp ▸ hinv.processes p
    exact ⟨id, g, a, b, hg, ha, hb, hx, hy⟩
  · exact (hp ▸ hinv.processes p).2
  · exact leaves_ok (hp ▸ hinv.processes p).2

/-- A request to replace a pair. -/
def sampleRequest (contents : Bytes) : Request where
  files := [("cert", contents), ("key", contents)]
  marker := some ".pending"
  newFile := ⟨0, 0, 0o600⟩
  newDirectory := ⟨0, 0, 0o700⟩
  filePolicy := id
  directoryPolicy := id

def sampleDirectory : Directory where
  metadata := ⟨0, 0, 0o700⟩
  entries := [(bytes "cert", ⟨true, ⟨0, 0, 0o600⟩, [1]⟩), (bytes "key", ⟨true, ⟨0, 0, 0o600⟩, [1]⟩)]
  nodup := by decide

/-- A reader opens its second file between the exchange and the cleanup. -/
def sampleEvents : List Event :=
  [.publish 0 (sampleRequest [2]), .advance 0, .advance 0, .makeDirectory 0 7,
    .read 1 "cert" "key", .advance 1, .advance 1] ++ List.replicate 11 (.advance 0) ++
    [.advance 1, .advance 1]

/-- The pair a reader has returned. -/
def readPair : Process → Option (Bytes × Bytes)
  | .reader _ _ (.returned (.ok pair)) => some pair
  | _ => none

theorem generations_never_torn_sample : ∃ w first second, run (initial 1 sampleDirectory)
      sampleEvents = some w ∧
    w.disk.directory.read (bytes "cert") = some ⟨true, ⟨0, 0, 0o600⟩, [2]⟩ ∧
    w.processes 1 = .reader first second (.returned (.ok ([1], [1]))) ∧
    ∃ id g a b, w.disk.published id = some g ∧ g.read (bytes first) = some a ∧
      g.read (bytes second) = some b ∧ a.bytes = [1] ∧ b.bytes = [1] := by
  have hrun : ((run (initial 1 sampleDirectory) sampleEvents).map fun w =>
      (w.disk.directory.read (bytes "cert"), readPair (w.processes 1))) =
        some (some ⟨true, ⟨0, 0, 0o600⟩, [2]⟩, some ([1], [1])) := by decide +kernel
  obtain ⟨w, hw, heq⟩ := Option.map_eq_some_iff.mp hrun
  obtain ⟨hread, hpair⟩ := Prod.mk.inj heq
  have hp : ∃ first second, w.processes 1 = .reader first second (.returned (.ok ([1], [1]))) := by
    unfold readPair at hpair
    split at hpair <;> cases hpair
    exact ⟨_, _, ‹_›⟩
  obtain ⟨first, second, hp⟩ := hp
  obtain ⟨htogether, -⟩ := generations_never_torn hw
  exact ⟨w, first, second, hw, hread, hp, htogether 1 first second [1] [1] hp⟩

end World

end Sbctl
