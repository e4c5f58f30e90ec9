import Sbctl.ManagedDirectory
import Mathlib.Logic.Function.Basic

/-!
# Publishers, acknowledgers and readers

Any number of processes work on one certificate directory. Publishers and
acknowledgers hold the publication lock; readers open the directory and then
two of its files, at separate moments and without the lock. Every step may
fail, and a process may die between any two steps.

* `inv_step`, `inv_run`: what every run keeps;
* `generations_never_torn`: no reader sees files of two generations, and a
  publication is all or nothing.
-/

namespace Sbctl

open Text

abbrev ProcessId := Nat

/-- A directory of the file system. Its inode number is its own only while
some name leads to it. -/
structure Node where
  ino : Nat
  directory : Directory
  linked : Bool

/-- The directories of the file system and which of them the certificate
directory's name leads to. `published` records what each held when it was
published. -/
structure Disk where
  nodes : Nat → Node
  next : Nat
  visible : Nat
  published : Nat → Option Directory

namespace Disk

def content (d : Disk) (id : Nat) : Directory := (d.nodes id).directory

/-- What the certificate directory holds. -/
def directory (d : Disk) : Directory := d.content d.visible

def setContent (id : Nat) (directory : Directory) (d : Disk) : Disk :=
  let node := { d.nodes id with directory := directory }
  { d with nodes := Function.update d.nodes id node }

/-- Creates a directory with an inode number no linked one has. That of a
removed directory may come back. -/
def makeDirectory (ino : Nat) (directory : Directory) (d : Disk) : Option Disk :=
  if (List.range d.next).all fun id => !(d.nodes id).linked || (d.nodes id).ino != ino then
    some { d with nodes := Function.update d.nodes d.next ⟨ino, directory, true⟩, next := d.next + 1 }
  else none

/-- Removes a directory, if it is empty. -/
def removeDirectory (id : Nat) (d : Disk) : Disk :=
  let node := { d.nodes id with
    linked := (d.nodes id).linked && !(d.content id).entries.isEmpty }
  { d with nodes := Function.update d.nodes id node }

/-- Exchanges the names of a staged directory and the visible one. -/
def exchange (staged : Nat) (d : Disk) : Disk :=
  { d with visible := staged
           published := Function.update d.published staged (some (d.content staged)) }

end Disk

/-- A publisher's directories: the one it found, with what was in it, and the
one it stages. -/
structure Staging where
  before : Directory
  previous : Nat
  staged : Nat

/-- How far a publisher is. It holds the lock from `locked` to `releasing`. -/
inductive Publishing where
  | requested
  | locked (before : Directory)
  | opened (before : Directory) (previous : Nat)
  | linking (s : Staging) (rest : List Bytes)
  | writing (s : Staging) (rest : List (String × Bytes))
  | preparing (s : Staging)
  | comparing (s : Staging)
  | marking (s : Staging)
  | committing (s : Staging)
  /-- Unlinks the files of the directory that is not to stay. -/
  | cleaning (before : Directory) (target : Nat) (rest : List Bytes) (result : Except String Unit)
  | releasing (before : Directory) (result : Except String Unit)
  /-- `own` is the generation that was visible at the release. -/
  | returned (result : Except String Unit) (own : Nat)

inductive Acknowledging where
  | requested
  | locked
  | opened (handle : Nat)
  | checked (handle : Nat)
  | releasing (result : Except String Bool)
  | returned (result : Except String Bool)

inductive PairReading where
  | requested
  | opened (handle : Nat)
  | openedFirst (handle : Nat) (first : Material)
  | openedSecond (first second : Material)
  | returned (result : Except String (Bytes × Bytes))

/-- A process publishes, remembers the generation, refreshes the data plane
and acknowledges; or it only acknowledges; or it reads. -/
inductive Process where
  | idle
  | publisher (r : Request) (stage : Publishing)
  | stamped (own : Nat) (generation : Nat)
  | refreshed (own : Nat) (generation : Nat)
  | acknowledger (marker : String) (own : Option Nat) (expected : Option Nat)
      (stage : Acknowledging)
  | reader (first second : String) (stage : PairReading)
  | dead

/-- `refreshed` records the generations the data plane was refreshed for,
`cleared` each removal of a marker: the generation of the process that made it
and the one it was removed from. -/
structure World where
  disk : Disk
  lock : Option ProcessId
  processes : ProcessId → Process
  refreshed : List Nat
  cleared : List (Option Nat × Nat)

inductive Event where
  | publish (p : ProcessId) (r : Request)
  | acknowledge (p : ProcessId) (marker : String) (expected : Option Nat)
  | read (p : ProcessId) (first second : String)
  | stamp (p : ProcessId)
  | refresh (p : ProcessId)
  | confirm (p : ProcessId) (marker : String)
  | advance (p : ProcessId)
  | makeDirectory (p : ProcessId) (ino : Nat)
  /-- One of the cleanup's operations fails. -/
  | skip (p : ProcessId)
  | fail (p : ProcessId) (message : String)
  | crash (p : ProcessId)

namespace World

def become (p : ProcessId) (process : Process) (w : World) : World :=
  { w with processes := Function.update w.processes p process }

/-- A publisher fails and cleans up what it staged. -/
def abandon (p : ProcessId) (r : Request) (s : Staging) (message : String) (w : World) : World :=
  w.become p
    (.publisher r (.cleaning s.before s.staged (w.disk.content s.staged).names (.error message)))

def advancePublisher (p : ProcessId) (r : Request) (w : World) : Publishing → Option World
  | .requested =>
    match r.validate with
    | .error message => some (w.become p (.publisher r (.returned (.error message) w.disk.visible)))
    | .ok () =>
      if w.lock = none then
        some ({ w with lock := some p }.become p (.publisher r (.locked w.disk.directory)))
      else none
  | .locked before => some (w.become p (.publisher r (.opened before w.disk.visible)))
  | .opened _ _ => none
  | .linking s [] => some (w.become p (.publisher r (.writing s r.files)))
  | .linking s (name :: rest) =>
    match r.linkEntry (w.disk.content s.previous) name (w.disk.content s.staged) with
    | .error message => some (w.abandon p r s message)
    | .ok staged =>
      some ({ w with disk := w.disk.setContent s.staged staged }.become p
        (.publisher r (.linking s rest)))
  | .writing s [] => some (w.become p (.publisher r (.preparing s)))
  | .writing s (file :: rest) =>
    match r.writeFile file (w.disk.content s.staged) with
    | .error message => some (w.abandon p r s message)
    | .ok staged =>
      some ({ w with disk := w.disk.setContent s.staged staged }.become p
        (.publisher r (.writing s rest)))
  | .preparing s =>
    let staged := r.applyDirectoryPolicy (w.disk.content s.staged)
    some ({ w with disk := w.disk.setContent s.staged staged }.become p
      (.publisher r (.comparing s)))
  | .comparing s =>
    match r.unchanged (w.disk.content s.previous) (w.disk.content s.staged) with
    | .error message => some (w.abandon p r s message)
    | .ok true =>
      some (w.become p
        (.publisher r (.cleaning s.before s.staged (w.disk.content s.staged).names (.ok ()))))
    | .ok false => some (w.become p (.publisher r (.marking s)))
  | .marking s =>
    match r.mark (w.disk.content s.staged) with
    | .error message => some (w.abandon p r s message)
    | .ok staged =>
      some ({ w with disk := w.disk.setContent s.staged staged }.become p
        (.publisher r (.committing s)))
  | .committing s =>
    if (w.disk.nodes w.disk.visible).ino = (w.disk.nodes s.previous).ino then
      some ({ w with disk := w.disk.exchange s.staged }.become p
        (.publisher r (.cleaning s.before s.previous (w.disk.content s.previous).names (.ok ()))))
    else some (w.abandon p r s "certificate directory changed during staging")
  | .cleaning before target [] result =>
    some ({ w with disk := w.disk.removeDirectory target }.become p
      (.publisher r (.releasing before result)))
  | .cleaning before target (name :: rest) result =>
    let cleaned := (w.disk.content target).unlink name
    some ({ w with disk := w.disk.setContent target cleaned }.become p
      (.publisher r (.cleaning before target rest result)))
  | .releasing _ result =>
    some ({ w with lock := none }.become p (.publisher r (.returned result w.disk.visible)))
  | .returned _ _ => none

/-- Opens the staging directory and lists what is to be linked into it. -/
def stagePublisher (p : ProcessId) (r : Request) (before : Directory) (previous ino : Nat)
    (w : World) : Option World :=
  (w.disk.makeDirectory ino (.empty r.newDirectory)).map fun disk =>
    let w' := { w with disk }
    let s : Staging := ⟨before, previous, w.disk.next⟩
    match (w.disk.content previous).entryNames with
    | .error message => w'.abandon p r s message
    | .ok names =>
      match r.checkSize names with
      | .error message => w'.abandon p r s message
      | .ok () => w'.become p (.publisher r (.linking s names))

def failPublisher (p : ProcessId) (r : Request) (message : String) (w : World) :
    Publishing → Option World
  | .requested => some (w.become p (.publisher r (.returned (.error message) w.disk.visible)))
  | .locked before | .opened before _ =>
    some (w.become p (.publisher r (.releasing before (.error message))))
  | .linking s _ | .writing s _ | .preparing s | .comparing s | .marking s | .committing s =>
    some (w.abandon p r s message)
  | .cleaning .. | .releasing .. | .returned .. => none

def advanceAcknowledger (p : ProcessId) (marker : String) (own expected : Option Nat) (w : World) :
    Acknowledging → Option World :=
  let finish (result : Except String Bool) :=
    some (w.become p (.acknowledger marker own expected (.releasing result)))
  fun
  | .requested =>
    if !validateFileName marker then
      some (w.become p (.acknowledger marker own expected
        (.returned (.error "managed name must be a single file name"))))
    else if w.lock = none then
      some ({ w with lock := some p }.become p (.acknowledger marker own expected .locked))
    else none
  | .locked => some (w.become p (.acknowledger marker own expected (.opened w.disk.visible)))
  | .opened handle =>
    if expected ≠ some (w.disk.nodes handle).ino then finish (.ok false)
    else
      match (w.disk.content handle).read (bytes marker) with
      | none => finish (.ok false)
      | some material =>
        if material.regular then
          some (w.become p (.acknowledger marker own expected (.checked handle)))
        else finish (.error "invalid certificate refresh marker")
  | .checked handle =>
    let cleared := (w.disk.content handle).unlink (bytes marker)
    some ({ w with disk := w.disk.setContent handle cleared
                   cleared := (own, handle) :: w.cleared }.become p
      (.acknowledger marker own expected (.releasing (.ok true))))
  | .releasing result =>
    some ({ w with lock := none }.become p (.acknowledger marker own expected (.returned result)))
  | .returned _ => none

def advanceReader (p : ProcessId) (first second : String) (w : World) : PairReading → Option World
  | .requested => some (w.become p (.reader first second (.opened w.disk.visible)))
  | .opened handle =>
    match (w.disk.content handle).regularFile (bytes first) with
    | .error message => some (w.become p (.reader first second (.returned (.error message))))
    | .ok material => some (w.become p (.reader first second (.openedFirst handle material)))
  | .openedFirst handle material =>
    match (w.disk.content handle).regularFile (bytes second) with
    | .error message => some (w.become p (.reader first second (.returned (.error message))))
    | .ok other => some (w.become p (.reader first second (.openedSecond material other)))
  | .openedSecond material other =>
    let result : Except String (Bytes × Bytes) := do
      let a ← readMaterial material
      let b ← readMaterial other
      return (a, b)
    some (w.become p (.reader first second (.returned result)))
  | .returned _ => none

def advance (p : ProcessId) (w : World) : Option World :=
  match w.processes p with
  | .publisher r stage => w.advancePublisher p r stage
  | .acknowledger marker own expected stage => w.advanceAcknowledger p marker own expected stage
  | .reader first second stage => w.advanceReader p first second stage
  | .idle | .stamped .. | .refreshed .. | .dead => none

def skip (p : ProcessId) (w : World) : Option World :=
  match w.processes p with
  | .publisher r (.cleaning before target (_ :: rest) result) =>
    some (w.become p (.publisher r (.cleaning before target rest result)))
  | .publisher r (.cleaning before _ [] result) =>
    some (w.become p (.publisher r (.releasing before result)))
  | _ => none

def fail (p : ProcessId) (message : String) (w : World) : Option World :=
  match w.processes p with
  | .publisher r stage => w.failPublisher p r message stage
  | .acknowledger marker own expected .requested =>
    some (w.become p (.acknowledger marker own expected (.returned (.error message))))
  | .acknowledger marker own expected .locked
  | .acknowledger marker own expected (.opened _)
  | .acknowledger marker own expected (.checked _) =>
    some (w.become p (.acknowledger marker own expected (.releasing (.error message))))
  | .reader _ _ (.returned _) => none
  | .reader first second _ =>
    some (w.become p (.reader first second (.returned (.error message))))
  | _ => none

/-- A process that is idle begins something. -/
def start (p : ProcessId) (process : Process) (w : World) : Option World :=
  match w.processes p with
  | .idle => some (w.become p process)
  | _ => none

def step (w : World) : Event → Option World
  | .publish p r => w.start p (.publisher r .requested)
  | .acknowledge p marker expected => w.start p (.acknowledger marker none expected .requested)
  | .read p first second => w.start p (.reader first second .requested)
  | .stamp p =>
    match w.processes p with
    | .publisher _ (.returned (.ok ()) own) =>
      some (w.become p (.stamped own (w.disk.nodes w.disk.visible).ino))
    | _ => none
  | .refresh p =>
    match w.processes p with
    | .stamped own generation =>
      some ({ w with refreshed := w.disk.visible :: w.refreshed }.become p
        (.refreshed own generation))
    | _ => none
  | .confirm p marker =>
    match w.processes p with
    | .refreshed own generation =>
      some (w.become p (.acknowledger marker (some own) (some generation) .requested))
    | _ => none
  | .advance p => w.advance p
  | .makeDirectory p ino =>
    match w.processes p with
    | .publisher r (.opened before previous) => w.stagePublisher p r before previous ino
    | _ => none
  | .skip p => w.skip p
  | .fail p message => w.fail p message
  | .crash p =>
    some ({ w with lock := if w.lock = some p then none else w.lock }.become p .dead)

def run : World → List Event → Option World
  | w, [] => some w
  | w, event :: rest => (w.step event).bind fun w => run w rest

/-- Nobody is at work on the directory. -/
def initial (ino : Nat) (directory : Directory) : World where
  disk := ⟨fun _ => ⟨ino, directory, true⟩, 1, 0, Function.update (fun _ => none) 0 (some directory)⟩
  lock := none
  processes _ := .idle
  refreshed := []
  cleared := []

end World

end Sbctl
