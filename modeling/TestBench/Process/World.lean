import TestBench.Child.Capture
import TestBench.FileSystem.Directory
import TestBench.Process.Program
/-!
# Processes side by side

The processes of a bench, what they hold open, and the files among which they work. A process is
known by its number; open files and pipes are shared, so they are kept apart from those who hold
them.
-/
namespace TestBench.Process

open Child (Stream Status)

inductive Source where
  | file (id : Nat)
  | device (d : Device)
  | directory (l : Location)
  | outlet (pipe : Nat)
  | inlet (pipe : Nat)
  | stream (s : Stream)
deriving DecidableEq, Repr

structure Opening where
  id : Nat
  source : Source
  position : Nat
  readable : Bool
  writable : Bool
  append : Bool
deriving DecidableEq, Repr

/-- A descriptor of a process. One that is not kept is closed when another program is executed. -/
structure Slot where
  fd : Nat
  opening : Nat
  kept : Bool
deriving DecidableEq, Repr

structure Task where
  pid : Nat
  parent : Nat
  slots : List Slot
  directory : Location
  ignored : List Nat
  caught : List Nat
  arrived : List Nat
  struck : Bool
  stopped : Bool
  waiting : Bool
  ready : Nat
  dying : Option Status
  wakes : Option Nat
  program : Program

structure Chunk where
  time : Nat
  stream : Stream
  piece : Bytes
deriving DecidableEq, Repr

/-- A child that has ended and that its parent has not asked for. -/
structure Ended where
  pid : Nat
  parent : Nat
  status : Status
deriving DecidableEq, Repr

/-- The programs of a bench: what each does with its arguments and its environment. -/
abbrev Images := String → List Bytes → List Bytes → Option Program

structure World where
  images : Images
  tasks : List Task
  openings : List Opening
  pipes : List (Nat × Bytes)
  ended : List Ended
  files : FileSystem
  modified : List (Nat × Nat)
  clock : Nat
  chunks : List Chunk
  closed : List (Stream × Nat)
  fresh : Nat
  first : Nat
  finish : Option (Nat × Status)

namespace Task

def slot? (t : Task) (fd : Nat) : Option Slot := t.slots.find? (·.fd = fd)

def dropSlot (t : Task) (fd : Nat) : Task := { t with slots := t.slots.filter (·.fd != fd) }

def putSlot (t : Task) (s : Slot) : Task :=
  { t with slots := s :: t.slots.filter (·.fd != s.fd) }

def freeFrom (t : Task) (least : Nat) : Nat :=
  ((List.range (t.slots.length + 1)).map (least + ·)).find? (fun fd => (t.slot? fd).isNone)
    |>.getD least

def holds (t : Task) (opening : Nat) : Bool := t.slots.any (·.opening = opening)

end Task

namespace World

def opening? (w : World) (id : Nat) : Option Opening := w.openings.find? (·.id = id)

def task? (w : World) (pid : Nat) : Option Task := w.tasks.find? (·.pid = pid)

def putTask (w : World) (t : Task) : World :=
  { w with tasks := w.tasks.map fun u => if u.pid = t.pid then t else u }

def putOpening (w : World) (o : Opening) : World :=
  { w with openings := o :: w.openings.filter (·.id != o.id) }

def behind (w : World) (t : Task) (fd : Nat) : Except Errno Opening :=
  match (t.slot? fd).bind fun s => w.opening? s.opening with
  | some o => .ok o
  | none => .error .badDescriptor

def isHeld (w : World) (s : Source) : Bool := w.openings.any (·.source = s)

def pipeContent (w : World) (id : Nat) : Bytes := (w.pipes.lookup id).getD []

def putPipe (w : World) (id : Nat) (bs : Bytes) : World :=
  { w with pipes := (id, bs) :: w.pipes.filter (·.1 != id) }

/-- Forgets what no process holds any more, and notes when an output stream has come to its end. -/
def sweep (w : World) : World :=
  let openings := w.openings.filter fun o => w.tasks.any (·.holds o.id)
  let w := { w with openings := openings }
  let pipes := w.pipes.filter fun p => w.isHeld (.outlet p.1) || w.isHeld (.inlet p.1)
  let ended := [Stream.stdout, .stderr].filter fun s =>
    (w.closed.lookup s).isNone && !w.isHeld (.stream s)
  { w with pipes := pipes, closed := w.closed ++ ended.map fun s => (s, w.clock) }

/-- The files as a process sees them, from its own directory. -/
def filesOf (w : World) (t : Task) : FileSystem := { w.files with workingDirectory := t.directory }

def note (w : World) (id : Nat) : World :=
  { w with modified := (id, w.clock) :: w.modified.filter (·.1 != id) }

/-- Wakes those who wait for something to happen. -/
def stir (w : World) : World :=
  { w with tasks := w.tasks.map fun t =>
      if t.waiting then { t with waiting := false, ready := max t.ready w.clock } else t }

end World
end TestBench.Process
