import TestBench.Process.Descriptor
import TestBench.Process.Image
/-!
# Taking turns

The process that is ready first makes its next call. Each call takes its time; who cannot go on
waits until another has done something.
-/
namespace TestBench.Process

namespace World

def ofFiles (w : World) (r : Except IoError FileSystem) : Except Errno Unit × World :=
  match r with
  | .ok fs => (.ok (), { w with files := { fs with workingDirectory := w.files.workingDirectory } })
  | .error e => (.error (errnoOf e), w)

def enter (w : World) (t : Task) (p : Path) : Except Errno World :=
  match (w.filesOf t).locate .follow p with
  | .error e => .error (errnoOf e)
  | .ok ⟨l, some .directory⟩ => .ok (w.putTask { t with directory := l })
  | .ok ⟨_, none⟩ => .error .noEntry
  | .ok _ => .error .notDirectory

def pathOf (l : Location) : Bytes := Path.slash :: Text.joinWith [Path.slash] l

def names (w : World) (t : Task) (p : Path) : Except Errno (List Bytes) :=
  let fs := w.filesOf t
  match fs.locate .follow p with
  | .error e => .error (errnoOf e)
  | .ok ⟨l, some .directory⟩ => .ok (fs.children l)
  | .ok ⟨_, none⟩ => .error .noEntry
  | .ok _ => .error .notDirectory

def sleep (w : World) (t : Task) (duration : Nat) : Step Bool :=
  match t.wakes with
  | none => .later (w.clock + duration)
  | some u =>
    if t.struck then .done true w
    else if u ≤ w.clock then .done false w
    else .later u

/-- An answer with the world that it leaves, or an error that changes nothing. -/
def answer {α : Type} (w : World) (r : Except Errno (α × World)) : Step (Except Errno α) :=
  match r with
  | .ok (a, left) => .done (.ok a) left
  | .error e => .done (.error e) w

def settle (w : World) (r : Except Errno World) : Step (Except Errno Unit) :=
  w.answer (r.map fun left => ((), left))

def perform (w : World) (t : Task) : (c : Call) → Step c.Answer
  | .openPath p m => w.answer (w.openPath t p m)
  | .close fd => w.settle (w.close t fd)
  | .copy fd least => w.answer (w.copy t fd least)
  | .copyTo fd target => w.settle (w.copyTo t fd target)
  | .pipe => let r := w.makePipe t; .done r.1 r.2
  | .read fd count => w.read t fd count
  | .write fd bs => w.write t fd bs
  | .seek fd offset => w.answer (w.seek t fd offset)
  | .describe fd => .done (w.describe t fd) w
  | .inspect p links => .done (w.inspect t p links) w
  | .stamp p links => w.settle (w.stamp t p links)
  | .names p => .done (w.names t p) w
  | .unlink p => let r := w.ofFiles ((w.filesOf t).removeFile p); .done r.1 r.2
  | .removeDirectory p => let r := w.ofFiles ((w.filesOf t).removeDirectory p); .done r.1 r.2
  | .enter p => w.settle (w.enter t p)
  | .here => .done (pathOf t.directory) w
  | .execute p args env =>
    match w.execute t p args env with
    | .ok left => .replaced left
    | .error e => .done e w
  | .sleep duration => w.sleep t duration
  | .work _ => .done () w
  | .self => .done (t.pid, t.parent) w
  | .await which patience =>
    match w.await t which patience with
    | some (a, left) => .done a left
    | none => .blocked
  | .signal pid n => w.settle (w.signal t.pid pid n)
  | .treat n a => .done () (w.treat t n a)
  | .treatment n => .done (treatment t n) w
  | .arrived => .done t.arrived (w.putTask { t with arrived := [] })
  | .clock => .done w.clock w

/-- What a call takes, in microseconds. -/
def cost : Call → Nat
  | .work duration => duration
  | .read _ count => 3 + count / 4096
  | .write _ bs => 3 + bs.length / 1024
  | .openPath _ _ => 6
  | _ => 2

def divideCost : Nat := 150

def executeCost : Nat := 600

/-- Calls after which others may be able to go on. -/
def stirs : Call → Bool
  | .read _ _ | .write _ _ | .close _ | .copyTo _ _ | .signal _ _ => true
  | _ => false

def advance (w : World) (t : Task) : World :=
  match t.dying, t.program with
  | some status, _ => w.finishTask t status
  | none, .exit code => w.finishTask t (.ofCode code)
  | none, .fork child next =>
    let r := w.divide t child
    r.2.putTask { t with program := next r.1, ready := w.clock + divideCost }
  | none, .call c next =>
    match w.perform t c with
    | .done a left =>
      let left := match left.task? t.pid with
        | none => left
        | some u =>
          left.putTask { u with program := next a, ready := w.clock + cost c, struck := false,
                                wakes := none }
      if stirs c then left.stir else left
    | .blocked => w.putTask { t with waiting := true }
    | .later time => w.putTask { t with wakes := some time, ready := time }
    | .replaced left =>
      let left := match left.task? t.pid with
        | none => left
        | some u => left.putTask { u with ready := w.clock + executeCost }
      left.stir

def isEager (t : Task) : Bool := !t.stopped && !t.waiting

def next? (w : World) : Option Task :=
  w.tasks.foldl (fun best t =>
    if isEager t then
      match best with
      | none => some t
      | some b => if t.ready < b.ready then some t else best
    else best) none

/-- What is waited for the output streams after the first process has ended. -/
def grace : Nat := 500000

/-- Whether the first process has ended and nobody can write to its output any more. -/
def isOver (w : World) : Bool := w.finish.isSome && 2 ≤ w.closed.length

/-- Lets the processes go on until all is over or a moment has come. -/
def run (limit : Option Nat) : Nat → World → World
  | 0, w => w
  | n + 1, w =>
    if w.isOver then w
    else match w.next? with
      | none => w
      | some t =>
        let time := max w.clock t.ready
        let horizon := match w.finish with
          | some (ended, _) => some (ended + grace)
          | none => limit
        if horizon.any (· < time) then w else run limit n (advance { w with clock := time } t)

end World
end TestBench.Process
