import TestBench.Process.World
/-!
# The life of a process

How a process comes to be, how signals reach it, how it ends and how its parent learns of that.
-/
namespace TestBench.Process

open Child (Status)

namespace World

/-- What it takes until a child that has been divided off does its first step. -/
def birth : Nat := 350

/-- Divides a child off a process; it shares what is open. -/
def divide (w : World) (t : Task) (child : Program) : Nat × World :=
  let pid := w.fresh
  let born : Task :=
    { t with pid := pid, parent := t.pid, arrived := [], struck := false, waiting := false,
             dying := none, ready := w.clock + birth, wakes := none, program := child }
  (pid, { w with fresh := pid + 1, tasks := w.tasks ++ [born] })

/-- Notes the arrival of a signal that a process has arranged for. -/
def strike (w : World) (t : Task) (n : Nat) : World :=
  let idle := t.waiting || t.wakes.isSome
  w.putTask
    { t with
      arrived := if t.arrived.contains n then t.arrived else t.arrived ++ [n]
      struck := t.struck || idle
      waiting := false
      ready := if idle then w.clock else t.ready }

/-- Takes a process out of the world, and its children from it. -/
def remove (w : World) (pid : Nat) : World :=
  let others := w.tasks.filter fun (u : Task) => u.pid != pid
  sweep { w with
    tasks := others.map fun (u : Task) => if u.parent = pid then { u with parent := 1 } else u
    ended := w.ended.filter fun (e : Ended) => e.parent != pid }

def finishTask (w : World) (t : Task) (status : Status) : World :=
  let w := w.remove t.pid
  let w : World := if t.pid = w.first then { w with finish := some (w.clock, status) } else w
  let w := match w.task? t.parent with
    | none => w
    | some u =>
      if u.ignored.contains Signal.child then w
      else
        let e : Ended := ⟨t.pid, t.parent, status⟩
        let w : World := { w with ended := w.ended ++ [e] }
        if u.caught.contains Signal.child then w.strike u Signal.child else w
  w.stir

/-- What it takes until a process notices that another has ended it. -/
def dyingTime : Nat := 100

def deliver (w : World) (sender pid n : Nat) : World :=
  match w.task? pid with
  | none => w
  | some t =>
    let t : Task := if n = Signal.resume then { t with stopped := false } else t
    let w := w.putTask t
    if n = 0 || t.dying.isSome then w
    else if t.ignored.contains n && !Signal.isFixed n then w
    else if t.caught.contains n && !Signal.isFixed n then w.strike t n
    else match Signal.effect n with
      | .terminate =>
        if pid = sender then w.finishTask t (.ofSignal n)
        else w.putTask
          { t with dying := some (.ofSignal n), stopped := false, waiting := false,
                   ready := w.clock + dyingTime, wakes := none }
      | .stop => w.putTask { t with stopped := true }
      | .ignore | .resume => w

/-- Sends a signal to a process by number, or to all of them. No process leads a group. -/
def signal (w : World) (sender : Nat) (pid : Int) (n : Nat) : Except Errno World :=
  if Signal.last < n then .error .invalid
  else if pid < -1 then .error .noProcess
  else if pid ≤ 0 then .ok ((w.tasks.map (·.pid)).foldl (fun w p => w.deliver sender p n) w)
  else
    let p := pid.toNat
    if (w.task? p).isSome then .ok (w.deliver sender p n)
    else if w.ended.any (·.pid = p) then .ok w
    else .error .noProcess

def treat (w : World) (t : Task) (n : Nat) (a : Treatment) : World :=
  let t := { t with ignored := t.ignored.filter (· != n), caught := t.caught.filter (· != n) }
  w.putTask (match a with
    | .standard => t
    | .ignored => { t with ignored := n :: t.ignored, arrived := t.arrived.filter (· != n) }
    | .caught => { t with caught := n :: t.caught })

def treatment (t : Task) (n : Nat) : Treatment :=
  if t.ignored.contains n then .ignored
  else if t.caught.contains n then .caught
  else .standard

/-- Asks for a child that has ended. Nothing comes back while the wait goes on. -/
def await (w : World) (t : Task) (which : Option Nat) (patience : Patience) :
    Option (Awaited × World) :=
  let wanted := fun (pid : Nat) => which.isNone || which == some pid
  match w.ended.find? fun e => e.parent = t.pid && wanted e.pid with
  | some e =>
    some (.ended e.pid e.status, { w with ended := w.ended.filter (·.pid != e.pid) })
  | none =>
    if !(w.tasks.any fun u => u.parent = t.pid && wanted u.pid) then some (.noChild, w)
    else match patience with
      | .none => some (.nothing, w)
      | .untilSignal => if t.arrived.isEmpty then none else some (.interrupted, w)
      | .untilEnd => none

end World
end TestBench.Process
