import TestBench.Child.Report
import TestBench.Process.Schedule
import TestBench.Script.Program
import TestBench.Tool.Catalog
/-!
# Starting children

A child is started with the environment of the bench, an empty input and two output streams that
are drained into one text. What the drain has not got half a second after the child's end is lost,
and so is what a child killed by its time limit has not written as a whole line.
-/
namespace TestBench.Child

open Process

def stepBound : Nat := 100000000

def firstPid : Nat := 1000

def images : Images := fun name args env =>
  if name = "sh" then some (Script.image args env) else Tool.image name args env

/-- The world of a single process: its input is empty, and it has the two output streams. -/
def world (files : FileSystem) (program : Program) : World where
  images := images
  tasks := [
    { pid := firstPid
      parent := 2
      slots := [⟨0, 0, true⟩, ⟨1, 1, true⟩, ⟨2, 2, true⟩]
      directory := files.workingDirectory
      ignored := []
      caught := []
      arrived := []
      struck := false
      stopped := false
      waiting := false
      ready := World.executeCost
      dying := none
      wakes := none
      program := program }]
  openings := [⟨0, .device .null, 0, true, false, false⟩, ⟨1, .stream .stdout, 0, false, true, false⟩,
    ⟨2, .stream .stderr, 0, false, true, false⟩]
  pipes := []
  ended := []
  files := files
  modified := []
  clock := 0
  chunks := []
  closed := []
  fresh := firstPid + 1
  first := firstPid
  finish := none

/-- The arrivals up to a moment, in the order of their times. -/
def arrivals (w : World) (cutoff : Nat) : List Arrival :=
  let pieces := w.chunks.reverse.map fun c => (c.time, Arrival.bytes c.stream c.piece)
  let ends := w.closed.map fun c => (c.2, Arrival.ended c.1)
  let timely := (pieces ++ ends).filter fun t => t.1 ≤ cutoff
  (timely.mergeSort fun a b => a.1 ≤ b.1).map (·.2)

def report (files : FileSystem) (limit : Option Nat) (w : World) : Report :=
  let left := { w.files with workingDirectory := files.workingDirectory }
  let output := fun (cutoff : Nat) => (Capture.start.receiveAll (arrivals w cutoff)).text
  match w.finish, limit with
  | some (time, status), _ =>
    let cutoff := time + World.grace
    let last := if 2 ≤ w.closed.length then w.closed.foldl (fun t c => max t c.2) time else cutoff
    ⟨.ok (.exited status), output cutoff, left, last / 1000⟩
  | none, some ms => ⟨.ok (.timedOut ms), output (ms * 1000), left, ms⟩
  | none, none => ⟨.ok (.exited (.ofSignal Signal.kill)), output w.clock, left, w.clock / 1000⟩

def launch (env : Environment) : Launcher := fun files name args limit =>
  if (name :: args).any (·.toList.contains '\x00') then
    ⟨.error .nulInCommand, "", files, 0⟩
  else
    let words := (name :: args).map Utf8.ofText
    let block := env.map fun t => Utf8.ofText (t.1 ++ "=" ++ t.2)
    let search := (env.get? "PATH").map Utf8.ofText
    match Image.search (fun p => Image.ofPath files p words block) search (Utf8.ofText name) with
    | .error e => ⟨.error (.system e), "", files, 0⟩
    | .ok (tool, words) =>
      match images tool words block with
      | none => ⟨.error (.system .execFormat), "", files, 0⟩
      | some program =>
        report files limit ((world files program).run (limit.map (· * 1000)) stepBound)

end TestBench.Child
