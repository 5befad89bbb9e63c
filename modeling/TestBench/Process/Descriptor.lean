import TestBench.Process.Life
/-!
# Descriptors

Opening, reading and writing. A pipe holds as much as its capacity; who would read from an empty
one or write to a full one has to wait.
-/
namespace TestBench.Process

open FileSystem (Spot)

/-- What a call comes to: an answer, a wait for something to happen or for a moment, or another
program in the place of this one. -/
inductive Step (α : Type) where
  | done (a : α) (w : World)
  | blocked
  | later (time : Nat)
  | replaced (w : World)

def capacity : Nat := 65536

/-- What is written to a pipe in one go is not divided up to this size. -/
def undivided : Nat := 4096

namespace World

def install (w : World) (t : Task) (fd : Nat) (source : Source) (m : Mode) : World :=
  let o : Opening := ⟨w.fresh, source, 0, m.read, m.write, m.append⟩
  ({ w with fresh := w.fresh + 1, openings := o :: w.openings }).putTask
    (t.putSlot ⟨fd, o.id, true⟩)

/-- Names that stand for the descriptors of the process itself. -/
def ownDescriptor (p : Path) : Option Nat :=
  if p = Path.ofText "/dev/stdin" then some 0
  else if p = Path.ofText "/dev/stdout" then some 1
  else if p = Path.ofText "/dev/stderr" then some 2
  else
    let number := fun (front : String) =>
      let f := Path.ofText front
      if f.isPrefixOf p then Decimal.read? (Utf8.decodeLossy (p.drop f.length)) else none
    match number "/dev/fd/" with
    | some n => some n
    | none => number "/proc/self/fd/"

def sourceOf (l : Location) : Entry → Except Errno Source
  | .directory => .ok (.directory l)
  | .file id _ => .ok (.file id)
  | .device .terminal => .error .noAddress
  | .device d => .ok (.device d)
  | .program _ => .error .denied
  | .link _ => .error .tooManyLinks

def errnoOf : IoError → Errno
  | .system e => e
  | _ => .noEntry

def openSource (w : World) (t : Task) (fd : Nat) (m : Mode) (source : Source) :
    Except Errno World :=
  let w := match source with
    | .file id => if m.truncate then ({ w with files := w.files.write id [] }).note id else w
    | _ => w
  match source with
  | .directory _ => if m.write then .error .isDirectory else .ok (w.install t fd source m)
  | _ => .ok (w.install t fd source m)

def openPath (w : World) (t : Task) (p : Path) (m : Mode) : Except Errno (Nat × World) :=
  let fd := t.freeFrom 0
  let answer := fun (r : Except Errno World) => r.map fun w => (fd, w)
  match ownDescriptor p with
  | some n =>
    match w.behind t n with
    | .error _ => .error .noEntry
    | .ok o => answer (w.openSource t fd m o.source)
  | none =>
    let fs := w.filesOf t
    let aim := if m.exclusive then .keep else if m.create then .make else .follow
    match fs.locate aim p with
    | .error e => .error (errnoOf e)
    | .ok ⟨l, none⟩ =>
      if !m.create then .error .noEntry
      else match FileSystem.refusal? l false with
        | some e => .error e
        | none =>
          let id := w.files.fresh
          let w := ({ w with files := w.files.create l false [] }).note id
          answer (.ok (w.install t fd (.file id) m))
    | .ok ⟨l, some e⟩ =>
      if m.exclusive then .error .exists
      else match sourceOf l e with
        | .error e => .error e
        | .ok s => answer (w.openSource t fd m s)

def close (w : World) (t : Task) (fd : Nat) : Except Errno World :=
  match t.slot? fd with
  | none => .error .badDescriptor
  | some _ => .ok (w.putTask (t.dropSlot fd)).sweep

/-- A second descriptor for an open file, closed when another program is executed. -/
def copy (w : World) (t : Task) (fd least : Nat) : Except Errno (Nat × World) :=
  match t.slot? fd with
  | none => .error .badDescriptor
  | some s =>
    let n := t.freeFrom least
    .ok (n, w.putTask (t.putSlot ⟨n, s.opening, false⟩))

def copyTo (w : World) (t : Task) (fd target : Nat) : Except Errno World :=
  match t.slot? fd with
  | none => .error .badDescriptor
  | some s =>
    if fd = target then .ok w
    else .ok (w.putTask (t.putSlot ⟨target, s.opening, true⟩)).sweep

def makePipe (w : World) (t : Task) : (Nat × Nat) × World :=
  let id := w.fresh
  let w := { w with fresh := id + 1, pipes := (id, []) :: w.pipes }
  let out := t.freeFrom 0
  let w := w.install t out (.outlet id) ⟨true, false, false, false, false, false⟩
  let t := (w.task? t.pid).getD t
  let into := t.freeFrom 0
  ((out, into), w.install t into (.inlet id) ⟨false, true, false, false, false, false⟩)

def read (w : World) (t : Task) (fd count : Nat) : Step (Except Errno Bytes) :=
  match w.behind t fd with
  | .error e => .done (.error e) w
  | .ok o =>
    if !o.readable then .done (.error .badDescriptor) w
    else match o.source with
    | .file id =>
      let bs := ((w.files.content id).drop o.position).take count
      .done (.ok bs) (w.putOpening { o with position := o.position + bs.length })
    | .directory _ => .done (.error .isDirectory) w
    | .device .null => .done (.ok []) w
    | .device _ => .done (.ok (List.replicate count 0)) w
    | .outlet id =>
      let held := w.pipeContent id
      if !held.isEmpty || count = 0 then
        .done (.ok (held.take count)) (w.putPipe id (held.drop count))
      else if !w.isHeld (.inlet id) then .done (.ok []) w
      else if t.struck then .done (.error .interrupted) w
      else .blocked
    | .inlet _ | .stream _ => .done (.error .badDescriptor) w

/-- Puts bytes into a text at a position; what is missing before it is filled with zeros. -/
def overwrite (content : Bytes) (position : Nat) (bs : Bytes) : Bytes :=
  if position = content.length then content ++ bs
  else
    content.take position ++ List.replicate (position - content.length) 0 ++ bs
      ++ content.drop (position + bs.length)

def write (w : World) (t : Task) (fd : Nat) (bs : Bytes) : Step (Except Errno Nat) :=
  match w.behind t fd with
  | .error e => .done (.error e) w
  | .ok o =>
    let all := bs.length
    if !o.writable then .done (.error .badDescriptor) w
    else match o.source with
    | .file id =>
      let content := w.files.content id
      let position := if o.append then content.length else o.position
      let w := { w with files := w.files.write id (overwrite content position bs) }
      .done (.ok all) ((w.note id).putOpening { o with position := position + all })
    | .directory _ => .done (.error .badDescriptor) w
    | .device .full => .done (if all = 0 then .ok 0 else .error .noSpace) w
    | .device _ => .done (.ok all) w
    | .stream s => .done (.ok all) { w with chunks := ⟨w.clock, s, bs⟩ :: w.chunks }
    | .inlet id =>
      let held := w.pipeContent id
      let room := capacity - held.length
      if !w.isHeld (.outlet id) then .done (.error .brokenPipe) (w.deliver t.pid t.pid Signal.pipe)
      else if all ≤ room then
        .done (.ok all) (w.putPipe id (held ++ bs))
      else if all ≤ undivided || room = 0 then
        if t.struck then .done (.error .interrupted) w else .blocked
      else .done (.ok room) (w.putPipe id (held ++ bs.take room))
    | .outlet _ => .done (.error .badDescriptor) w

def seek (w : World) (t : Task) (fd : Nat) (offset : Int) : Except Errno (Nat × World) :=
  match w.behind t fd with
  | .error e => .error e
  | .ok o =>
    match o.source with
    | .outlet _ | .inlet _ | .stream _ => .error .illegalSeek
    | .device _ => .ok (0, w)
    | _ =>
      let position := (o.position : Int) + offset
      if position < 0 then .error .invalid
      else .ok (position.toNat, w.putOpening { o with position := position.toNat })

def modifiedAt (w : World) (id : Nat) : Nat := (w.modified.lookup id).getD 0

def factsOf (w : World) (l : Location) : Entry → Facts
  | .directory => ⟨.directory, true, 4096, .place l, 0⟩
  | .link target => ⟨.link, true, target.length, .place l, 0⟩
  | .file id executable =>
    ⟨.file, executable, (w.files.content id).length, .file id, w.modifiedAt id⟩
  | .device _ => ⟨.device, false, 0, .place l, 0⟩
  | .program _ => ⟨.file, true, 1, .place l, 0⟩

def factsOfSource (w : World) (s : Source) : Facts :=
  match s with
  | .file id => ⟨.file, false, (w.files.content id).length, .file id, w.modifiedAt id⟩
  | .device .null => ⟨.device, false, 0, .place [[0]], 0⟩
  | .device _ => ⟨.device, false, 0, .place [[1]], 0⟩
  | .directory l => ⟨.directory, true, 4096, .place l, 0⟩
  | .outlet id | .inlet id => ⟨.pipe, false, 0, .pipe id, 0⟩
  | .stream s => ⟨.pipe, false, 0, .stream (s = .stdout), 0⟩

def describe (w : World) (t : Task) (fd : Nat) : Except Errno Facts :=
  (w.behind t fd).map fun o => w.factsOfSource o.source

def inspect (w : World) (t : Task) (p : Path) (links : Bool) : Except Errno Facts :=
  match ownDescriptor p with
  | some n =>
    if links then (w.describe t n).mapError fun _ => .noEntry
    else .ok ⟨.link, true, 0, .place [p], 0⟩
  | none =>
    match (w.filesOf t).locate (if links then .follow else .keep) p with
    | .error e => .error (errnoOf e)
    | .ok ⟨_, none⟩ => .error .noEntry
    | .ok ⟨l, some e⟩ => .ok (w.factsOf l e)

def stamp (w : World) (t : Task) (p : Path) (links : Bool) : Except Errno World :=
  (w.inspect t p links).map fun f =>
    match f.identity with
    | .file id => w.note id
    | _ => w

end World
end TestBench.Process
