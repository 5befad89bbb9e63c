import TestBench.Child.Capture
/-!
# Readers at work

Each of the two readers runs on its own: it takes blocks off its stream, cuts them into lines, and
puts each line into one text that it shares with the other, behind a lock. The bench waits for the
child, then for the readers, and takes the text. It may abort a reader, which then ends where it
waits, for its stream or for the lock; while it holds the lock it never waits.
-/
namespace TestBench.Child

/-- The characters of a line without its line ends. -/
def bareLine (raw : Bytes) : List Char := Text.dropEnd isLineEnd (Utf8.decodeLossy raw)

/-- What a reader is at. A line goes into the text in two parts: its characters, and a newline. -/
inductive Stage where
  | reading
  | waiting (raw : Bytes)
  | holding (raw : Bytes)
  | putting (raw : Bytes)
  | finished (whole : Bool)
deriving DecidableEq, Repr

def Stage.isFinished : Stage → Bool
  | .finished _ => true
  | .reading | .waiting _ | .holding _ | .putting _ => false

/-- What a reader does without the lock. -/
inductive Move where
  | read (size : Nat)
  | scan
  | close
  | fail
  | cut
deriving DecidableEq, Repr

/-- A reader: what its stream has still to give, the block it is looking through, the bytes since
the last newline, and whether it is aborted. -/
structure Reader where
  unread : Bytes
  block : Bytes
  drain : Drain
  stage : Stage
  aborted : Bool
deriving DecidableEq, Repr

namespace Reader

def start (stream : Bytes) : Reader := ⟨stream, [], .start, .reading, false⟩

/-- It has looked through its block and needs more of the stream. -/
def isIdle (r : Reader) : Bool := r.stage = .reading && r.block.isEmpty

def isWaiting (r : Reader) : Bool :=
  match r.stage with
  | .waiting _ => true
  | _ => r.isIdle

def move (r : Reader) : Move → Option Reader
  | .read size =>
    if r.isIdle ∧ 0 < size ∧ size ≤ r.unread.length then
      some { r with unread := r.unread.drop size, block := r.unread.take size }
    else none
  | .scan =>
    match r.stage, r.block with
    | .reading, b :: rest =>
      let stage := if b = lineFeed then .waiting (b :: r.drain.held).reverse else .reading
      some { r with block := rest, drain := (r.drain.feedByte b).1, stage }
    | _, _ => none
  | .close =>
    if r.isIdle ∧ r.unread = [] then
      let stage := if r.drain.held = [] then .finished true else .waiting r.drain.held.reverse
      some { r with drain := .start, stage }
    else none
  | .fail => if r.isIdle then some { r with stage := .finished false } else none
  | .cut => if r.aborted ∧ r.isWaiting then some { r with stage := .finished false } else none

end Reader

/-- What the bench waits for: the child, a reader, the text. -/
inductive Phase where
  | running
  | joining (s : Stream)
  | copying
  | taken (text : String)
deriving DecidableEq, Repr

/-- The standard output is joined first. -/
def Phase.after : Stream → Phase
  | .stdout => .joining .stderr
  | .stderr => .copying

inductive Event where
  | move (s : Stream) (m : Move)
  | lock (s : Stream)
  | put (s : Stream)
  | release (s : Stream)
  | leave (killed : Bool)
  | expire
  | join
  | take
deriving DecidableEq, Repr

/-- The readers, who has the lock, the text that is behind it, and the bench. -/
structure Readers where
  reader : Stream → Reader
  lock : Option Stream
  text : List Char
  phase : Phase

namespace Readers

def start (streams : Stream → Bytes) : Readers :=
  ⟨fun s => .start (streams s), none, [], .running⟩

def setReader (c : Readers) (s : Stream) (r : Reader) : Readers :=
  { c with reader := fun t => if t = s then r else c.reader t }

def setStage (c : Readers) (s : Stream) (stage : Stage) : Readers :=
  c.setReader s { c.reader s with stage }

def abort (c : Readers) (s : Stream) : Readers :=
  c.setReader s { c.reader s with aborted := true }

/-- One event; nothing if it cannot happen. -/
def step (c : Readers) : Event → Option Readers
  | .move s m => ((c.reader s).move m).map (c.setReader s)
  | .lock s =>
    match (c.reader s).stage, c.lock with
    | .waiting raw, none => some ({ c with lock := some s }.setStage s (.holding raw))
    | _, _ => none
  | .put s =>
    match (c.reader s).stage with
    | .holding raw => some ({ c with text := c.text ++ bareLine raw }.setStage s (.putting raw))
    | _ => none
  | .release s =>
    match (c.reader s).stage with
    | .putting _ => some ({ c with text := c.text ++ ['\n'], lock := none }.setStage s .reading)
    | _ => none
  | .leave killed =>
    if c.phase = .running then
      let c := if killed then (c.abort .stdout).abort .stderr else c
      some { c with phase := .joining .stdout }
    else none
  | .expire =>
    match c.phase with
    | .joining s => some (c.abort s)
    | _ => none
  | .join =>
    match c.phase with
    | .joining s =>
      if (c.reader s).stage.isFinished then
        some { c with phase := .after s }
      else none
    | _ => none
  | .take =>
    if c.phase = .copying ∧ c.lock = none then some { c with phase := .taken (.ofList c.text) }
    else none

def run (c : Readers) : List Event → Option Readers
  | [] => some c
  | e :: es => (c.step e).bind (run · es)

end Readers

end TestBench.Child
