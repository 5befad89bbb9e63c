import TestBench.Text.Space
import TestBench.Text.Utf8
/-!
# Captured output

Two readers drain the two output streams of a child, each line by line, into one text. A reader
keeps what does not make a whole line yet; at the end of its stream that is a line too.
-/
namespace TestBench.Child

inductive Stream where
  | stdout
  | stderr
deriving DecidableEq, Repr

def lineFeed : UInt8 := 10

def isLineEnd (c : Char) : Bool := c == '\r' || c == '\n'

/-- A line as it is kept: characters, without its line ends, and one newline after it. -/
def normalLine (line : Bytes) : List Char :=
  Text.dropEnd isLineEnd (Utf8.decodeLossy line) ++ ['\n']

/-- One reader: the bytes since the last newline, last first. -/
structure Drain where
  held : Bytes
deriving DecidableEq, Repr

namespace Drain

def start : Drain := ⟨[]⟩

/-- Takes one byte; a newline completes a line. -/
def feedByte (d : Drain) (b : UInt8) : Drain × List (List Char) :=
  if b = lineFeed then (start, [normalLine (b :: d.held).reverse]) else (⟨b :: d.held⟩, [])

def feed (d : Drain) : Bytes → Drain × List (List Char)
  | [] => (d, [])
  | b :: r =>
    let t := d.feedByte b
    let u := feed t.1 r
    (u.1, t.2 ++ u.2)

def finish (d : Drain) : List (List Char) :=
  if d.held.isEmpty then [] else [normalLine d.held.reverse]

end Drain

/-- What the readers meet, in the order in which they meet it. -/
inductive Arrival where
  | bytes (s : Stream) (piece : Bytes)
  | ended (s : Stream)
deriving DecidableEq, Repr

/-- The two readers and the lines that they have made, last first. -/
structure Capture where
  out : Drain
  err : Drain
  lines : List (Stream × List Char)
deriving DecidableEq, Repr

namespace Capture

def start : Capture := ⟨.start, .start, []⟩

def drain (c : Capture) : Stream → Drain
  | .stdout => c.out
  | .stderr => c.err

def setDrain (c : Capture) (s : Stream) (d : Drain) : Capture :=
  match s with
  | .stdout => { c with out := d }
  | .stderr => { c with err := d }

def receive (c : Capture) : Arrival → Capture
  | .bytes s piece =>
    let t := (c.drain s).feed piece
    let c := c.setDrain s t.1
    { c with lines := t.2.foldl (fun ls l => (s, l) :: ls) c.lines }
  | .ended s =>
    let ls := (c.drain s).finish
    let c := c.setDrain s .start
    { c with lines := ls.foldl (fun all l => (s, l) :: all) c.lines }

def receiveAll (c : Capture) (as : List Arrival) : Capture := as.foldl receive c

def text (c : Capture) : String := String.ofList (c.lines.reverse.flatMap (·.2))

end Capture
end TestBench.Child
