import TestBench.Tool.Options
import TestBench.Text.Decimal
/-!
# Joining files

Files are written one after the other, as they are or with their lines numbered and their hidden
characters shown. The numbers go on from file to file.
-/
namespace TestBench.Tool.Cat

open Process

structure Style where
  number : Bool
  numberFull : Bool
  squeeze : Bool
  ends : Bool
  tabs : Bool
  hidden : Bool
deriving DecidableEq, Repr

def Style.isPlain (s : Style) : Bool :=
  !(s.number || s.numberFull || s.squeeze || s.ends || s.tabs || s.hidden)

/-- Where the text stands: within a line, or after some line ends; and the last number. -/
structure State where
  fresh : Option Nat
  lines : Nat
deriving DecidableEq, Repr

def State.start : State := ⟨some 0, 0⟩

def numberText (n : Nat) : Chars :=
  let ds := Decimal.render n
  List.replicate (6 - ds.length) ' ' ++ ds ++ ['\t']

def caret (n : Nat) : Chars := ['^', Char.ofNat n]

def visible (s : Style) (c : Char) : Chars :=
  let n := c.toNat
  if c == '\t' then (if s.tabs then caret 73 else [c])
  else if !s.hidden then [c]
  else
    let low := fun (k : Nat) =>
      if k < 32 then caret (k + 64) else if k = 127 then caret 63 else [Char.ofNat k]
    if n < 128 then low n else 'M' :: '-' :: low (n - 128)

/-- Shows a text; a carriage return before a line end is shown when line ends are. -/
def shown (s : Style) : State → Chars → Chars → State × Chars
  | st, done, [] => (st, done.reverse)
  | st, done, '\n' :: r =>
    let before := match st.fresh with
      | none => 0
      | some k => k + 1
    if s.squeeze && 2 ≤ before then shown s { st with fresh := some 2 } done r
    else
      let counted := 1 ≤ before && s.number && !s.numberFull
      let front := if counted then numberText (st.lines + 1) else []
      let lines := if counted then st.lines + 1 else st.lines
      let line := front ++ (if s.ends then ['$'] else []) ++ ['\n']
      shown s ⟨some before, lines⟩ (line.reverse ++ done) r
  | st, done, c :: r =>
    let counted := st.fresh.isSome && (s.number || s.numberFull)
    let front := if counted then numberText (st.lines + 1) else []
    let lines := if counted then st.lines + 1 else st.lines
    let piece := if c == '\x0d' && s.ends && !s.hidden && r.head? == some '\n' then caret 77
      else visible s c
    shown s ⟨none, lines⟩ ((front ++ piece).reverse ++ done) r

def bufferSize : Nat := 131072

def copy (s : Style) (name : Chars) (fd : Nat) : Nat → State → Job State
  | 0, st => pure st
  | n + 1, st => do
    match ← call (.read fd bufferSize) with
    | .error e =>
      complain [Quote.beforeColon name, reason e]
      pure st
    | .ok [] => pure st
    | .ok bs =>
      let (st, out) := if s.isPlain then (st, bs)
        else
          let t := shown s st [] (Chars.ofBytes bs)
          (t.1, Chars.toBytes t.2)
      match ← writeAll 1 stepBound out with
      | some e => die [str "write error", reason e]
      | none => copy s name fd n st

/-- Whether a file is the one that is written to, and not yet read to its end. -/
def isOwnOutput (fd : Nat) : Job Bool := do
  match ← call (.describe 1), ← call (.describe fd) with
  | .ok out, .ok source =>
    match ← call (.seek fd 0) with
    | .ok position =>
      pure (out.kind = .file && out.identity = source.identity && position < source.size)
    | .error _ => pure false
  | _, _ => pure false

def file (s : Style) (st : State) (name : Chars) : Job State := do
  let isInput := name = ['-']
  match ← if isInput then pure (.ok 0) else call (.openPath (Chars.toBytes name) .reading) with
  | .error e =>
    complain [Quote.beforeColon name, reason e]
    pure st
  | .ok fd =>
    match ← call (.describe fd) with
    | .error e =>
      complain [Quote.beforeColon name, reason e]
      pure st
    | .ok _ =>
      if ← isOwnOutput fd then
        complain [Quote.beforeColon name, str ": input file is output file"]
        pure st
      else
        let st ← copy s name fd stepBound st
        if !isInput then
          let _ ← call (.close fd)
        pure st

def options : Options where
  short := "AbeEnstTuv".toList.map fun c => (c, .nothing)
  long := [("number-nonblank", .nothing, 'b'), ("number", .nothing, 'n'),
    ("squeeze-blank", .nothing, 's'), ("show-nonprinting", .nothing, 'v'),
    ("show-ends", .nothing, 'E'), ("show-tabs", .nothing, 'T'), ("show-all", .nothing, 'A')]
    ++ Options.common
  inOrder := false

def style (s : Style) (letter : Char) : Style :=
  match letter with
  | 'b' => { s with numberFull := true, number := true }
  | 'n' => { s with number := true }
  | 's' => { s with squeeze := true }
  | 'v' => { s with hidden := true }
  | 'E' => { s with ends := true }
  | 'T' => { s with tabs := true }
  | 'e' => { s with ends := true, hidden := true }
  | 't' => { s with tabs := true, hidden := true }
  | 'A' => { s with ends := true, tabs := true, hidden := true }
  | _ => s

def job (args : List Chars) : Job Unit := do
  let p := options.parse args
  let s ← eachOption p.met ⟨false, false, false, false, false, false⟩ fun s c _ => pure (style s c)
  match ← call (.describe 1) with
  | .error e => die [str "standard output", reason e]
  | .ok _ =>
    let names := if p.operands.isEmpty then [['-']] else p.operands
    let _ ← names.foldlM (file s) State.start
    if names.contains ['-'] then
      match ← call (.close 0) with
      | .ok _ => pure ()
      | .error e => die [str "closing standard input", reason e]

end TestBench.Tool.Cat
