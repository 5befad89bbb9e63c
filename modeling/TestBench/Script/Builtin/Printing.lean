import TestBench.Number.Integer
import TestBench.Number.Layout
import TestBench.Script.Option
import TestBench.Text.Split
/-!
# Printing

The shell's own commands for output: words with their escapes replaced, and a format that is used as
long as there are arguments.
-/
namespace TestBench.Script.Printing

open Number Run

/-- An escape after its backslash: the character and what follows. Digits are octal. -/
def escape (cs : Chars) : Char × Chars :=
  match cs with
  | '\\' :: r => ('\\', r)
  | 'a' :: r => ('\x07', r)
  | 'b' :: r => ('\x08', r)
  | 'e' :: r => ('\x1b', r)
  | 'f' :: r => ('\x0c', r)
  | 'n' :: r => ('\n', r)
  | 'r' :: r => ('\x0d', r)
  | 't' :: r => ('\t', r)
  | 'v' :: r => ('\x0b', r)
  | cs =>
    let ds := (cs.take 3).takeWhile Text.isOctal
    if ds.isEmpty then ('\\', cs) else (byteChar (Text.valueIn 8 ds), cs.drop ds.length)

theorem escape_length (cs : Chars) : (escape cs).2.length ≤ cs.length := by
  fun_cases escape cs <;> grind

/-- In an argument a zero may stand before the digits. -/
def withoutZero (cs : Chars) : Chars :=
  match cs with
  | '0' :: d :: r => if Text.isOctal d then d :: r else cs
  | cs => cs

theorem withoutZero_length (cs : Chars) : (withoutZero cs).length ≤ cs.length := by
  unfold withoutZero
  split
  · split <;> simp
  · simp

/-- Replaces the escapes of an argument; one of them ends all output, which the flag tells. -/
def unescape : Chars → Chars × Bool
  | [] => ([], false)
  | '\\' :: r =>
    if r.head? == some 'c' then ([], true)
    else
      let e := escape (withoutZero r)
      let t := unescape e.2
      (e.1 :: t.1, t.2)
  | c :: r =>
    let t := unescape r
    (c :: t.1, t.2)
termination_by cs => cs.length
decreasing_by
  all_goals simp_wf
  have := escape_length (withoutZero r)
  have := withoutZero_length r
  omega

def echoWords (line : Bool) : List Chars → Run Unit
  | [] => if line then put ['\n'] else pure ()
  | w :: ws => do
    let (text, stops) := unescape w
    put text
    if stops then pure ()
    else
      if !ws.isEmpty then put [' ']
      echoWords line ws

def echo (words : List Chars) : Run Int := do
  match words with
  | ['-', 'n'] :: r => echoWords false r
  | ws => echoWords true ws
  pure 0

structure Arguments where
  rest : List Chars
  bad : Bool

abbrev Formatting := StateT Arguments Run

def next? : Formatting (Option Chars) := do
  let a ← get
  match a.rest with
  | [] => pure none
  | w :: ws =>
    set { a with rest := ws }
    pure (some w)

def complain (parts : List Chars) : Formatting Unit := do
  StateT.lift (warn parts.flatten)
  modify fun a => { a with bad := true }

def checkRead (whole rest : Chars) (outOfRange : Bool) : Formatting Unit := do
  if !rest.isEmpty then
    complain [whole, str (if rest.length = whole.length then ": expected numeric value"
      else ": not completely converted")]
  else if outOfRange then complain [whole, str ": Numerical result out of range"]

/-- The number of a character after a quote. -/
def quoted? (cs : Chars) : Option Nat :=
  match cs with
  | q :: r => if q == '"' || q == '\'' then some ((r.head?.map Char.toNat).getD 0) else none
  | [] => none

def signed : Formatting Int := do
  match ← next? with
  | none => pure 0
  | some cs =>
    match quoted? cs with
    | some n => pure n
    | none =>
      let (negative, n, rest) := (Number.Integer.take cs).getD (false, 0, cs)
      let bound := if negative then Nat.pow 2 63 else Nat.pow 2 63 - 1
      checkRead cs rest (bound < n)
      pure (Number.Binary.signed negative (min n bound))

def natural : Formatting Nat := do
  match ← next? with
  | none => pure 0
  | some cs =>
    match quoted? cs with
    | some n => pure n
    | none =>
      let (negative, n, rest) := (Number.Integer.take cs).getD (false, 0, cs)
      checkRead cs rest (Nat.pow 2 64 ≤ n)
      pure (if Nat.pow 2 64 ≤ n then Nat.pow 2 64 - 1
        else if negative then (Nat.pow 2 64 - n) % Nat.pow 2 64 else n)

def binary : Formatting Number.Binary := do
  match ← next? with
  | none => pure .zero
  | some cs =>
    match quoted? cs with
    | some n => pure (.finite false n 0)
    | none =>
      match Reading.take? .double cs with
      | none =>
        checkRead cs cs false
        pure .zero
      | some r =>
        checkRead cs r.rest r.fitted.outOfRange
        pure r.fitted.value

def isFlag (c : Char) : Bool := "#-+ 0".toList.contains c

def addFlag (f : Number.Field) : Char → Number.Field
  | '-' => { f with left := true }
  | '+' => { f with plus := true }
  | ' ' => { f with space := true }
  | '#' => { f with alternate := true }
  | _ => { f with zero := true }

/-- A width or precision: a star takes an argument, of which 32 bits count. -/
def measure (cs : Chars) : Formatting (Int × Chars) := do
  match cs with
  | '*' :: r => pure ((← signed).bmod (Nat.pow 2 32), r)
  | cs =>
    let ds := cs.takeWhile Char.isDigit
    pure (Text.valueIn 10 ds, cs.drop ds.length)

/-- One conversion after its percent sign; answers with what follows, or nothing if the output is
over. -/
def conversion (cs : Chars) : Formatting (Option Chars) := do
  let flags := cs.takeWhile isFlag
  let (width, r) ← measure (cs.drop flags.length)
  let f := flags.foldl addFlag Number.Field.plain
  let f := { f with width := width.natAbs, left := f.left || width < 0 }
  let (f, r) ← match r with
    | '.' :: r => do
      let (n, r) ← measure r
      pure (if n < 0 then f else { f with precision := some n.toNat }, r)
    | r => pure (f, r)
  let output := fun (text : Chars) => StateT.lift (put text)
  match r with
  | [] => StateT.lift (failText "missing format character")
  | 'b' :: r =>
    let (text, stops) := unescape ((← next?).getD [])
    output (f.text text)
    pure (if stops then none else some r)
  | 'c' :: r =>
    output (f.fill false [] [(((← next?).getD []).head?).getD '\x00'])
    pure (some r)
  | 's' :: r =>
    output (f.text ((← next?).getD []))
    pure (some r)
  | c :: r =>
    if c == 'd' || c == 'i' then output (f.integer (← signed))
    else if c == 'o' then output (f.natural 8 false (← natural))
    else if c == 'u' then output ({ f with alternate := false }.natural 10 false (← natural))
    else if c == 'x' || c == 'X' then output (f.natural 16 (c == 'X') (← natural))
    else if "aAeEfFgG".toList.contains c then output (f.binary .double c (← binary))
    else
      StateT.lift (fail ('%' :: cs.take (cs.length - r.length) ++ str ": invalid directive"))
    pure (some r)

/-- Goes through the format once; answers whether the output is over. -/
def pass : Nat → Chars → Formatting Bool
  | 0, _ => pure false
  | _, [] => pure false
  | n + 1, '\\' :: r => do
    let (c, r) := escape r
    StateT.lift (put [c])
    pass n r
  | n + 1, '%' :: '%' :: r => do
    StateT.lift (put ['%'])
    pass n r
  | n + 1, '%' :: r => do
    match ← conversion r with
    | none => pure true
    | some r => pass n r
  | n + 1, c :: r => do
    StateT.lift (put [c])
    pass n r

def passes (format : Chars) (all : Nat) : Nat → Formatting Unit
  | 0 => pure ()
  | n + 1 => do
    if ← pass (format.length + 1) format then pure ()
    else
      let left := (← get).rest.length
      if left < all && 0 < left then passes format all n

def printf (words : List Chars) : Run Int := do
  match ← operands words with
  | [] => failText "usage: printf format [arg ...]"
  | format :: args =>
    let (_, a) ← (passes format args.length (args.length + 1)).run ⟨args, false⟩
    pure (if a.bad then 1 else 0)

end TestBench.Script.Printing
