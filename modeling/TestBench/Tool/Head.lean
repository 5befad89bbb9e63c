import TestBench.Tool.Options
import TestBench.Text.Decimal
/-!
# The beginning of files

Some lines or bytes from the front of each file, or all but some from its end.
-/
namespace TestBench.Tool.Head

open Process

inductive Headers where
  | several
  | never
  | always
deriving DecidableEq, Repr

structure Style where
  byLines : Bool
  count : Nat
  fromEnd : Bool
  headers : Headers
  lineEnd : UInt8
deriving DecidableEq, Repr

def Style.standard : Style := ⟨true, 10, false, .several, 10⟩

inductive Count where
  | number (n : Nat)
  | tooLarge
  | invalid
deriving DecidableEq, Repr

def greatest : Nat := Nat.pow 2 64 - 1

def units : List (Char × Nat) :=
  [('k', 1), ('K', 1), ('m', 2), ('M', 2), ('G', 3), ('T', 4), ('P', 5), ('E', 6), ('Z', 7),
    ('Y', 8), ('R', 9), ('Q', 10)]

def unit : Chars → Option Nat
  | [] => some 1
  | ['b'] => some 512
  | [c] => (units.lookup c).map fun k => Nat.pow 1024 k
  | [c, 'B'] => (units.lookup c).map fun k => Nat.pow 1000 k
  | [c, 'D'] => (units.lookup c).map fun k => Nat.pow 1000 k
  | [c, 'i', 'B'] => (units.lookup c).map fun k => Nat.pow 1024 k
  | _ => none

/-- A count with a unit; a unit alone is one of it. -/
def count (cs : Chars) : Count :=
  let cs := cs.dropWhile Text.isBlankByte
  let (signed, cs) := match cs with
    | '+' :: r => (true, r)
    | r => (false, r)
  let digits := cs.takeWhile Char.isDigit
  let rest := cs.drop digits.length
  if digits.isEmpty && (rest.isEmpty || signed) then .invalid
  else
    let n := if digits.isEmpty then 1 else Text.valueIn 10 digits
    match unit rest with
    | none => .invalid
    | some u => if greatest < n * u then .tooLarge else .number (n * u)

def setCount (s : Style) (byLines fromEnd : Bool) (text : Chars) : Job Style := do
  let what := if byLines then "invalid number of lines: " else "invalid number of bytes: "
  match count text with
  | .number n => pure { s with byLines := byLines, fromEnd := fromEnd, count := n }
  | .invalid => die [str what, Quote.plain text]
  | .tooLarge =>
    die [str what, Quote.plain text, str ": Value too large for defined data type"]

def setOption (s : Style) (letter : Char) (value : Chars) : Job Style := do
  match letter with
  | 'q' => pure { s with headers := .never }
  | 'v' => pure { s with headers := .always }
  | 'z' => pure { s with lineEnd := 0 }
  | c =>
    if c == 'c' || c == 'n' then
      match value with
      | '-' :: r => setCount s (c == 'n') true r
      | r => setCount s (c == 'n') false r
    else misuse [str "invalid trailing option -- ", [c]]

def options : Options where
  short := ('c', .argument) :: ('n', .argument) :: "qvz0123456789".toList.map fun c => (c, .nothing)
  long := [("bytes", .argument, 'c'), ("lines", .argument, 'n'), ("quiet", .nothing, 'q'),
    ("silent", .nothing, 'q'), ("verbose", .nothing, 'v'), ("zero-terminated", .nothing, 'z')]
    ++ Options.common
  inOrder := false

/-- A first word such as `-5` or `-2kv`: a number, and letters after it. -/
def numberWord (s : Style) (digits letters : Chars) : Job Style := do
  let t ← letters.foldlM (fun (t : Style × Chars) c => do
    match c with
    | 'c' => pure ({ t.1 with byLines := false }, [])
    | 'l' => pure ({ t.1 with byLines := true }, t.2)
    | 'q' => pure ({ t.1 with headers := .never }, t.2)
    | 'v' => pure ({ t.1 with headers := .always }, t.2)
    | 'z' => pure ({ t.1 with lineEnd := 0 }, t.2)
    | c =>
      if c == 'b' || c == 'k' || c == 'm' then pure ({ t.1 with byLines := false }, [c])
      else misuse [str "invalid trailing option -- ", [c]]) (s, [])
  setCount t.1 t.1.byLines false (digits ++ t.2)

def bufferSize : Nat := 8192

def emit (bs : Bytes) : Job Unit := do
  match ← putBytes bs with
  | none => pure ()
  | some e => dieOfOutput [str "error writing 'standard output'", reason e]

/-- The bytes up to the end of some line, and how many lines are still to come. -/
def takeLines (lineEnd : UInt8) : Nat → Bytes → Bytes → Bytes × Nat
  | n, done, [] => (done.reverse, n)
  | n, done, b :: r =>
    if b = lineEnd then
      if n = 1 then ((b :: done).reverse, 0) else takeLines lineEnd (n - 1) (b :: done) r
    else takeLines lineEnd n (b :: done) r

def readError (name : Chars) (e : Errno) : Job Unit :=
  complain [str "error reading ", Quote.always name, reason e]

/-- Copies lines from the front; what has been read beyond them is given back if that can be. -/
def copyLines (lineEnd : UInt8) (name : Chars) (fd : Nat) : Nat → Nat → Job Unit
  | 0, _ => pure ()
  | k + 1, n => do
    if n = 0 then pure ()
    else match ← call (.read fd bufferSize) with
      | .error e => readError name e
      | .ok [] => pure ()
      | .ok bs =>
        let (taken, left) := takeLines lineEnd n [] bs
        if left = 0 then
          let _ ← call (.seek fd (-((bs.length - taken.length : Nat) : Int)))
        emit taken
        copyLines lineEnd name fd k left

def copyBytes (name : Chars) (fd : Nat) : Nat → Nat → Job Unit
  | 0, _ => pure ()
  | k + 1, n => do
    if n = 0 then pure ()
    else match ← call (.read fd (min n bufferSize)) with
      | .error e => readError name e
      | .ok [] => pure ()
      | .ok bs =>
        emit bs
        copyBytes name fd k (n - bs.length)

/-- All but some lines at the end. A last line need not be ended. -/
def dropLines (lineEnd : UInt8) (n : Nat) (bs : Bytes) : Bytes :=
  if n = 0 then bs
  else
    let back := bs.reverse
    let back := match back with
      | b :: r => if b = lineEnd then r else back
      | [] => []
    let rec skip : Nat → Bytes → Bytes
      | 0, r => r
      | _, [] => []
      | k + 1, b :: r =>
        if b = lineEnd then (if k = 0 then b :: r else skip k r) else skip (k + 1) r
    (skip n back).reverse

def copyAllBut (s : Style) (name : Chars) (fd : Nat) : Job Unit := do
  match ← call (.describe fd) with
  | .error e => complain [str "cannot fstat ", Quote.always name, reason e]
  | .ok _ =>
    match ← readAll fd bufferSize stepBound [] with
    | .error e => readError name e
    | .ok bs =>
      emit (if s.byLines then dropLines s.lineEnd s.count bs else bs.take (bs.length - s.count))

def file (s : Style) (shows : Bool) (first : Bool) (name : Chars) : Job Bool := do
  let isInput := name = ['-']
  match ← if isInput then pure (.ok 0) else call (.openPath (Chars.toBytes name) .reading) with
  | .error e =>
    complain [str "cannot open ", Quote.always name, str " for reading", reason e]
    pure first
  | .ok fd =>
    let title := if isInput then str "standard input" else name
    if shows then
      put ((if first then [] else ['\n']) ++ str "==> " ++ title ++ str " <==\n")
    if s.fromEnd then copyAllBut s title fd
    else if s.byLines then copyLines s.lineEnd title fd stepBound s.count
    else copyBytes title fd stepBound s.count
    if !isInput then
      let _ ← call (.close fd)
    pure (first && !shows)

def job (args : List Chars) : Job Unit := do
  let (start, words) ← match args with
    | ('-' :: d :: r) :: words =>
      if d.isDigit then
        let digits := (d :: r).takeWhile Char.isDigit
        pure (← numberWord .standard digits ((d :: r).drop digits.length), words)
      else pure (Style.standard, args)
    | _ => pure (Style.standard, args)
  let p := options.parse words
  let s ← eachOption p.met start setOption
  let names := if p.operands.isEmpty then [['-']] else p.operands
  let shows := s.headers = .always || (s.headers = .several && 1 < names.length)
  let _ ← names.foldlM (file s shows) true
  if names.contains ['-'] then
    match ← call (.close 0) with
    | .ok _ => pure ()
    | .error e => die [str "-", reason e]

end TestBench.Tool.Head
