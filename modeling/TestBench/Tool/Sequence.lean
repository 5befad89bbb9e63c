import TestBench.Number.Layout
import TestBench.Tool.Options
/-!
# Rows of numbers

Numbers from a first to a last by equal steps. Whole numbers may be of any size; others have a
limited precision, and the format shows as many places as the operands do.
-/
namespace TestBench.Tool.Sequence

open Number

structure Style where
  format : Option Chars
  separator : Chars
  equalWidth : Bool
deriving DecidableEq, Repr

/-- An operand: its value, how wide it is written and how many places it shows, if that is known. -/
structure Operand where
  value : Binary
  width : Int
  precision : Option Int
deriving DecidableEq, Repr

def one : Operand := ⟨.finite false 1 0, 1, some 0⟩

def isWhole (cs : Chars) : Bool := !cs.isEmpty && cs.all Char.isDigit

def readWhole? (cs : Chars) : Option Binary :=
  match Reading.take? .extended cs with
  | none => none
  | some r =>
    if !r.rest.isEmpty || (r.fitted.outOfRange && !r.fitted.value.isZero) then none
    else some r.fitted.value

def exponentOf (cs : Chars) : Int := (Reading.exponentAfter 'e' cs).1

def measured (value : Binary) (cs : Chars) : Operand :=
  let before := cs.takeWhile (· != '.')
  let hasPoint := before.length < cs.length
  let part := (cs.drop (before.length + 1)).takeWhile fun c => c != 'e' && c != 'E'
  let places : Int := part.length
  let mantissa := cs.takeWhile fun c => c != 'e' && c != 'E'
  let tail := cs.drop mantissa.length
  let width : Int := cs.length
  let width := if !hasPoint then width
    else if part.isEmpty then width - 1
    else if !(before.getLast?.any Char.isDigit) then width + 1
    else width
  let precision : Int := if hasPoint then places else 0
  if tail.isEmpty then ⟨value, width, some precision⟩
  else
    let e := exponentOf tail
    let precision := if e < 0 then precision - e else precision - min precision e
    let width := width - tail.length
    if e < 0 then
      let width := if hasPoint then (if part.isEmpty then width + 1 else width) else width + 1
      ⟨value, width - e, some precision⟩
    else
      let width := if hasPoint && precision = 0 && 0 < places then width - 1 else width
      ⟨value, width + (e - min places e), some precision⟩

def operand (cs : Chars) : Job Operand := do
  match readWhole? cs with
  | none => misuse [str "invalid floating point argument: ", Quote.plain cs]
  | some value =>
    match value with
    | .invalid _ => misuse [str "invalid 'not-a-number' argument: ", Quote.plain cs]
    | value =>
      let cs := cs.dropWhile fun c => Text.isBlankByte c || c == '+'
      let finite := match value with
        | .finite _ _ _ => true
        | _ => false
      if finite && !(cs.any fun c => c == 'x' || c == 'X') then pure (measured value cs)
      else
        pure ⟨value, 0, if cs.contains '.' || cs.contains 'p' then none else some 0⟩

structure Format where
  front : Chars
  field : Field
  conversion : Char
  back : Chars

def Format.text (f : Format) (x : Binary) : Chars := f.field.binary .extended f.conversion x

def plainPart : Chars → Chars × Chars
  | [] => ([], [])
  | '%' :: '%' :: r =>
    let t := plainPart r
    ('%' :: t.1, t.2)
  | '%' :: r => ([], '%' :: r)
  | c :: r =>
    let t := plainPart r
    (c :: t.1, t.2)

def flag (f : Field) : Char → Field
  | '-' => { f with left := true }
  | '+' => { f with plus := true }
  | ' ' => { f with space := true }
  | '#' => { f with alternate := true }
  | '0' => { f with zero := true }
  | _ => f

def readFormat (cs : Chars) : Job Format := do
  let whole := Quote.plain cs
  let (front, r) := plainPart cs
  match r with
  | [] => die [str "format ", whole, str " has no % directive"]
  | _ :: r =>
    let flags := r.takeWhile "-+#0 '".toList.contains
    let r := r.drop flags.length
    let width := r.takeWhile Char.isDigit
    let r := r.drop width.length
    let (precision, r) := match r with
      | '.' :: r =>
        let ds := r.takeWhile Char.isDigit
        (some (Text.valueIn 10 ds), r.drop ds.length)
      | r => (none, r)
    let r := match r with
      | 'L' :: r => r
      | r => r
    match r with
    | [] => die [str "format ", whole, str " ends in %"]
    | c :: r =>
      if !("efgaEFGA".toList.contains c) then
        die [str "format ", whole, str " has unknown %", [c], str " directive"]
      let (back, rest) := plainPart r
      if !rest.isEmpty then die [str "format ", whole, str " has too many % directives"]
      let field := { flags.foldl flag Field.plain with
        width := Text.valueIn 10 width, precision := precision }
      pure ⟨front, field, c, back⟩

def general : Format := ⟨[], .plain, 'g', []⟩

def standardFormat (equalWidth : Bool) (first step last : Operand) : Format :=
  match first.precision, step.precision, last.precision with
  | some p, some q, some l =>
    let places := max p q
    let field := { Field.plain with precision := some places.toNat }
    if equalWidth then
      let fromFirst := first.width + (places - p) + (if p = 0 && places != 0 then 1 else 0)
      let fromLast := last.width + (places - l)
        + (if l != 0 && places = 0 then -1 else 0) + (if l = 0 && places != 0 then 1 else 0)
      ⟨[], { field with zero := true, width := (max fromFirst fromLast).toNat }, 'f', []⟩
    else ⟨[], field, 'f', []⟩
  | _, _, _ => general

def emit (cs : Chars) : Job Unit := do
  match ← putBytes (Chars.toBytes cs) with
  | none => pure ()
  | some e => dieOfOutput [str "write error", reason e]

def shown (f : Format) (x : Binary) : Chars := f.front ++ f.text x ++ f.back

def beyond (step last x : Binary) : Bool :=
  if step.less .zero then x.less last else last.less x

/-- Whether a number past the last one is written like the last one, and not like the one before. -/
def isLastAgain (f : Format) (last before x : Binary) : Bool :=
  match readWhole? (f.text x) with
  | some v => !(v.less last) && !(last.less v) && f.text before != f.text x
  | none => false

def count (s : Style) (f : Format) (first step last : Binary) : Nat → Nat → Binary → Job Unit
  | 0, _, _ => pure ()
  | n + 1, i, x => do
    emit (shown f x)
    let next := first.add .extended ((Binary.finite false i 0).multiply .extended step)
    if beyond step last next then
      if isLastAgain f last x next then emit (s.separator ++ shown f next ++ ['\n'])
      else emit ['\n']
    else
      emit s.separator
      count s f first step last n (i + 1) next

def batch : Nat := 500

/-- Writes whole numbers from one on, up to the last if there is one. -/
def countWhole (separator : Chars) (step : Nat) (last : Option Nat) : Nat → Nat → Job Unit
  | 0, _ => pure ()
  | n + 1, x => do
    let left := match last with
      | some l => (l - x) / step + 1
      | none => batch + 1
    let row := (List.range (min left batch)).map fun i => Decimal.render (x + i * step)
    if left ≤ batch then emit (Text.joinWith separator row ++ ['\n'])
    else
      emit (row.flatMap (· ++ separator))
      countWhole separator step last n (x + batch * step)

/-- The greatest step for which whole numbers are counted as such. -/
def wholeStep : Nat := 200

def wholeOf (b : Binary) : Option Nat := b.floorIn 1

def numbers (s : Style) (format : Option Format) (words : List Chars) : Job Unit := do
  let (first, step, last) ← match words with
    | [a] => do pure (one, one, ← operand a)
    | [a, b] => do
      let first ← operand a
      pure (first, one, ← operand b)
    | a :: b :: c :: _ => do
      let first ← operand a
      let step ← operand b
      if step.value.isZero then
        misuse [str "invalid Zero increment value: ", Quote.plain b]
      pure (first, step, ← operand c)
    | [] => pure (one, one, one)
  let simple := first.precision = some 0 && step.precision = some 0 && last.precision = some 0
    && !s.equalWidth && format.isNone && s.separator.length = 1
  match wholeOf first.value, wholeOf step.value, last.value with
  | some x, some d, .infinite false =>
    if simple && 0 < d && d ≤ wholeStep then countWhole s.separator d none stepBound x
    else
      let f := format.getD (standardFormat s.equalWidth first step last)
      count s f first.value step.value last.value stepBound 1 first.value
  | _, _, _ =>
    let f := format.getD (standardFormat s.equalWidth first step last)
    if beyond step.value last.value first.value then pure ()
    else count s f first.value step.value last.value stepBound 1 first.value

/-- The operands as whole numbers, if they all are and the step is small. -/
def wholeOperands (words : List Chars) : Option (Nat × Nat × Nat) :=
  if !(words.all isWhole) then none
  else
    match words.map (Text.valueIn 10) with
    | [b] => some (1, 1, b)
    | [a, b] => some (a, 1, b)
    | [a, d, b] => if 0 < d && d ≤ wholeStep then some (a, d, b) else none
    | _ => none

def options : Options where
  short := [('f', .argument), ('s', .argument), ('w', .nothing)]
  long := [("equal-width", .nothing, 'w'), ("format", .argument, 'f'), ("separator", .argument, 's')]
    ++ Options.common
  inOrder := true

def isNegative : Chars → Bool
  | '-' :: c :: _ => c == '.' || c.isDigit
  | _ => false

def setOption (s : Style) (letter : Char) (value : Chars) : Job Style :=
  pure (match letter with
    | 'f' => { s with format := some value }
    | 's' => { s with separator := value }
    | _ => { s with equalWidth := true })

def job (args : List Chars) : Job Unit := do
  let p := options.parseFrom isNegative (args.length + 1) args
  let s ← eachOption p.met ⟨none, ['\n'], false⟩ setOption
  match p.operands with
  | [] => misuse [str "missing operand"]
  | words =>
    if 3 < words.length then
      misuse [str "extra operand ", Quote.plain ((words.drop 3).head?.getD [])]
    let format ← match s.format with
      | none => pure none
      | some cs => do pure (some (← readFormat cs))
    if format.isSome && s.equalWidth then
      misuse [str "format string may not be specified when printing equal width strings"]
    match wholeOperands words with
    | some (first, step, last) =>
      if !s.equalWidth && format.isNone && s.separator.length = 1 then
        if first ≤ last then countWhole s.separator step (some last) stepBound first
      else numbers s format words
    | none => numbers s format words

end TestBench.Tool.Sequence
