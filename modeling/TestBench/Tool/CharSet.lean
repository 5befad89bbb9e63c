import TestBench.Text.Decimal
import TestBench.Tool.Desk
/-!
# Sets of characters

How a row of characters is written: with escapes, ranges, classes and repetitions. Each construct is
kept as one element, since upper and lower case are matched as wholes.
-/
namespace TestBench.Tool

/-- One construct of a set. A repetition without a count fills up as much as is needed. -/
inductive SetElement where
  | char (c : Char)
  | range (first last : Char)
  | cls (name : Chars)
  | equal (c : Char)
  | repeated (c : Char) (count : Nat)
deriving DecidableEq, Repr

namespace CharSet

/-- A character and whether it was escaped. -/
abbrev Mark := Char × Bool

def escapeChar (c : Char) : Char :=
  match c with
  | 'a' => '\x07'
  | 'b' => '\x08'
  | 'f' => '\x0c'
  | 'n' => '\n'
  | 'r' => '\x0d'
  | 't' => '\t'
  | 'v' => '\x0b'
  | c => c

/-- Takes the escapes out of a text; the warnings come apart. -/
def unquote : Nat → Chars → List Mark × List Chars
  | 0, _ => ([], [])
  | _, [] => ([], [])
  | _, ['\\'] =>
    ([('\\', false)], [str "warning: an unescaped backslash at end of string is not portable"])
  | n + 1, '\\' :: c :: r =>
    if Text.isOctal c then
      let ds := ((c :: r).take 3).takeWhile Text.isOctal
      let tooGreat := 255 < Text.valueIn 8 ds
      let used := if tooGreat then ds.take 2 else ds
      let t := unquote n ((c :: r).drop used.length)
      let warning := if tooGreat then
          [str "warning: the ambiguous octal escape \\" ++ ds
            ++ str " is being\n\tinterpreted as the 2-byte sequence \\0" ++ used ++ str ", "
            ++ ds.drop 2]
        else []
      ((byteChar (Text.valueIn 8 used), true) :: t.1, warning ++ t.2)
    else
      let t := unquote n r
      ((escapeChar c, true) :: t.1, t.2)
  | n + 1, c :: r =>
    let t := unquote n r
    ((c, false) :: t.1, t.2)

def upper : Chars := (List.range 26).map fun i => Char.ofNat (65 + i)
def lower : Chars := (List.range 26).map fun i => Char.ofNat (97 + i)

def allBytes : Chars := (List.range 256).map Char.ofNat

def isPunct (c : Char) : Bool := '!' ≤ c && c ≤ '~' && !c.isAlphanum

def members? (name : Chars) : Option Chars :=
  let those := fun (p : Char → Bool) => some (allBytes.filter p)
  match String.ofList name with
  | "alnum" => those Char.isAlphanum
  | "alpha" => those Char.isAlpha
  | "blank" => some ['\t', ' ']
  | "cntrl" => those fun c => c < ' ' || c == '\x7f'
  | "digit" => those Char.isDigit
  | "graph" => those fun c => '!' ≤ c && c ≤ '~'
  | "lower" => some lower
  | "print" => those Text.isPrintable
  | "punct" => those isPunct
  | "space" => those Text.isBlankByte
  | "upper" => some upper
  | "xdigit" => those Text.isHex
  | _ => none

def shownChar (c : Char) : Chars :=
  if Text.isPrintable c then [c]
  else
    let n := c.toNat
    ['\\', Char.ofNat (48 + n / 64), Char.ofNat (48 + n / 8 % 8), Char.ofNat (48 + n % 8)]

def shown (cs : Chars) : Chars := cs.flatMap fun c => if c == '\\' then ['\\', '\\'] else shownChar c

/-- What stands before a closing mark and bracket, and what follows them. -/
def closed (mark : Char) : List Mark → Option (Chars × List Mark)
  | a :: b :: r =>
    if a == (mark, false) && b == (']', false) then some ([], r)
    else (closed mark (b :: r)).map fun t => (a.1 :: t.1, t.2)
  | _ => none

def countDigits : List Mark → Option (Chars × List Mark)
  | (']', false) :: r => some ([], r)
  | (c, false) :: r => (countDigits r).map fun t => (c :: t.1, t.2)
  | _ => none

def bigCount : Nat := Nat.pow 2 64 - 1

/-- A count in octal if it begins with a zero. -/
def countValue (ds : Chars) : Option Nat :=
  if ds.isEmpty then some 0
  else
    let octal := ds.head? == some '0'
    if !(ds.all fun c => if octal then Text.isOctal c else c.isDigit) then none
    else
      let n := Text.valueIn (if octal then 8 else 10) ds
      if bigCount / 2 < n then none else some n

def badCount (ds : Chars) : Chars :=
  str "invalid repeat count " ++ Quote.plain (shown ds) ++ str " in [c*n] construct"

def repetition (ms : List Mark) : Except Chars (Option (SetElement × List Mark)) :=
  match ms with
  | c :: ('*', false) :: r =>
    match countDigits r with
    | none => .ok none
    | some (ds, rest) =>
      match countValue ds with
      | none => .error (badCount ds)
      | some n => .ok (some (.repeated c.1 n, rest))
  | _ => .ok none

def isStarCount : List Mark → Bool
  | ('*', false) :: r =>
    match r.dropWhile fun m => !m.2 && m.1.isDigit with
    | (']', false) :: _ => true
    | _ => false
  | _ => false

def named (ms : List Mark) : Except Chars (Option (SetElement × List Mark)) :=
  match ms with
  | (':', false) :: r =>
    match closed ':' r with
    | none => .ok none
    | some ([], _) => .error (str "missing character class name '[::]'")
    | some (name, rest) =>
      if (members? name).isSome then .ok (some (.cls name, rest))
      else if isStarCount r then .ok none
      else .error (str "invalid character class " ++ Quote.plain (shown name))
  | ('=', false) :: r =>
    match closed '=' r with
    | none => .ok none
    | some ([], _) => .error (str "missing equivalence class character '[==]'")
    | some ([c], rest) => .ok (some (.equal c, rest))
    | some (cs, rest) =>
      if isStarCount r then .ok none
      else
        let _ := rest
        .error (shown cs ++ str ": equivalence class operand must be a single character")
  | _ => .ok none

def bracketed (ms : List Mark) : Except Chars (Option (SetElement × List Mark)) :=
  match named ms with
  | .error e => .error e
  | .ok (some t) => .ok (some t)
  | .ok none => repetition ms

def elements : Nat → List Mark → Except Chars (List SetElement)
  | 0, _ => .ok []
  | n + 1, a :: b :: c :: r => do
    let construct ← if a == ('[', false) then bracketed (b :: c :: r) else .ok none
    match construct with
    | some (e, rest) => pure (e :: (← elements n rest))
    | none =>
      if b == ('-', false) then
        if c.1 < a.1 then
          .error (str "range-endpoints of '" ++ shownChar a.1 ++ ['-'] ++ shownChar c.1
            ++ str "' are in reverse collating sequence order")
        else pure (.range a.1 c.1 :: (← elements n r))
      else pure (.char a.1 :: (← elements n (b :: c :: r)))
  | _ + 1, ms => .ok (ms.map fun m => .char m.1)

def parse (cs : Chars) : Job (List SetElement) := do
  let (marks, warnings) := unquote (cs.length + 1) cs
  warnings.forM fun w => warn [w]
  match elements (marks.length + 1) marks with
  | .ok es => pure es
  | .error e => die [e]

end CharSet

namespace SetElement

def chars : SetElement → Chars
  | .char c => [c]
  | .range a b => (List.range (b.toNat + 1 - a.toNat)).map fun i => Char.ofNat (a.toNat + i)
  | .cls name => (CharSet.members? name).getD []
  | .equal c => [c]
  | .repeated c n => List.replicate n c

def isClass : SetElement → Bool
  | .cls _ => true
  | _ => false

def case? : SetElement → Option Bool
  | .cls name => if name = str "upper" then some true else if name = str "lower" then some false else none
  | _ => none

def isOpen : SetElement → Bool
  | .repeated _ 0 => true
  | _ => false

def length : SetElement → Nat
  | .repeated _ n => n
  | e => e.chars.length

end SetElement
end TestBench.Tool
