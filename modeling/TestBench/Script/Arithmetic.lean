import TestBench.Number.Integer
import TestBench.Script.Syntax
import TestBench.Text.Decimal
/-!
# Arithmetic

Expressions over words of 64 bits. An expression is evaluated while it is read, so a fault in its
front comes before one behind it.
-/
namespace TestBench.Script.Arithmetic

inductive Binary where
  | multiply | divide | remainder
  | add | subtract
  | shiftLeft | shiftRight
  | less | atMost | greater | atLeast
  | equal | different
  | and | exclusive | or
deriving DecidableEq, Repr

inductive Token where
  | ending
  | number (n : Int64)
  | name (x : Chars)
  | binary (b : Binary)
  | assign (b : Option Binary)
  | both
  | either
  | opening
  | closing
  | question
  | colon
  | not
  | complement
  | bad
deriving DecidableEq, Repr

inductive Fault where
  | expecting (what : String)
  | divisionByZero
  | notANumber (text : Chars)
  | readOnly (x : Chars)
  | overflow
deriving DecidableEq, Repr

/-- The less, the more strongly an operator binds. -/
def Binary.rank : Binary → Nat
  | .multiply | .divide | .remainder => 0
  | .add | .subtract => 1
  | .shiftLeft | .shiftRight => 2
  | .less | .atMost | .greater | .atLeast => 3
  | .equal | .different => 4
  | .and => 5
  | .exclusive => 6
  | .or => 7

def weakestRank : Nat := 8

def ofBool (b : Bool) : Int64 := if b then 1 else 0

def Binary.apply (o : Binary) (a b : Int64) : Except Fault Int64 :=
  let quotient := fun (f : Int64 → Int64 → Int64) =>
    if b = 0 then .error .divisionByZero
    else if b = -1 && a = Int64.minValue then .error .overflow
    else .ok (f a b)
  match o with
  | .multiply => .ok (a * b)
  | .divide => quotient (· / ·)
  | .remainder => quotient (· % ·)
  | .add => .ok (a + b)
  | .subtract => .ok (a - b)
  | .shiftLeft => .ok (a <<< (b &&& 63))
  | .shiftRight => .ok (a >>> (b &&& 63))
  | .less => .ok (ofBool (a < b))
  | .atMost => .ok (ofBool (a ≤ b))
  | .greater => .ok (ofBool (b < a))
  | .atLeast => .ok (ofBool (b ≤ a))
  | .equal => .ok (ofBool (a == b))
  | .different => .ok (ofBool (a != b))
  | .and => .ok (a &&& b)
  | .exclusive => .ok (a ^^^ b)
  | .or => .ok (a ||| b)

def greatest : Nat := Nat.pow 2 63 - 1

def held (n : Nat) : Int64 := Int64.ofNat (min n greatest)

/-- The value of a variable as a number; one that is not set counts as zero. -/
def valueOf (cs : Chars) : Except Fault Int64 :=
  let body := cs.dropWhile Text.isBlankByte
  let (negative, digits) := match body with
    | '-' :: r => (true, r)
    | '+' :: r => (false, r)
    | r => (false, r)
  match Number.Integer.takeNatural digits with
  | none => if body.isEmpty then .ok 0 else .error (.notANumber cs)
  | some (n, rest) =>
    let tooGreat := if negative then greatest + 1 < n else greatest < n
    if tooGreat || !(rest.all Text.isBlankByte) then .error (.notANumber cs)
    else .ok (Int64.ofInt (if negative then -(n : Int) else n))

def assignable (b : Binary) (cs : Chars) : Token × Chars :=
  match cs with
  | '=' :: r => (.assign (some b), r)
  | r => (.binary b, r)

/-- The next token and what follows it. A bad character is not passed over. -/
def scan : Chars → Token × Chars
  | [] => (.ending, [])
  | c :: r =>
    if c == ' ' || c == '\t' || c == '\n' then scan r
    else if c.isDigit then
      match Number.Integer.takeNatural (c :: r) with
      | some (n, rest) => (.number (held n), rest)
      | none => (.bad, c :: r)
    else if isNameStart c then
      let x := (c :: r).takeWhile isNameChar
      (.name x, (c :: r).drop x.length)
    else match c, r with
      | '=', '=' :: r => (.binary .equal, r)
      | '=', r => (.assign none, r)
      | '>', '=' :: r => (.binary .atLeast, r)
      | '>', '>' :: r => assignable .shiftRight r
      | '>', r => (.binary .greater, r)
      | '<', '=' :: r => (.binary .atMost, r)
      | '<', '<' :: r => assignable .shiftLeft r
      | '<', r => (.binary .less, r)
      | '|', '|' :: r => (.either, r)
      | '|', r => assignable .or r
      | '&', '&' :: r => (.both, r)
      | '&', r => assignable .and r
      | '!', '=' :: r => (.binary .different, r)
      | '!', r => (.not, r)
      | '(', r => (.opening, r)
      | ')', r => (.closing, r)
      | '*', r => assignable .multiply r
      | '/', r => assignable .divide r
      | '%', r => assignable .remainder r
      | '+', r => assignable .add r
      | '-', r => assignable .subtract r
      | '^', r => assignable .exclusive r
      | '~', r => (.complement, r)
      | '?', r => (.question, r)
      | ':', r => (.colon, r)
      | _, r => (.bad, c :: r)

/-- The place in an expression: the text that is left, the token after what has been read, and the
variables as far as they have been looked at or changed. -/
structure Place where
  rest : Chars
  next : Token
  lookup : Chars → Option Chars
  isReadOnly : Chars → Bool
  changes : List (Chars × Int64)

abbrev Evaluation := StateT Place (Except Fault)

def scanNext : Evaluation Token :=
  modifyGet fun p =>
    let t := scan p.rest
    (t.1, { p with rest := t.2 })

def setNext (t : Token) : Evaluation Unit := modify fun p => { p with next := t }

def lookUp (x : Chars) : Evaluation Int64 := do
  let p ← get
  match p.changes.lookup x with
  | some v => pure v
  | none => StateT.lift (valueOf ((p.lookup x).getD []))

def change (x : Chars) (v : Int64) : Evaluation Int64 := do
  if (← get).isReadOnly x then throw (.readOnly x)
  modify fun p => { p with changes := (x, v) :: p.changes }
  pure v

mutual

/-- An operand. `after` is the token that follows the first one; with `idle` nothing is looked up. -/
def primary : Nat → Token → Token → Bool → Evaluation Int64
  | 0, _, _, _ => throw (.expecting "primary")
  | n + 1, first, after, idle => do
    match first with
    | .opening =>
      let v ← assignment n after idle
      if (← get).next != .closing then throw (.expecting "')'")
      setNext (← scanNext)
      pure v
    | .number v =>
      setNext after
      pure v
    | .name x =>
      setNext after
      if idle then pure 0 else lookUp x
    | .binary .add => primary n after (← scanNext) idle
    | .binary .subtract =>
      let v ← primary n after (← scanNext) idle
      pure (-v)
    | .not =>
      let v ← primary n after (← scanNext) idle
      pure (ofBool (v == 0))
    | .complement =>
      let v ← primary n after (← scanNext) idle
      pure (-v - 1)
    | _ => throw (.expecting "primary")

/-- Goes on with an operator after its first operand, as far as operators bind more strongly than a
rank. -/
def climb : Nat → Int64 → Binary → Nat → Bool → Evaluation Int64
  | 0, _, _, _, _ => throw (.expecting "primary")
  | n + 1, a, o, rank, idle => do
    let first ← scanNext
    let b ← primary n first (← scanNext) idle
    let b ← match (← get).next with
      | .binary p => if p.rank < o.rank then climb n b p o.rank idle else pure b
      | _ => pure b
    let v ← if idle then pure b else StateT.lift (o.apply a b)
    match (← get).next with
    | .binary p => if p.rank < rank then climb n v p rank idle else pure v
    | _ => pure v

def operation : Nat → Token → Token → Bool → Evaluation Int64
  | 0, _, _, _ => throw (.expecting "primary")
  | n + 1, first, after, idle => do
    let a ← primary n first after idle
    match (← get).next with
    | .binary o => climb n a o weakestRank idle
    | _ => pure a

def conjunction : Nat → Token → Token → Bool → Evaluation Int64
  | 0, _, _, _ => throw (.expecting "primary")
  | n + 1, first, after, idle => do
    let a ← operation n first after idle
    if (← get).next != .both then pure a
    else
      let first ← scanNext
      let b ← conjunction n first (← scanNext) (idle || a == 0)
      pure (ofBool (a != 0 && b != 0))

def disjunction : Nat → Token → Token → Bool → Evaluation Int64
  | 0, _, _, _ => throw (.expecting "primary")
  | n + 1, first, after, idle => do
    let a ← conjunction n first after idle
    if (← get).next != .either then pure a
    else
      let first ← scanNext
      let b ← disjunction n first (← scanNext) (idle || a != 0)
      pure (ofBool (a != 0 || b != 0))

def choice : Nat → Token → Token → Bool → Evaluation Int64
  | 0, _, _, _ => throw (.expecting "primary")
  | n + 1, first, after, idle => do
    let a ← disjunction n first after idle
    if (← get).next != .question then pure a
    else
      let b ← assignment n (← scanNext) (idle || a == 0)
      if (← get).next != .colon then throw (.expecting "':'")
      let first ← scanNext
      let c ← choice n first (← scanNext) (idle || a != 0)
      pure (if a != 0 then b else c)

def assignment : Nat → Token → Bool → Evaluation Int64
  | 0, _, _ => throw (.expecting "primary")
  | n + 1, first, idle => do
    let after ← scanNext
    match first, after with
    | .name x, .assign o =>
      let v ← assignment n (← scanNext) idle
      if idle then pure v
      else match o with
        | none => change x v
        | some b =>
          let old ← lookUp x
          change x (← StateT.lift (b.apply old v))
    | _, _ => choice n first after idle

end

def evaluate (lookup : Chars → Option Chars) (isReadOnly : Chars → Bool) (cs : Chars) :
    Except Fault (Int64 × List (Chars × Int64)) :=
  let whole : Evaluation Int64 := do
    let v ← assignment (8 * cs.length + 16) (← scanNext) false
    if (← get).next != .ending then throw (.expecting "EOF")
    pure v
  (whole.run ⟨cs, .ending, lookup, isReadOnly, []⟩).map fun (v, p) => (v, p.changes.reverse)

def Fault.message (expression : Chars) (f : Fault) : Chars :=
  let inside := fun (what : Chars) =>
    str "arithmetic expression: " ++ what ++ str ": \"" ++ expression ++ ['"']
  match f with
  | .expecting what => inside (str "expecting " ++ str what)
  | .divisionByZero => inside (str "division by zero")
  | .notANumber text => str "Illegal number: " ++ text
  | .readOnly x => x ++ str ": is read only"
  | .overflow => []

def render (v : Int64) : Chars :=
  let n := v.toInt
  (if n < 0 then ['-'] else []) ++ Decimal.render n.natAbs

end TestBench.Script.Arithmetic
