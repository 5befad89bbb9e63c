import TestBench.Script.Variable
/-!
# Conditions

The expressions of the testing command: properties of files and texts, comparisons, and what is
made of them. Up to four words are read by their number alone.
-/
namespace TestBench.Script.Condition

open Process Run

inductive Kind where
  | unary
  | binary
  | not
  | and
  | or
  | opening
  | closing
deriving DecidableEq, Repr

def kind? (w : Chars) : Option Kind :=
  let s := String.ofList w
  if ["-r", "-w", "-x", "-e", "-f", "-d", "-c", "-b", "-p", "-u", "-g", "-k", "-s", "-t", "-z", "-n",
      "-h", "-O", "-G", "-L", "-S"].contains s then some .unary
  else if ["=", "!=", "<", ">", "-eq", "-ne", "-gt", "-ge", "-lt", "-le", "-nt", "-ot", "-ef"].contains s
    then some .binary
  else match s with
    | "!" => some .not
    | "-a" => some .and
    | "-o" => some .or
    | "(" => some .opening
    | ")" => some .closing
    | _ => none

/-- What the next word is: the end, an operand, or an operator. -/
inductive Next where
  | ending
  | operand
  | operator (k : Kind)
deriving DecidableEq, Repr

def isOperand (following : List Chars) : Bool :=
  match following with
  | [] => true
  | [_] => false
  | w :: _ => kind? w = some .binary

def next : List Chars → Next
  | [] => .ending
  | w :: r =>
    match kind? w with
    | none => .operand
    | some .unary => if isOperand r then .operand else .operator .unary
    | some .opening => if r.isEmpty then .operand else .operator .opening
    | some k => .operator k

def fault {α : Type} (word : Chars) (message : String) : Run α :=
  fail ((if word.isEmpty then [] else word ++ str ": ") ++ str message)

def facts (cs : Chars) (links : Bool) : Run (Option Facts) := do
  match ← call (.inspect (Chars.toBytes cs) links) with
  | .ok f => pure (some f)
  | .error _ => pure none

def property (op : Chars) (cs : Chars) : Run Bool := do
  let holds := fun (test : Facts → Bool) => do pure ((← facts cs true).any test)
  match String.ofList op with
  | "-z" => pure cs.isEmpty
  | "-n" => pure (!cs.isEmpty)
  | "-t" =>
    let _ ← integer cs
    pure false
  | "-f" => holds (·.kind = .file)
  | "-d" => holds (·.kind = .directory)
  | "-c" => holds (·.kind = .device)
  | "-p" => holds (·.kind = .pipe)
  | "-s" => holds (0 < ·.size)
  | "-x" => holds (·.executable)
  | "-h" | "-L" => pure ((← facts cs false).any (·.kind = .link))
  | "-b" | "-u" | "-g" | "-k" | "-S" => pure false
  | _ => holds fun _ => true

def comparison (a op b : Chars) : Run Bool := do
  let numbers := fun (test : Int → Int → Bool) => do
    let x ← integer a
    let y ← integer b
    pure (test x y)
  let files := fun (test : Facts → Facts → Bool) => do
    match ← facts a true, ← facts b true with
    | some f, some g => pure (test f g)
    | _, _ => pure false
  match String.ofList op with
  | "=" => pure (a == b)
  | "!=" => pure (a != b)
  | "<" => pure (Variable.before a b && a != b)
  | ">" => pure (Variable.before b a && a != b)
  | "-eq" => numbers (· == ·)
  | "-ne" => numbers (· != ·)
  | "-gt" => numbers fun x y => y < x
  | "-ge" => numbers fun x y => y ≤ x
  | "-lt" => numbers fun x y => x < y
  | "-le" => numbers fun x y => x ≤ y
  | "-nt" => files fun f g => g.modified < f.modified
  | "-ot" => files fun f g => f.modified < g.modified
  | _ => files fun f g => f.identity = g.identity

mutual

/-- Each of these takes the words from one on and answers with those from its last on. -/
def disjunction : Nat → Next → List Chars → Run (Bool × List Chars)
  | 0, _, ws => pure (false, ws)
  | n + 1, first, ws => do
    let (a, ws) ← conjunction n first ws
    if next (ws.drop 1) = .operator .or then
      let ws := ws.drop 2
      let (b, ws) ← disjunction n (next ws) ws
      pure (a || b, ws)
    else pure (a, ws)

def conjunction : Nat → Next → List Chars → Run (Bool × List Chars)
  | 0, _, ws => pure (false, ws)
  | n + 1, first, ws => do
    let (a, ws) ← negation n first ws
    if next (ws.drop 1) = .operator .and then
      let ws := ws.drop 2
      let (b, ws) ← conjunction n (next ws) ws
      pure (a && b, ws)
    else pure (a, ws)

def negation : Nat → Next → List Chars → Run (Bool × List Chars)
  | 0, _, ws => pure (false, ws)
  | n + 1, first, ws => do
    if first = .operator .not then
      let second := next (ws.drop 1)
      let ws := if second = .ending then ws else ws.drop 1
      let (a, ws) ← negation n second ws
      pure (!a, ws)
    else primary n first ws

def primary : Nat → Next → List Chars → Run (Bool × List Chars)
  | 0, _, ws => pure (false, ws)
  | n + 1, first, ws => do
    match first with
    | .ending => pure (false, ws)
    | .operator .opening =>
      let ws := ws.drop 1
      let second := next ws
      if second = .operator .closing then pure (false, ws)
      else
        let (a, ws) ← disjunction n second ws
        let ws := ws.drop 1
        if next ws != .operator .closing then fault [] "closing paren expected"
        pure (a, ws)
    | .operator .unary =>
      match ws with
      | op :: a :: r => pure (← property op a, a :: r)
      | op :: _ => fault op "argument expected"
      | [] => pure (false, ws)
    | _ =>
      if next (ws.drop 1) = .operator .binary then
        match ws with
        | a :: op :: b :: r => pure (← comparison a op b, b :: r)
        | _ :: op :: _ => fault op "argument expected"
        | _ => pure (false, ws)
      else pure (!(ws.head?.getD []).isEmpty, ws)

end

def evaluate (first : Next) (ws : List Chars) : Run Bool := do
  let (a, ws) ← disjunction (8 * ws.length + 16) first ws
  match ws with
  | w :: _ :: _ => fault w "unexpected operator"
  | _ => pure a

/-- Reads few words by their number: a comparison, a group, a negation. Negations of this kind count
as one. -/
def judge : Nat → Bool → List Chars → Run Bool
  | 0, _, _ => pure false
  | _, _, [] => pure false
  | n + 1, negated, ws => do
    let few := ws.length = 3 || ws.length = 4
    let compares := ws.length = 3 && ((ws[1]?.bind kind?) = some .binary)
    let signed := fun (r : Run Bool) => do pure ((← r) != negated)
    if compares then signed (evaluate .operand ws)
    else if few && ws.head? = some ['('] && ws.getLast? = some [')'] then
      let inside := (ws.drop 1).dropLast
      signed (evaluate (next inside) inside)
    else if few && ws.head? = some ['!'] then judge n true (ws.drop 1)
    else signed (evaluate (next ws) ws)

def test (name : String) (words : List Chars) : Run Int := do
  let ws ← if name = "[" then
      if (words.getLast?.getD []).head? = some ']' then pure words.dropLast else failText "missing ]"
    else pure words
  pure (if ← judge (ws.length + 1) false ws then 0 else 1)

end TestBench.Script.Condition
