import TestBench.Script.Token
/-!
# The text of a script while it is read

What is left to read, the line that has been reached, the aliases whose text is being read, the
document that is being read, and the last token, which can be taken back. Where the text ends too
early, more of it may follow.
-/
namespace TestBench.Script

/-- A document that a command asks for, until its text has been read. -/
structure Awaited where
  number : Nat
  delimiter : Chars
  literal : Bool
  strip : Bool
deriving DecidableEq, Repr

/-- An alias whose text is being read: it ends where so much is left, with a blank or not. -/
structure Unfolding where
  name : Chars
  left : Nat
  blank : Bool
deriving DecidableEq, Repr

structure Looks where
  lines : Bool
  reserved : Bool
  aliases : Bool
  delimiter : Bool
deriving DecidableEq, Repr

namespace Looks

def nothing : Looks := ⟨false, false, false, false⟩
def forAlias : Looks := ⟨false, false, true, false⟩
def forCommand : Looks := ⟨false, true, true, false⟩
def forNext : Looks := ⟨true, true, true, false⟩
def forPattern : Looks := ⟨true, true, false, false⟩
def forDelimiter : Looks := ⟨false, false, false, true⟩

end Looks

structure Source where
  rest : Chars
  left : Nat
  line : Nat
  complete : Bool
  unfolding : List Unfolding
  aliases : List (Chars × Chars)
  looks : Looks
  token : Token
  again : Bool
  word : Word
  hasQuotes : Bool
  redirect : Redirect
  awaited : List Awaited
  inside : Option Awaited
  documents : List (Nat × Word)
  fresh : Nat

/-- Why reading stops: more text is needed, or it cannot be a script. What has not been read by then
is counted. -/
inductive Trouble where
  | more
  | wrong (line left : Nat) (message : Chars)

abbrev Reading := StateT Source (Except Trouble)

namespace Source

def ofText (text : Chars) (line : Nat) (complete : Bool) (aliases : List (Chars × Chars))
    (documents : List (Nat × Word)) (fresh : Nat) : Source where
  rest := text
  left := text.length
  line := line
  complete := complete
  unfolding := []
  aliases := aliases
  looks := .nothing
  token := .newline
  again := false
  word := []
  hasQuotes := false
  redirect := .copy 0 true none
  awaited := []
  inside := none
  documents := documents
  fresh := fresh

/-- Ends the aliases whose text has been read. One that ends in a blank lets the next word be an
alias too. -/
def foldBack (s : Source) : Source :=
  s.unfolding.foldl (fun s u =>
    if s.left ≤ u.left then
      { s with
        unfolding := s.unfolding.drop 1
        looks := if u.blank then { s.looks with aliases := true } else s.looks }
    else s) s

end Source

namespace Reading

def wrong {α : Type} (message : Chars) : Reading α := do
  let s ← get
  throw (.wrong s.line s.left message)

def peek : Reading (Option Char) := do
  let s ← get
  let s := if s.unfolding.isEmpty then s else s.foldBack
  set s
  match s.rest with
  | c :: _ => pure (some c)
  | [] => if s.complete then pure none else throw .more

def skip : Reading Unit :=
  modify fun s =>
    match s.rest with
    | [] => s
    | c :: r => { s with rest := r, left := s.left - 1, line := if c == '\n' then s.line + 1 else s.line }

/-- Skips a character without counting its line. -/
def swallow : Reading Unit := do
  let line := (← get).line
  skip
  modify fun s => { s with line := line }

def next : Reading (Option Char) := do
  let c ← peek
  skip
  pure c

/-- The next character after line ends that are escaped. -/
def peekJoined : Nat → Reading (Option Char)
  | 0 => peek
  | n + 1 => do
    match ← peek with
    | some '\\' =>
      match (← get).rest with
      | _ :: '\n' :: _ =>
        skip
        skip
        peekJoined n
      | [_] => if (← get).complete then pure (some '\\') else throw .more
      | _ => pure (some '\\')
    | c => pure c

def joinedBound : Nat := 1000000

def look : Reading (Option Char) := peekJoined joinedBound

def take : Reading (Option Char) := do
  let c ← look
  skip
  pure c

def accept (c : Char) : Reading Bool := do
  if (← look) == some c then
    skip
    pure true
  else pure false

/-- Puts the text of an alias in front. -/
def unfold (name value : Chars) : Reading Unit :=
  modify fun s =>
    { s with
      rest := value ++ s.rest
      left := s.left + value.length
      unfolding :=
        ⟨name, s.left, value.getLast? == some ' ' || value.getLast? == some '\t'⟩ :: s.unfolding }

def setLooks (l : Looks) : Reading Unit := modify fun s => { s with looks := l }

end Reading
end TestBench.Script
