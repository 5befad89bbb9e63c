import TestBench.Text.Chars
/-!
# The form of scripts

Words and commands as they are read. A word keeps its quotes as marks, since what is expanded between
two of them is neither split nor matched against names.
-/
namespace TestBench.Script

/-- What a parameter in braces does besides standing for its value. One that is cut short takes the
rest of its word with it. -/
inductive Modifier where
  | bad
  | plain
  | length
  | orDefault
  | orAssign
  | orFail
  | alternative
  | trim (front longest : Bool)
  | cut
deriving DecidableEq, Repr

inductive OpenAs where
  | input
  | output
  | clobber
  | append
  | both
deriving DecidableEq, Repr

mutual

/-- A part of a word. An escaped character stands for itself alone. -/
inductive Piece where
  | char (escaped : Bool) (c : Char)
  | mark
  | parameter (name : Chars) (m : Modifier) (orNull : Bool) (argument : List Piece)
  | substitution (body : Option Command)
  | arithmetic (expression : List Piece)

/-- A change of a descriptor. A document is named by its number, since it follows the command. -/
inductive Redirect where
  | file (fd : Nat) (how : OpenAs) (name : List Piece)
  | copy (fd : Nat) (input : Bool) (source : Option Nat)
  | copyOf (fd : Nat) (input : Bool) (source : List Piece)
  | document (fd : Nat) (number : Nat)

inductive Command where
  | simple (line : Nat) (assigned words : List (List Piece)) (redirects : List Redirect)
  | pipeline (stages : List Command) (background : Bool)
  | redirected (line : Nat) (body : Command) (redirects : List Redirect)
  | background (line : Nat) (body : Command) (redirects : List Redirect)
  | subshell (line : Nat) (body : Command) (redirects : List Redirect)
  | both (first second : Command)
  | either (first second : Command)
  | sequence (first second : Command)
  | negation (body : Command)
  | choice (test yes : Command) (no : Option Command)
  | loop (whileTrue : Bool) (test body : Command)
  | each (line : Nat) (name : Chars) (words : List (List Piece)) (body : Command)
  | select (line : Nat) (subject : List Piece) (arms : List (List (List Piece) × Option Command))
  | define (line : Nat) (name : Chars) (body : Command)

end

abbrev Word := List Piece

def isNameStart (c : Char) : Bool := c.isAlpha || c == '_'

def isNameChar (c : Char) : Bool := c.isAlphanum || c == '_'

def isName : Chars → Bool
  | [] => false
  | c :: r => isNameStart c && r.all isNameChar

def isSpecial (c : Char) : Bool := "@*#?-$!".toList.contains c

namespace Piece

def bare? : Piece → Option Char
  | .char false c => some c
  | _ => none

def char? : Piece → Option Char
  | .char _ c => some c
  | _ => none

end Piece

namespace Word

def bareText? (w : Word) : Option Chars := w.mapM Piece.bare?

def text (w : Word) : Chars := w.filterMap Piece.char?

/-- The name that is given a value by a word, if it is an assignment. -/
def assigned? (w : Word) : Option Chars :=
  let name := (w.map Piece.bare?).takeWhile fun c => c.any isNameChar
  let name := name.filterMap id
  if !isName name then none
  else match w.drop name.length with
    | .char false '=' :: _ => some name
    | _ => none

end Word
end TestBench.Script
