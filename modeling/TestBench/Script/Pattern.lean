import TestBench.Text.Chars
/-!
# Patterns

Text matched against stars, question marks and sets of characters. A backslash takes the meaning
from the character after it.
-/
namespace TestBench.Script

inductive Member where
  | range (low high : Char)
  | named (name : Chars)
deriving DecidableEq, Repr

inductive Atom where
  | star
  | any
  | one (c : Char)
  | set (negated : Bool) (members : List Member)
deriving DecidableEq, Repr

namespace Atom

def isPunctuation (c : Char) : Bool := '!' ≤ c && c ≤ '~' && !c.isAlphanum

def classTest (name : Chars) : Option (Char → Bool) :=
  match String.ofList name with
  | "alpha" => some Char.isAlpha
  | "digit" => some Char.isDigit
  | "alnum" => some Char.isAlphanum
  | "upper" => some Char.isUpper
  | "lower" => some Char.isLower
  | "space" => some Text.isBlankByte
  | "blank" => some fun c => c == ' ' || c == '\t'
  | "punct" => some isPunctuation
  | "print" => some Text.isPrintable
  | "graph" => some fun c => '!' ≤ c && c ≤ '~'
  | "cntrl" => some fun c => c < ' ' || c == '\x7f'
  | "xdigit" => some Text.isHex
  | _ => none

/-- The order of bytes in a range: those beyond ASCII come first. -/
def rank (c : Char) : Nat := (c.toNat + 128) % 256

def holds (c : Char) : Member → Bool
  | .range low high => rank low ≤ rank c && rank c ≤ rank high
  | .named name => ((classTest name).map (· c)).getD false

def takes (c : Char) : Atom → Bool
  | .star => false
  | .any => true
  | .one d => c == d
  | .set negated members => members.any (holds c) != negated

inductive Next where
  | member (m : Member) (rest : Chars)
  | closed (rest : Chars)
  | unclosed

/-- A class in a set, after its bracket. -/
def className (cs : Chars) : Option (Chars × Chars) :=
  match cs with
  | ':' :: r =>
    let name := r.takeWhile Char.isLower
    match r.drop name.length with
    | ':' :: ']' :: rest => if (classTest name).isSome then some (name, rest) else none
    | _ => none
  | _ => none

/-- A member that begins with a character: the near end of a range or alone. -/
def plainMember (c : Char) (r : Chars) : Next :=
  match r with
  | '-' :: ']' :: _ => .member (.range c c) r
  | '-' :: '\\' :: d :: r => .member (.range c d) r
  | ['-'] | ['-', '\\'] => .unclosed
  | '-' :: d :: r => .member (.range c d) r
  | _ => .member (.range c c) r

def nextMember (first : Bool) (cs : Chars) : Next :=
  match cs with
  | [] | ['\\'] => .unclosed
  | '\\' :: c :: r => plainMember c r
  | '[' :: r =>
    match className r with
    | some (name, rest) => .member (.named name) rest
    | none => plainMember '[' r
  | c :: r => if c == ']' && !first then .closed r else plainMember c r

def members : Nat → Bool → List Member → Chars → Option (List Member × Chars)
  | 0, _, _, _ => none
  | n + 1, first, acc, cs =>
    match nextMember first cs with
    | .member m r => members n false (m :: acc) r
    | .closed r => some (acc.reverse, r)
    | .unclosed => none

/-- The places of a pattern. A bracket that is never closed stands for itself, and so does a
backslash at the end. -/
def read : Nat → Chars → List Atom
  | 0, _ => []
  | _, [] => []
  | _, ['\\'] => [.one '\\']
  | n + 1, '\\' :: c :: r => .one c :: read n r
  | n + 1, '*' :: r => .star :: read n r
  | n + 1, '?' :: r => .any :: read n r
  | n + 1, '[' :: r =>
    let negated := r.head? == some '!'
    let inside := if negated then r.drop 1 else r
    match members (inside.length + 1) true [] inside with
    | some (ms, rest) => .set negated ms :: read n rest
    | none => .one '[' :: read n r
  | n + 1, c :: r => .one c :: read n r

end Atom

abbrev Pattern := List Atom

namespace Pattern

def ofText (cs : Chars) : Pattern := Atom.read (cs.length + 1) cs

def suffixes : Chars → List Chars
  | [] => [[]]
  | c :: r => (c :: r) :: suffixes r

/-- What may be left of a text after one place more, from what may have been left before; the
longest rest comes first. -/
def step (rests : List Chars) (a : Atom) : List Chars :=
  match a with
  | .star =>
    match rests with
    | [] => []
    | longest :: _ => suffixes longest
  | a => rests.filterMap fun cs =>
    match cs with
    | [] => none
    | c :: r => if a.takes c then some r else none

def fits (p : Pattern) (cs : Chars) : Bool := (p.foldl step [cs]).any (·.isEmpty)

def untilZero (cs : Chars) : Chars := cs.takeWhile (· != '\x00')

/-- How many characters are left of a text whose front or back is taken away where it fits, shortest
or longest. -/
def trimmed (p : Pattern) (front longest : Bool) (cs : Chars) : Option Nat :=
  let all := cs.length
  let fromLeft := List.range ((untilZero cs).length + 1)
  let fromRight := (List.range (all + 1)).reverse
  if front then
    (if longest then fromRight else fromLeft).find? fun i => p.fits (untilZero (cs.take i))
  else
    (if longest then fromLeft else fromRight).find? fun i => p.fits (untilZero (cs.drop i))

end Pattern
end TestBench.Script
