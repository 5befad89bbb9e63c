import TestBench.Text.Utf8
/-!
# Text without terminal controls

What is left of a text when everything is taken out that a terminal obeys rather than shows: control
characters apart from white space, and the sequences that an escape character begins. A sequence
ends as a terminal would end it, and one that does not end takes the rest of the text with it.
-/
namespace TestBench.Terminal

/-- Where a terminal stands in its input. `character` is inside a character of several bytes, with
the number of bytes still to come. -/
inductive State where
  | ground
  | character (owed : Nat)
  | escape
  | escapeMiddle
  | controlEntry
  | controlParameter
  | controlMiddle
  | controlIgnored
  | deviceEntry
  | deviceParameter
  | deviceMiddle
  | deviceIgnored
  | deviceText
  | command
  | message
deriving DecidableEq, Repr

def isControl (b : Nat) : Bool := b < 0x20 && b != 0x18 && b != 0x1A && b != 0x1B

/-- White space that is shown wherever controls are carried out. -/
def isShownControl (b : Nat) : Bool := b == 9 || b == 10 || b == 12 || b == 13

def within (low high b : Nat) : Bool := low ≤ b && b ≤ high

def characterLength (b : Nat) : Nat :=
  if within 0xC2 0xDF b then 2 else if within 0xE0 0xEF b then 3 else if within 0xF0 0xF4 b then 4
  else 0

/-- What a state does with a byte that does not interrupt it: the state after it, and whether the
byte is shown. -/
def obey (s : State) (b : Nat) : State × Bool :=
  match s with
  | .ground =>
    if isControl b then (.ground, isShownControl b)
    else if b < 0x7F then (.ground, true)
    else if characterLength b != 0 then (.character (characterLength b), true)
    else (.ground, false)
  | .character n => (.character n, true)
  | .escape =>
    if isControl b then (.escape, isShownControl b)
    else if within 0x20 0x2F b then (.escapeMiddle, false)
    else if b = 0x50 then (.deviceEntry, false)
    else if b = 0x5B then (.controlEntry, false)
    else if b = 0x5D then (.command, false)
    else if b = 0x58 || b = 0x5E || b = 0x5F then (.message, false)
    else if within 0x30 0x7E b then (.ground, false)
    else (.escape, false)
  | .escapeMiddle =>
    if isControl b then (.escapeMiddle, isShownControl b)
    else (if within 0x30 0x7E b then .ground else .escapeMiddle, false)
  | .controlEntry | .controlParameter =>
    if isControl b then (s, isShownControl b)
    else if within 0x20 0x2F b then (.controlMiddle, false)
    else if within 0x30 0x3B b then (.controlParameter, false)
    else if within 0x3C 0x3F b then
      (if s = .controlEntry then .controlParameter else .controlIgnored, false)
    else (if within 0x40 0x7E b then .ground else s, false)
  | .controlMiddle =>
    if isControl b then (s, isShownControl b)
    else if within 0x30 0x3F b then (.controlIgnored, false)
    else (if within 0x40 0x7E b then .ground else s, false)
  | .controlIgnored =>
    if isControl b then (s, isShownControl b)
    else (if within 0x40 0x7E b then .ground else s, false)
  | .deviceEntry | .deviceParameter =>
    if within 0x20 0x2F b then (.deviceMiddle, false)
    else if within 0x30 0x39 b || b = 0x3B then (.deviceParameter, false)
    else if within 0x3A 0x3F b then
      (if s = .deviceEntry && b != 0x3A then .deviceParameter else .deviceIgnored, false)
    else (if within 0x40 0x7E b then .deviceText else s, false)
  | .deviceMiddle =>
    if within 0x30 0x3F b then (.deviceIgnored, false)
    else (if within 0x40 0x7E b then .deviceText else s, false)
  | .deviceIgnored | .deviceText | .message => (if b = 0x9C then .ground else s, false)
  | .command => (if b = 0x07 then .ground else .command, false)

/-- One byte in a state: an escape character or a cancellation interrupts any sequence. -/
def transition (s : State) (b : Nat) : State × Bool :=
  match s with
  | .character n => (.character n, true)
  | s =>
    if b = 0x1B then (.escape, false)
    else if b = 0x18 || b = 0x1A then (.ground, false)
    else obey s b

/-- Skips to the next byte that is shown, or shows bytes up to the next one that is not. While
bytes are shown the state before them is kept, and it goes on from there. -/
structure Filter where
  showing : Bool
  state : State
  shown : Bytes
deriving DecidableEq, Repr

namespace Filter

def emit (f : Filter) (b : UInt8) : Filter := { f with showing := true, shown := b :: f.shown }

def skip (f : Filter) (b : UInt8) : Filter :=
  let t := transition f.state b.toNat
  match t.1, t.2 with
  | .character n, true => { f with state := .character (n - 1) }.emit b
  | s, true => { f with state := s }.emit b
  | s, false => { f with showing := false, state := s }

def feed (f : Filter) (b : UInt8) : Filter :=
  match f.showing, f.state with
  | _, .character n => { f with state := if n ≤ 1 then .ground else .character (n - 1) }.emit b
  | false, _ => f.skip b
  | true, s =>
    let t := transition .ground b.toNat
    match t.1, t.2 with
    | .character n, true => { f with state := .character (n - 1) }.emit b
    | _, true => f.emit b
    | .escape, false => { f with state := .escape }.skip b
    | _, false => (if b = 0x18 || b = 0x1A then { f with state := .ground } else { f with state := s }).skip b

end Filter

def visibleBytes (bs : Bytes) : Bytes := (bs.foldl Filter.feed ⟨false, .ground, []⟩).shown.reverse

def visible (s : String) : String := Utf8.textLossy (visibleBytes (Utf8.ofText s))

end TestBench.Terminal
