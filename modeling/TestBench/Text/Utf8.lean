/-!
# Bytes and characters

UTF-8 as a machine that is fed one byte at a time. The machine never looks ahead, so cutting the
input into pieces changes nothing. A byte sequence that is no character is a flaw: the longest
beginning of a character, or else a single byte, and each flaw is one piece of its own.
-/
namespace TestBench

abbrev Bytes := List UInt8

namespace Utf8

/-- A character begun and not yet ended: the least and greatest byte that may follow, how many
bytes are owed, and the value so far. -/
structure Partial where
  low : Nat
  high : Nat
  owed : Nat
  value : Nat
deriving DecidableEq, Repr

/-- What a sequence of bytes is cut into: a character, or (as `none`) a flaw. -/
abbrev Piece := Option Char

def begin (b : Nat) : List Piece × Option Partial :=
  if b < 0x80 then ([some (Char.ofNat b)], none)
  else if b < 0xC2 then ([none], none)
  else if b < 0xE0 then ([], some ⟨0x80, 0xBF, 1, b - 0xC0⟩)
  else if b = 0xE0 then ([], some ⟨0xA0, 0xBF, 2, 0⟩)
  else if b = 0xED then ([], some ⟨0x80, 0x9F, 2, 0xD⟩)
  else if b < 0xF0 then ([], some ⟨0x80, 0xBF, 2, b - 0xE0⟩)
  else if b = 0xF0 then ([], some ⟨0x90, 0xBF, 3, 0⟩)
  else if b < 0xF4 then ([], some ⟨0x80, 0xBF, 3, b - 0xF0⟩)
  else if b = 0xF4 then ([], some ⟨0x80, 0x8F, 3, 4⟩)
  else ([none], none)

/-- One byte: the pieces it ends, and what is begun after it. -/
def step (s : Option Partial) (b : Nat) : List Piece × Option Partial :=
  match s with
  | none => begin b
  | some p =>
    if p.low ≤ b ∧ b ≤ p.high then
      let v := p.value * 64 + (b - 0x80)
      if p.owed = 1 then ([some (Char.ofNat v)], none)
      else ([], some ⟨0x80, 0xBF, p.owed - 1, v⟩)
    else (none :: (begin b).1, (begin b).2)

/-- The machine between bytes: the pieces seen, last first, and what is begun. -/
structure Decoder where
  seen : List Piece
  begun : Option Partial
deriving DecidableEq, Repr

def Decoder.start : Decoder := ⟨[], none⟩

def Decoder.feed (d : Decoder) (b : UInt8) : Decoder :=
  let r := step d.begun b.toNat
  ⟨r.1.reverse ++ d.seen, r.2⟩

/-- The end of the input turns a character that is not ended into a flaw. -/
def Decoder.finish (d : Decoder) : List Piece :=
  match d.begun with
  | none => d.seen.reverse
  | some _ => (none :: d.seen).reverse

def pieces (bs : Bytes) : List Piece := (bs.foldl Decoder.feed Decoder.start).finish

def replacement : Char := '\ufffd'

/-- Reads every byte sequence; each flaw becomes the replacement character. -/
def decodeLossy (bs : Bytes) : List Char := (pieces bs).map (·.getD replacement)

/-- Reads a byte sequence without a flaw. -/
def decode? (bs : Bytes) : Option (List Char) := (pieces bs).mapM id

def encodeNat (n : Nat) : List Nat :=
  if n < 0x80 then [n]
  else if n < 0x800 then [0xC0 + n / 0x40, 0x80 + n % 0x40]
  else if n < 0x10000 then [0xE0 + n / 0x1000, 0x80 + n / 0x40 % 0x40, 0x80 + n % 0x40]
  else [0xF0 + n / 0x40000, 0x80 + n / 0x1000 % 0x40, 0x80 + n / 0x40 % 0x40, 0x80 + n % 0x40]

def encodeChar (c : Char) : Bytes := (encodeNat c.toNat).map UInt8.ofNat

def encode (cs : List Char) : Bytes := cs.flatMap encodeChar

def text? (bs : Bytes) : Option String := (decode? bs).map String.ofList

def textLossy (bs : Bytes) : String := String.ofList (decodeLossy bs)

def ofText (s : String) : Bytes := encode s.toList

theorem encode_append (xs ys : List Char) : encode (xs ++ ys) = encode xs ++ encode ys :=
  List.flatMap_append

end Utf8
end TestBench
