import TestBench.Text.Utf8
/-!
# Text made of bytes

A sequence of bytes read as text: each byte is the character of that number, so no byte is lost.
-/
namespace TestBench

/-- Text in which each character stands for one byte. -/
abbrev Chars := List Char

namespace Chars

def ofBytes (bs : Bytes) : Chars := bs.map fun b => Char.ofNat b.toNat

def toBytes (cs : Chars) : Bytes := cs.map fun c => UInt8.ofNat c.toNat

def ofText (s : String) : Chars := ofBytes (Utf8.ofText s)

end Chars

def str (s : String) : Chars := Chars.ofText s

def byteChar (n : Nat) : Char := Char.ofNat (n % 256)

namespace Text

def isOctal (c : Char) : Bool := '0' ≤ c && c ≤ '7'

def hexValue? (c : Char) : Option Nat :=
  if c.isDigit then some (c.toNat - 48)
  else if 'a' ≤ c && c ≤ 'f' then some (c.toNat - 87)
  else if 'A' ≤ c && c ≤ 'F' then some (c.toNat - 55)
  else none

def isHex (c : Char) : Bool := (hexValue? c).isSome

def valueIn (base : Nat) (cs : Chars) : Nat :=
  cs.foldl (fun v c => v * base + (hexValue? c).getD 0) 0

def isBlankByte (c : Char) : Bool := c == ' ' || ('\x09' ≤ c && c ≤ '\x0d')

def isPrintable (c : Char) : Bool := ' ' ≤ c && c ≤ '~'

end Text
end TestBench
