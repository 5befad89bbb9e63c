import TestBench.Number.Integer
import TestBench.Number.Layout
import TestBench.Tool.Desk
/-!
# Formatted output

A format is copied, with its escapes and conversions replaced. It is used again as long as it takes
arguments and some are left.
-/
namespace TestBench.Tool.Printf

open Number

def escapeChar (c : Char) : Option Char :=
  match c with
  | '"' => some '"'
  | '\\' => some '\\'
  | 'a' => some '\x07'
  | 'b' => some '\x08'
  | 'e' => some '\x1b'
  | 'f' => some '\x0c'
  | 'n' => some '\n'
  | 'r' => some '\x0d'
  | 't' => some '\t'
  | 'v' => some '\x0b'
  | _ => none

/-- Halves of a pair, which are no characters. -/
def isForbiddenPoint (n : Nat) : Bool := 0xd800 ≤ n && n ≤ 0xdfff

def hexPadded (width : Nat) (upper : Bool) (n : Nat) : Chars :=
  let ds := Field.digitsIn 16 upper n
  List.replicate (width - ds.length) '0' ++ ds

/-- A character of some number, in a locale that has ASCII alone. -/
def point (n : Nat) : Chars :=
  if n < 128 then [Char.ofNat n]
  else if n < 0x10000 then '\\' :: 'u' :: hexPadded 4 true n
  else '\\' :: 'U' :: hexPadded 8 true n

/-- Writes what an escape stands for; answers with what follows it. In an argument the digits of a
number may have a zero before them. -/
def escape (inArgument : Bool) (cs : Chars) : Job Chars := do
  match cs with
  | [] =>
    put ['\\']
    pure []
  | 'x' :: r =>
    let ds := (r.take 2).takeWhile Text.isHex
    if ds.isEmpty then die [str "missing hexadecimal number in escape"]
    put [byteChar (Text.valueIn 16 ds)]
    pure (r.drop ds.length)
  | 'c' :: _ => finish 0
  | c :: r =>
    if Text.isOctal c then
      let digits := if inArgument && c == '0' then r else c :: r
      let ds := (digits.take 3).takeWhile Text.isOctal
      put [byteChar (Text.valueIn 8 ds)]
      pure (digits.drop ds.length)
    else if c == 'u' || c == 'U' then
      let width := if c == 'u' then 4 else 8
      let ds := (r.take width).takeWhile Text.isHex
      if ds.length < width then die [str "missing hexadecimal number in escape"]
      let n := Text.valueIn 16 ds
      if isForbiddenPoint n then
        die [str "invalid universal character name \\", [c], hexPadded width false n]
      put (point n)
      pure (r.drop width)
    else match escapeChar c with
      | some d =>
        put [d]
        pure r
      | none =>
        put ['\\', c]
        pure r

def escapes : Nat → Chars → Job Unit
  | 0, _ => pure ()
  | _, [] => pure ()
  | n + 1, '\\' :: r => do
    let rest ← escape true r
    escapes n rest
  | n + 1, cs => do
    let plain := cs.takeWhile (· != '\\')
    put plain
    escapes n (cs.drop plain.length)

def checkRead (whole rest : Chars) (any outOfRange : Bool) : Job Unit := do
  if outOfRange then complain [Quote.plain whole, reason .outOfRange]
  else if !rest.isEmpty then
    complain [Quote.plain whole,
      str (if any then ": value not completely converted" else ": expected a numeric value")]

/-- The number of the character after a quote; what follows it is ignored. -/
def quotedChar (cs : Chars) : Job (Option Nat) := do
  match cs with
  | q :: c :: r =>
    if q == '"' || q == '\'' then
      if !r.isEmpty then
        warn [str "warning: ", r,
          str ": character(s) following character constant have been ignored"]
      pure (some c.toNat)
    else pure none
  | _ => pure none

def greatestSigned : Nat := Nat.pow 2 63 - 1
def greatestNatural : Nat := Nat.pow 2 64 - 1

/-- An argument as a signed number, held within its range. -/
def signedArgument (cs : Chars) : Job Int := do
  match ← quotedChar cs with
  | some n => pure n
  | none =>
    match Number.Integer.take cs with
    | none =>
      checkRead cs cs false false
      pure 0
    | some (negative, n, rest) =>
      let bound := if negative then greatestSigned + 1 else greatestSigned
      checkRead cs rest true (bound < n)
      pure (Binary.signed negative (min n bound))

/-- An argument as a number without sign; a negative one goes round. -/
def naturalArgument (cs : Chars) : Job Nat := do
  match ← quotedChar cs with
  | some n => pure n
  | none =>
    match Number.Integer.take cs with
    | none =>
      checkRead cs cs false false
      pure 0
    | some (negative, n, rest) =>
      checkRead cs rest true (greatestNatural < n)
      pure (if greatestNatural < n then greatestNatural
        else if negative then (Nat.pow 2 64 - n) % Nat.pow 2 64 else n)

def binaryArgument (cs : Chars) : Job Binary := do
  match ← quotedChar cs with
  | some n => pure (.finite false n 0)
  | none =>
    match Reading.take? .extended cs with
    | none =>
      checkRead cs cs false false
      pure .zero
    | some r =>
      checkRead cs r.rest true r.fitted.outOfRange
      pure r.fitted.value

structure Flags where
  field : Field
  allowed : Chars

def Flags.start : Flags := ⟨.plain, "aAcdeEfFgGiosuxX".toList⟩

def Flags.without (f : Flags) (cs : String) : Flags :=
  { f with allowed := f.allowed.filter (!cs.toList.contains ·) }

def Flags.add (f : Flags) : Char → Flags
  | '-' => { f with field := { f.field with left := true } }
  | '+' => { f with field := { f.field with plus := true } }
  | ' ' => { f with field := { f.field with space := true } }
  | '#' => { f with field := { f.field with alternate := true } }.without "cdisu"
  | '0' => { f with field := { f.field with zero := true } }.without "cs"
  | _ => f.without "aAceEosxX"

def isFlag (c : Char) : Bool := "-+ #0'I".toList.contains c

/-- A width or precision: digits, or a star that takes an argument. -/
def measure (cs : Chars) (args : List Chars) : Job (Option (Option Chars × Int) × Chars × List Chars) :=
  match cs, args with
  | '*' :: r, [] => pure (some (none, 0), r, [])
  | '*' :: r, a :: args => do pure (some (some a, ← signedArgument a), r, args)
  | cs, args =>
    let ds := cs.takeWhile Char.isDigit
    let n : Int := Text.valueIn 10 ds
    pure (if ds.isEmpty then none else some (none, n), cs.drop ds.length, args)

def greatestWidth : Int := 2147483647

def convert (f : Field) (conversion : Char) (a : Chars) : Job Unit := do
  match conversion with
  | 'd' | 'i' => put (f.integer (← signedArgument a))
  | 'o' => put (f.natural 8 false (← naturalArgument a))
  | 'u' => put ({ f with alternate := false }.natural 10 false (← naturalArgument a))
  | 'x' => put (f.natural 16 false (← naturalArgument a))
  | 'X' => put (f.natural 16 true (← naturalArgument a))
  | 'c' => put (f.fill false [] [a.head?.getD '\x00'])
  | 's' => put (f.text a)
  | c => put (f.binary .extended c (← binaryArgument a))

def conversion (cs : Chars) (args : List Chars) : Job (Chars × List Chars) := do
  match cs with
  | '%' :: r =>
    put ['%']
    pure (r, args)
  | 'b' :: r =>
    match args with
    | [] => pure (r, [])
    | a :: args =>
      escapes (a.length + 1) a
      pure (r, args)
  | 'q' :: r =>
    match args with
    | [] => pure (r, [])
    | a :: args =>
      put (Quote.ifNeeded a)
      pure (r, args)
  | cs =>
    let marks := cs.takeWhile isFlag
    let flags := marks.foldl Flags.add Flags.start
    let (width, r, args) ← measure (cs.drop marks.length) args
    let field ← match width with
      | none => pure flags.field
      | some (given, n) =>
        if n < -greatestWidth - 1 || greatestWidth < n then
          die [str "invalid field width: ", Quote.plain (given.getD [])]
        else pure { flags.field with width := n.natAbs, left := flags.field.left || n < 0 }
    let (field, flags, r, args) ← match r with
      | '.' :: r =>
        let (precision, r, args) ← measure r args
        let flags := flags.without "c"
        match precision with
        | none => pure ({ field with precision := some 0 }, flags, r, args)
        | some (given, n) =>
          if greatestWidth < n then
            die [str "invalid precision: ", Quote.plain (given.getD [])]
          else if n < 0 then pure (field, flags, r, args)
          else pure ({ field with precision := some n.toNat }, flags, r, args)
      | r => pure (field, flags, r, args)
    let rest := r.dropWhile "lLhjtz".toList.contains
    match rest with
    | c :: after =>
      if flags.allowed.contains c then
        convert field c (args.head?.getD [])
        pure (after, args.drop 1)
      else
        die [['%'], cs.take (cs.length - after.length), str ": invalid conversion specification"]
    | [] => die [['%'], cs, str ": invalid conversion specification"]

/-- Goes through the format once; answers with the arguments left. -/
def pass : Nat → Chars → List Chars → Job (List Chars)
  | 0, _, args => pure args
  | _, [], args => pure args
  | n + 1, '%' :: r, args => do
    let (rest, args) ← conversion r args
    pass n rest args
  | n + 1, '\\' :: r, args => do
    let rest ← escape false r
    pass n rest args
  | n + 1, cs, args => do
    let plain := cs.takeWhile fun c => c != '%' && c != '\\'
    put plain
    pass n (cs.drop plain.length) args

/-- Goes through the format as long as it takes arguments. -/
def passes (format : Chars) : Nat → List Chars → Job Unit
  | 0, _ => pure ()
  | n + 1, args => do
    let left ← pass (format.length + 1) format args
    if left.isEmpty then pure ()
    else if left.length < args.length then passes format n left
    else warn [str "warning: ignoring excess arguments, starting with ", Quote.plain (left.head?.getD [])]

def job (args : List Chars) : Job Unit := do
  let onlyHelp := args.length = 1 && (args.contains (str "--help") || args.contains (str "--version"))
  if onlyHelp then finish 0
  match if args.head? == some ['-', '-'] then args.drop 1 else args with
  | [] => misuse [str "missing operand"]
  | format :: args => passes format (args.length + 1) args

end TestBench.Tool.Printf
