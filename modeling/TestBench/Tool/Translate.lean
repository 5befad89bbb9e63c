import TestBench.Tool.CharSet
import TestBench.Tool.Options
/-!
# Translating characters

Characters of one set become those of another, or are removed; runs of one character can be
squeezed.
-/
namespace TestBench.Tool.Translate

open Process

structure Style where
  complement : Bool
  delete : Bool
  squeeze : Bool
  truncate : Bool
deriving DecidableEq, Repr

def listLength (es : List SetElement) : Nat := es.foldl (fun n e => n + e.length) 0

def listChars (es : List SetElement) : Chars := es.flatMap SetElement.chars

def complementOf (cs : Chars) : Chars := CharSet.allBytes.filter (!cs.contains ·)

def fillOpen (length : Nat) (es : List SetElement) : List SetElement :=
  es.map fun e =>
    match e with
    | .repeated c 0 => .repeated c (length - listLength es)
    | e => e

/-- The characters of a set one by one; at the first of a class of one case the class is told. -/
def steps (es : List SetElement) : List (Char × Bool × Option Bool) :=
  es.flatMap fun e => (e.chars.mapIdx fun i c => (c, i == 0, if i == 0 then e.case? else none))

def skipElement : List (Char × Bool × Option Bool) → List (Char × Bool × Option Bool)
  | [] => []
  | t :: r => if t.2.1 then t :: r else skipElement r

/-- Pairs the characters of two sets; classes of one case are paired as wholes. The flag tells that
such a class of the second set meets no class of the first. -/
def pairs : Nat → List (Char × Bool × Option Bool) → List (Char × Bool × Option Bool) →
    List (Char × Char) × Bool
  | 0, _, _ => ([], false)
  | n + 1, (a, _, ca) :: as, (b, _, cb) :: bs =>
    match cb with
    | none =>
      let t := pairs n as bs
      ((a, b) :: t.1, t.2)
    | some high =>
      match ca with
      | none => ([], true)
      | some highFirst =>
        let whole := if highFirst == high then
            (if high then CharSet.upper else CharSet.lower).map fun c => (c, c)
          else if high then CharSet.lower.zip CharSet.upper
          else CharSet.upper.zip CharSet.lower
        let t := pairs n (skipElement as) (skipElement bs)
        (whole ++ t.1, t.2)
  | _, _, (_, _, some _) :: _ => ([], true)
  | _, _, _ => ([], false)

/-- The length of a set in which a class of one case counts for one, as far as such classes of both
sets meet. -/
def alignedLengths (first second : List SetElement) : Nat × Nat :=
  let meet := (second.filter fun e => e.case?.isSome).length
  (listLength first - meet * 25, listLength second - meet * 25)

def check (bad : Bool) (message : String) : Job Unit := if bad then die [str message] else pure ()

def prepare (s : Style) (first second : List SetElement) (domain : Nat) : Job (List SetElement) := do
  let second := if listLength second ≤ domain then fillOpen domain second else second
  check (second.any fun e => match e with
    | .equal _ => true
    | _ => false) "[=c=] expressions may not appear in string2 when translating"
  check (second.any fun e => e.isClass && e.case?.isNone)
    "when translating, the only character classes that may appear in\nstring2 are 'upper' and 'lower'"
  let bound := listLength first + listLength second + 1
  let cased := !s.complement && second.any SetElement.isClass
  check (cased && (pairs bound (steps first) (steps second)).2)
    "misaligned [:upper:] and/or [:lower:] construct"
  let (one, two) := if cased then alignedLengths first second else (domain, listLength second)
  let short := two < one && !s.truncate
  check (short && two = 0) "when not truncating set1, string2 must be non-empty"
  let last := second.getLast?
  check (short && last.any SetElement.isClass)
    "when translating with string1 longer than string2,\nthe latter string must not end with a character class"
  let second := if short then
      match last.bind fun e => e.chars.getLast? with
      | some c => second ++ [.repeated c (one - two)]
      | none => second
    else second
  let chars := listChars second
  let uniform := chars.all fun c => some c == chars.head?
  check (s.complement && first.any SetElement.isClass
      && !((listLength second = domain || short) && uniform))
    "when translating with complemented character classes,\nstring2 must map all characters in the domain to one"
  pure second

/-- What becomes of each character; later pairs count more. -/
def tableOf (ps : List (Char × Char)) : Array Char :=
  ps.foldl (fun t p => t.set! p.1.toNat p.2) CharSet.allBytes.toArray

def bufferSize : Nat := 8192

/-- Leaves one of each run of a character that is in a set. -/
def squeezed (inSet : Char → Bool) : Option Char → Chars → Chars → Chars × Option Char
  | last, done, [] => (done.reverse, last)
  | last, done, c :: r =>
    if last == some c && inSet c then squeezed inSet last done r
    else squeezed inSet (some c) (c :: done) r

def filter (edit : Chars → Chars) (squeeze : Option (Char → Bool)) : Nat → Option Char → Job Unit
  | 0, _ => pure ()
  | n + 1, last => do
    match ← call (.read 0 bufferSize) with
    | .error e => die [str "read error", reason e]
    | .ok [] => pure ()
    | .ok bs =>
      let edited := edit (Chars.ofBytes bs)
      let (out, last) := match squeeze with
        | none => (edited, none)
        | some inSet => squeezed inSet last [] edited
      match ← putBytes (Chars.toBytes out) with
      | some e => dieOfOutput [str "write error", reason e]
      | none => filter edit squeeze n last

def memberTable (cs : Chars) : Array Bool :=
  cs.foldl (fun t c => t.set! c.toNat true) (Array.replicate 256 false)

def inTable (t : Array Bool) (c : Char) : Bool := t.getD c.toNat false

def options : Options where
  short := "AcCdst".toList.map fun c => (c, .nothing)
  long := [("complement", .nothing, 'c'), ("delete", .nothing, 'd'),
    ("squeeze-repeats", .nothing, 's'), ("truncate-set1", .nothing, 't')] ++ Options.common
  inOrder := true

def setOption (s : Style) (letter : Char) (_ : Chars) : Job Style :=
  pure (match letter with
    | 'd' => { s with delete := true }
    | 's' => { s with squeeze := true }
    | 't' => { s with truncate := true }
    | 'A' => s
    | _ => { s with complement := true })

def checkOperands (s : Style) (words : List Chars) : Job Unit := do
  let least := if s.delete == s.squeeze then 2 else 1
  let most := if s.delete && !s.squeeze then 1 else 2
  match words with
  | [] => misuse [str "missing operand"]
  | words =>
    if words.length < least then
      warn [str "missing operand after ", Quote.plain (words.getLast?.getD [])]
      remark (str (if s.squeeze then
          "Two strings must be given when both deleting and squeezing repeats.\n"
        else "Two strings must be given when translating.\n"))
      hint
      finish (← get).failure
    if most < words.length then
      warn [str "extra operand ", Quote.plain ((words.drop most).head?.getD [])]
      if words.length = 2 then
        remark (str "Only one string may be given when deleting without squeezing repeats.\n")
      hint
      finish (← get).failure

def job (args : List Chars) : Job Unit := do
  let p := options.parse args
  let s ← eachOption p.met ⟨false, false, false, false⟩ setOption
  checkOperands s p.operands
  let first ← CharSet.parse (p.operands.head?.getD [])
  let second ← match p.operands.drop 1 with
    | w :: _ => do pure (some (← CharSet.parse w))
    | [] => pure none
  check (first.any SetElement.isOpen) "the [c*] repeat construct may not appear in string1"
  let members := if s.complement then complementOf (listChars first) else listChars first
  let inFirst := inTable (memberTable members)
  let remove := fun (cs : Chars) => cs.filter (!inFirst ·)
  match second with
  | none =>
    if s.delete then filter remove none stepBound none
    else filter id (some inFirst) stepBound none
  | some second =>
    check (1 < (second.filter SetElement.isOpen).length)
      "only one [c*] repeat construct may appear in string2"
    if s.delete then
      check (second.any SetElement.isOpen)
        "the [c*] construct may appear in string2 only when translating"
      filter remove (some (inTable (memberTable (listChars second)))) stepBound none
    else
      let domain := if s.complement then members.length else listLength first
      let second ← prepare s first second domain
      let ps := if s.complement then members.zip (listChars second)
        else (pairs (listLength first + listLength second + 1) (steps first) (steps second)).1
      let table := tableOf ps
      let edit := fun (cs : Chars) => cs.map fun c => table.getD c.toNat c
      let squeeze := if s.squeeze then some (inTable (memberTable (listChars second))) else none
      filter edit squeeze stepBound none

end TestBench.Tool.Translate
