import TestBench.Text.Utf8
import TestBench.Text.Split
/-!
# Paths

Paths as byte sequences: joining, components, ancestors, and the text that shows a path.
-/
namespace TestBench

abbrev Path := Bytes

namespace Path

def slash : UInt8 := 47
def dot : UInt8 := 46

def ofText (s : String) : Path := Utf8.ofText s

/-- A path in a message; bytes that are no character show as the replacement character. -/
def display (p : Path) : String := Utf8.textLossy p

def isAbsolute (p : Path) : Bool := p.head? == some slash

def endsInSlash (p : Path) : Bool := p.getLast? == some slash

/-- An absolute second path stands alone; otherwise one slash is put between the two unless the
first is empty or ends in one. -/
def join (base name : Path) : Path :=
  if isAbsolute name then name
  else if base.isEmpty || endsInSlash base then base ++ name
  else base ++ slash :: name

/-- The names between slashes, the empty ones left out. -/
def names (p : Path) : List Bytes := (Text.splitOn slash p).filter (!·.isEmpty)

def single : Bytes := [dot]
def double : Bytes := [dot, dot]

/-- The names that matter for the parent of a path: a dot counts only at the very front. -/
def components (p : Path) : List Bytes :=
  match names p with
  | [] => []
  | n :: ns =>
    let rest := ns.filter (· != single)
    if isAbsolute p && n == single then rest else n :: rest

def ofComponents (absolute : Bool) (cs : List Bytes) : Path :=
  (if absolute then [slash] else []) ++ Text.joinWith [slash] cs

def ancestorsFrom (absolute : Bool) : List Bytes → List Path
  | [] => []
  | _ :: rest => ofComponents absolute rest.reverse :: ancestorsFrom absolute rest

/-- The parent of a path, its parent, and so on. -/
def ancestors (p : Path) : List Path := ancestorsFrom (isAbsolute p) (components p).reverse

/-- The last name of a path, if the path does not end in a parent reference. -/
def fileName? (p : Path) : Option Bytes :=
  match (components p).getLast? with
  | some n => if n == double || n == single then none else some n
  | none => none

end Path
end TestBench
