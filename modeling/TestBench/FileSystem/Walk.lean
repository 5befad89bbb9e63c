import TestBench.FileSystem.Basic
import TestBench.Text.Space
/-!
# Walking along a path

A path leads from the working directory or the root through directories and links to a place, at
which something may stand or not. At most forty links are followed on the way.
-/
namespace TestBench.FileSystem

/-- Where a path leads: a place, and what stands there. The directory above it is there. -/
structure Spot where
  location : Location
  entry : Option Entry
deriving DecidableEq, Repr

def longestName : Nat := 255
def longestPath : Nat := 4096
def mostLinks : Nat := 40

/-- What is wanted of the last name of a path: what it leads to through links, itself, or a file
that may have to be made. -/
inductive Aim where
  | follow
  | keep
  | make
deriving DecidableEq, Repr

/-- Walks on from a directory. A slash after the last name asks for a directory; a file that is to
be made cannot have one, and no look is taken at what stands there. -/
def walk (fs : FileSystem) (aim : Aim) (links : Nat) (dir : Location) (slashed : Bool)
    (todo : List Bytes) : Except Errno Spot :=
  match todo with
  | [] => .ok ⟨dir, fs.entry? dir⟩
  | name :: rest =>
    if name = Path.single then walk fs aim links dir slashed rest
    else if name = Path.double then walk fs aim links dir.dropLast slashed rest
    else if rest.isEmpty && slashed && aim = .make then .error .isDirectory
    else if longestName < name.length then .error .nameTooLong
    else
      let here := dir ++ [name]
      match fs.entry? here with
      | none => if rest.isEmpty then .ok ⟨here, none⟩ else .error .noEntry
      | some .directory => walk fs aim links here slashed rest
      | some (.link target) =>
        if rest.isEmpty && !slashed && aim = .keep then .ok ⟨here, some (.link target)⟩
        else if target.isEmpty then .error .noEntry
        else
          match links with
          | 0 => .error .tooManyLinks
          | n + 1 =>
            walk fs aim n (if Path.isAbsolute target then [] else dir)
              (slashed || (rest.isEmpty && Path.endsInSlash target)) (Path.names target ++ rest)
      | some e => if rest.isEmpty && !slashed then .ok ⟨here, some e⟩ else .error .notDirectory
termination_by (links, todo.length)

def locate (fs : FileSystem) (aim : Aim) (p : Path) : Except IoError Spot :=
  if p.contains 0 then .error .nulInPath
  else if p.isEmpty then .error (.system .noEntry)
  else if longestPath ≤ p.length then .error (.system .nameTooLong)
  else
    let start := if Path.isAbsolute p then [] else fs.workingDirectory
    match walk fs aim mostLinks start (Path.endsInSlash p) (Path.names p) with
    | .error e => .error (.system e)
    | .ok spot => .ok spot

/-- The spot of a path's own name: a final slash is left out, and a link is not followed. -/
def locateName (fs : FileSystem) (p : Path) : Except IoError Spot :=
  let named := Text.dropEnd (· == Path.slash) p
  if named.isEmpty && !p.isEmpty then .ok ⟨[], some .directory⟩ else fs.locate .keep named

/-- What stands at a path, links followed. -/
def stat (fs : FileSystem) (p : Path) : Except IoError Entry :=
  match fs.locate .follow p with
  | .error e => .error e
  | .ok spot =>
    match spot.entry with
    | some e => .ok e
    | none => .error (.system .noEntry)

def pathExists (fs : FileSystem) (p : Path) : Bool :=
  match fs.stat p with
  | .ok _ => true
  | .error _ => false

def isDirectory (fs : FileSystem) (p : Path) : Bool :=
  match fs.stat p with
  | .ok .directory => true
  | _ => false

def isFile (fs : FileSystem) (p : Path) : Bool :=
  match fs.stat p with
  | .ok (.file _ _) | .ok (.program _) => true
  | _ => false

end TestBench.FileSystem
