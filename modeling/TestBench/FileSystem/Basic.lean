import TestBench.IoError
import TestBench.Path
/-!
# The file system

What stands at each place below the root, and apart from it the contents of the files. A file is
named by a number, so that one that is open stays readable after its name is gone.
-/
namespace TestBench

/-- The names from the root down, with no link and no dots among them. -/
abbrev Location := List Bytes

inductive Device where
  | null
  | zero
  | full
  | terminal
deriving DecidableEq, Repr

inductive Entry where
  | directory
  | link (target : Bytes)
  | file (id : Nat) (executable : Bool)
  | device (d : Device)
  | program (name : String)
deriving DecidableEq, Repr

structure FileSystem where
  entries : List (Location × Entry)
  contents : List (Nat × Bytes)
  fresh : Nat
  workingDirectory : Location
deriving DecidableEq, Repr

namespace FileSystem

def entry? (fs : FileSystem) (l : Location) : Option Entry :=
  if l.isEmpty then some .directory else fs.entries.lookup l

def content (fs : FileSystem) (id : Nat) : Bytes := (fs.contents.lookup id).getD []

def put (fs : FileSystem) (l : Location) (e : Entry) : FileSystem :=
  { fs with entries := (l, e) :: fs.entries.filter (·.1 != l) }

def drop (fs : FileSystem) (l : Location) : FileSystem :=
  { fs with entries := fs.entries.filter (·.1 != l) }

/-- Removes everything below a place, and not the place itself. -/
def clear (fs : FileSystem) (l : Location) : FileSystem :=
  { fs with entries := fs.entries.filter fun t => !(l.isPrefixOf t.1 && l != t.1) }

def write (fs : FileSystem) (id : Nat) (bs : Bytes) : FileSystem :=
  { fs with contents := (id, bs) :: fs.contents.filter (·.1 != id) }

def append (fs : FileSystem) (id : Nat) (bs : Bytes) : FileSystem :=
  fs.write id (fs.content id ++ bs)

def create (fs : FileSystem) (l : Location) (executable : Bool) (bs : Bytes) : FileSystem :=
  let made := (fs.put l (.file fs.fresh executable)).write fs.fresh bs
  { made with fresh := fs.fresh + 1 }

/-- Why nothing can be made at a place, if so: some parts of the tree are made up by the system. -/
def refusal? (l : Location) (isDirectory : Bool) : Option Errno :=
  match l with
  | first :: _ :: _ =>
    if first = Utf8.ofText "proc" then some .noEntry
    else if first = Utf8.ofText "sys" then some (if isDirectory then .notPermitted else .denied)
    else none
  | _ => none

def children (fs : FileSystem) (l : Location) : List Bytes :=
  fs.entries.filterMap fun t =>
    if l.isPrefixOf t.1 && t.1.length == l.length + 1 then t.1.getLast? else none

end FileSystem
end TestBench
