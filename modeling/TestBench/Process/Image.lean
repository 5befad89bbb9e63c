import TestBench.Process.World
import TestBench.Text.Space
/-!
# Executing programs

A path leads to one of the bench's own programs or to a script, whose first line names the program
that reads it; that may be a script again. A program named without a slash is searched for in a list
of directories.
-/
namespace TestBench.Process

inductive Image where
  | program (name : String)
  | script (content : Bytes)
deriving DecidableEq, Repr

namespace Image

def find (fs : FileSystem) (p : Path) : Except Errno Image :=
  match fs.stat p with
  | .ok (.program name) => .ok (.program name)
  | .ok (.file id true) => .ok (.script (fs.content id))
  | .ok _ => .error .denied
  | .error (.system e) => .error e
  | .error _ => .error .noEntry

/-- As much of a script as is looked at. -/
def headLength : Nat := 256

def isBlank (b : UInt8) : Bool := b == 32 || b == 9

def isTerminator (b : UInt8) : Bool := isBlank b || b == 0

/-- The text after the mark of a script, without trailing blanks. A first line that does not end
within the head has to show where the name of the interpreter ends. -/
def markedLine (content : Bytes) : Option Bytes :=
  let head := content.take headLength
  let padded := head ++ List.replicate (headLength - head.length) 0
  match padded with
  | 35 :: 33 :: r =>
    let line := r.takeWhile fun b => b != 10 && b != 0
    let whole := (r.drop line.length).head? == some 10
    if whole then some (Text.dropEnd isBlank line)
    else if ((r.dropWhile isBlank).any isTerminator) then
      some (Text.dropEnd isBlank (r.take (headLength - 3)))
    else none
  | _ => none

/-- The interpreter of a script and the one argument that it may be given. -/
def interpreter (content : Bytes) : Option (Path × Option Bytes) :=
  match (markedLine content).map (·.dropWhile isBlank) with
  | none => none
  | some [] => none
  | some line =>
    let name := line.takeWhile (!isTerminator ·)
    match line.drop name.length with
    | b :: r =>
      if b = 0 then some (name, none)
      else some (name, some ((r.dropWhile isBlank).takeWhile (· != 0)))
    | [] => some (name, none)

/-- How many scripts may interpret one another. -/
def mostScripts : Nat := 5

def resolve (fs : FileSystem) : Nat → Path → Image → List Bytes → Except Errno (String × List Bytes)
  | _, _, .program name, args => .ok (name, args)
  | n, p, .script content, args =>
    match interpreter content with
    | none => .error .execFormat
    | some (name, option) =>
      match if name.isEmpty then .error .denied else find fs name with
      | .error e => .error e
      | .ok image =>
        match n with
        | 0 => .error .tooManyLinks
        | n + 1 => resolve fs n name image (name :: option.toList ++ p :: args.drop 1)

/-- The longest argument that a program can be given, with its end mark. -/
def longestArgument : Nat := 131072

/-- What arguments and environment may take up together. -/
def mostArguments : Nat := 2097152

def tooLong (p : Path) (args env : List Bytes) : Bool :=
  let all := args ++ env
  all.any (fun a => longestArgument ≤ a.length)
    || mostArguments < all.foldl (fun n a => n + a.length + 9) (p.length + 1)

def ofPath (fs : FileSystem) (p : Path) (args env : List Bytes) :
    Except Errno (String × List Bytes) :=
  match find fs p with
  | .error e => .error e
  | .ok image =>
    if tooLong p args env then .error .argumentsTooLong else resolve fs mostScripts p image args

def colon : UInt8 := 58

def standardSearch : Bytes := Path.ofText "/bin:/usr/bin"

/-- The path of a name in a directory of a search list; an empty directory is the own one. -/
def inDirectory (dir name : Bytes) : Path := if dir.isEmpty then name else dir ++ Path.slash :: name

/-- Tries the directories in order. What may not be executed is passed over, but then the search
ends with that error and not with a missing file. -/
def searchIn {α : Type} (attempt : Path → Except Errno α) (name : Bytes) (denied : Bool) :
    List Bytes → Except Errno α
  | [] => .error (if denied then .denied else .noEntry)
  | dir :: dirs =>
    match attempt (inDirectory dir name) with
    | .ok a => .ok a
    | .error .denied => searchIn attempt name true dirs
    | .error .noEntry | .error .notDirectory => searchIn attempt name denied dirs
    | .error e => .error e

/-- Executes a program by its name; one with a slash is a path. -/
def search {α : Type} (attempt : Path → Except Errno α) (list : Option Bytes) (name : Bytes) :
    Except Errno α :=
  if name.isEmpty then .error .noEntry
  else if name.contains Path.slash then attempt name
  else if FileSystem.longestName < name.length then .error .nameTooLong
  else searchIn attempt name false (Text.splitOn colon (list.getD standardSearch))

end Image

/-- Puts another program in the place of a process. What it had arranged for signals is forgotten,
except that it ignores some. -/
def World.execute (w : World) (t : Task) (p : Path) (args env : List Bytes) : Except Errno World :=
  match Image.ofPath (w.filesOf t) p args env with
  | .error e => .error e
  | .ok (name, args) =>
    match w.images name args env with
    | none => .error .execFormat
    | some program =>
      .ok (w.putTask { t with slots := t.slots.filter (·.kept), caught := [], arrived := [],
                              program := program }).sweep

end TestBench.Process
