import TestBench.FileSystem.Access
/-!
# Making and removing directories

Each operation answers with an error or nothing, and with the file system it leaves, since one that
fails half-way leaves the first half done.
-/
namespace TestBench.FileSystem

def makeDirectory (fs : FileSystem) (p : Path) : Except IoError FileSystem :=
  match fs.locateName p with
  | .error e => .error e
  | .ok spot =>
    match spot.entry with
    | some _ => .error (.system .exists)
    | none =>
      match refusal? spot.location true with
      | some e => .error (.system e)
      | none => .ok (fs.put spot.location .directory)

/-- A directory that could not be made for a reason other than a missing parent is no failure if
it is there. -/
def makeOrFind (fs : FileSystem) (p : Path) : Option IoError × FileSystem :=
  match fs.makeDirectory p with
  | .ok made => (none, made)
  | .error e => if fs.isDirectory p then (none, fs) else (some e, fs)

/-- Makes a directory; `parents` are its ancestors, nearest first. -/
def makeWithParents (fs : FileSystem) (p : Path) : List Path → Option IoError × FileSystem
  | [] =>
    if p.isEmpty then (none, fs) else makeOrFind fs p
  | q :: qs =>
    if p.isEmpty then (none, fs)
    else match fs.makeDirectory p with
      | .ok made => (none, made)
      | .error (.system .noEntry) =>
        match makeWithParents fs q qs with
        | (some e, left) => (some e, left)
        | (none, left) => makeOrFind left p
      | .error e => if fs.isDirectory p then (none, fs) else (some e, fs)

def makeDirectories (fs : FileSystem) (p : Path) : Option IoError × FileSystem :=
  fs.makeWithParents p (Path.ancestors p)

def removeDirectory (fs : FileSystem) (p : Path) : Except IoError FileSystem :=
  match fs.locateName p with
  | .error e => .error e
  | .ok spot =>
    match (Path.names p).getLast? with
    | none => .error (.system .busy)
    | some last =>
      if last = Path.single then .error (.system .invalid)
      else if last = Path.double then .error (.system .notEmpty)
      else match spot.entry with
        | none => .error (.system .noEntry)
        | some .directory =>
          if (fs.children spot.location).isEmpty then .ok (fs.drop spot.location)
          else .error (.system .notEmpty)
        | some _ => .error (.system .notDirectory)

/-- Removes what a path names: a link alone, a directory with all that is below it. A directory
that is gone when its own turn comes is no failure. -/
def removeAll (fs : FileSystem) (p : Path) : Option IoError × FileSystem :=
  match fs.locate .keep p with
  | .error e => (some e, fs)
  | .ok spot =>
    match spot.entry with
    | none => (some (.system .noEntry), fs)
    | some (.link _) => (none, fs.drop spot.location)
    | some .directory =>
      let emptied := fs.clear spot.location
      match emptied.removeDirectory p with
      | .ok left => (none, left)
      | .error (.system .noEntry) => (none, emptied)
      | .error e => (some e, emptied)
    | some _ => (some (.system .notDirectory), fs)

def removeFile (fs : FileSystem) (p : Path) : Except IoError FileSystem :=
  match fs.locateName p with
  | .error e => .error e
  | .ok spot =>
    match (Path.names p).getLast? with
    | none => .error (.system .isDirectory)
    | some last =>
      match spot.entry with
      | none => .error (.system .noEntry)
      | some .directory => .error (.system .isDirectory)
      | some _ =>
        if Path.endsInSlash p then .error (.system .notDirectory)
        else if last = Path.single || last = Path.double then .error (.system .isDirectory)
        else .ok (fs.drop spot.location)

end TestBench.FileSystem
