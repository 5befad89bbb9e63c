import TestBench.FileSystem.Walk
/-!
# Reading and writing files

Opening a file for reading, for writing anew or for appending, and what is read or written through
the open file.
-/
namespace TestBench.FileSystem

inductive Handle where
  | file (id : Nat)
  | device (d : Device)
  | directory
deriving DecidableEq, Repr

def handleOf : Entry → Except Errno Handle
  | .directory => .ok .directory
  | .file id _ => .ok (.file id)
  | .device .terminal => .error .noAddress
  | .device d => .ok (.device d)
  | .program _ => .error .denied
  | .link _ => .error .tooManyLinks

def openRead (fs : FileSystem) (p : Path) : Except IoError Handle :=
  match fs.stat p with
  | .error e => .error e
  | .ok e =>
    match handleOf e with
    | .error e => .error (.system e)
    | .ok h => .ok h

/-- All that can be read from an open file. A device without end fills the memory first. -/
def Handle.readAll (fs : FileSystem) : Handle → Except IoError Bytes
  | .file id => .ok (fs.content id)
  | .device .null => .ok []
  | .device .zero | .device .full => .error (.system .noMemory)
  | .device .terminal => .error (.system .noAddress)
  | .directory => .error (.system .isDirectory)

def readBytes (fs : FileSystem) (p : Path) : Except IoError Bytes :=
  match fs.openRead p with
  | .error e => .error e
  | .ok h => h.readAll fs

def readText (fs : FileSystem) (p : Path) : Except IoError String :=
  match fs.readBytes p with
  | .error e => .error e
  | .ok bs =>
    match Utf8.text? bs with
    | none => .error .notUtf8
    | some s => .ok s

/-- Opens a file for writing from the start, making it if nothing stands there. -/
def openWrite (fs : FileSystem) (p : Path) : Except IoError (Handle × FileSystem) :=
  match fs.locate .make p with
  | .error e => .error e
  | .ok spot =>
    match spot.entry with
    | none =>
      match refusal? spot.location false with
      | some e => .error (.system e)
      | none => .ok (.file fs.fresh, fs.create spot.location false [])
    | some (.file id _) => .ok (.file id, fs.write id [])
    | some (.device .terminal) => .error (.system .noAddress)
    | some (.device d) => .ok (.device d, fs)
    | some .directory => .error (.system .isDirectory)
    | some (.program _) => .error (.system .denied)
    | some (.link _) => .error (.system .tooManyLinks)

/-- Opens a file for appending; it has to be there. -/
def openAppend (fs : FileSystem) (p : Path) : Except IoError Handle :=
  match fs.stat p with
  | .error e => .error e
  | .ok .directory => .error (.system .isDirectory)
  | .ok e =>
    match handleOf e with
    | .error e => .error (.system e)
    | .ok h => .ok h

def Handle.write (fs : FileSystem) (bs : Bytes) : Handle → Except IoError FileSystem
  | .file id => .ok (fs.append id bs)
  | .device .null | .device .zero => .ok fs
  | .device .full => if bs.isEmpty then .ok fs else .error (.system .noSpace)
  | .device .terminal => .error (.system .noAddress)
  | .directory => .error (.system .isDirectory)

end TestBench.FileSystem
