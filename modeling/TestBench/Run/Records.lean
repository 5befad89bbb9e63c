import TestBench.FileSystem.Directory
import TestBench.Run.Context
import TestBench.Text.Alphanumeric
/-!
# Logs and results

The directory with one log for each executed row, emptied when a run starts, and the results file,
which is shared with the runners: a header, and a line for each row that is not executed.
-/
namespace TestBench.Records

def resultsHeader : String := "Test Name,Result,Passes,Fails,Timeouts"

/-- The line of a row that is not executed; its counts are empty. -/
def notExecutedRow (name : String) : String := name ++ ",NOT_EXECUTED,,,"

/-- Empties the log directory, or makes it. -/
def resetLogDir (fs : FileSystem) (dir : Path) : Option Failure × FileSystem :=
  let make (fs : FileSystem) : Option Failure × FileSystem :=
    match fs.makeDirectories dir with
    | (some e, left) => (some (.logDirUnmade dir e), left)
    | (none, left) => (none, left)
  if fs.pathExists dir then
    match fs.removeAll dir with
    | (some e, left) => (some (.logDirKept dir e), left)
    | (none, left) => make left
  else make fs

/-- Makes the results file anew, with its header. -/
def createResults (fs : FileSystem) (p : Path) : Option Failure × FileSystem :=
  match fs.openWrite p with
  | .error e => (some (.resultsUnmade p e), fs)
  | .ok (h, opened) =>
    match h.write opened (Utf8.ofText (resultsHeader ++ "\n")) with
    | .error e => (some (.headerUnwritten p e), opened)
    | .ok written => (none, written)

/-- Adds the line of a row that is not executed. The file has to be there. -/
def appendNotExecuted (fs : FileSystem) (p : Path) (name : String) : Option Failure × FileSystem :=
  match fs.openAppend p with
  | .error e => (some (.resultsUnopened p e), fs)
  | .ok h =>
    match h.write fs (Utf8.ofText (notExecutedRow name ++ "\n")) with
    | .error e => (some (.rowUnwritten p e), fs)
    | .ok written => (none, written)

def prepare (fs : FileSystem) (ctx : Context) : Option Failure × FileSystem :=
  match resetLogDir fs ctx.logDir with
  | (some f, left) => (some f, left)
  | (none, left) => createResults left ctx.resultsPath

def keptInName (c : Char) : Bool := Text.isAlphanumeric c || c == '-' || c == '.'

def sanitize (cs : List Char) : List Char := cs.map fun c => if keptInName c then c else '_'

/-- The file name of a log: the number of the row in three digits or more, and its name. -/
def logName (number : Nat) (name : String) : String :=
  String.ofList (Decimal.padded 3 number ++ '_' :: sanitize name.toList ++ ['.', 'l', 'o', 'g'])

def logPath (dir : Path) (number : Nat) (name : String) : Path :=
  Path.join dir (.ofText (logName number name))

def writeLog (fs : FileSystem) (p : Path) (output : String) : Option Failure × FileSystem :=
  match fs.openWrite p with
  | .error e => (some (.logUnwritten p e), fs)
  | .ok (h, opened) =>
    match h.write opened (Utf8.ofText output) with
    | .error e => (some (.logUnwritten p e), opened)
    | .ok written => (none, written)

end TestBench.Records
