import TestBench.Cli.Session
import TestBench.Console.Color
import TestBench.FileSystem.Bench
/-!
# The program

Takes the files of the working directory into a session, runs it with the programs of the bench, and
puts the files back as the session leaves them.
-/
open TestBench

namespace TestBench.Program

def readEnvironment (block : Bytes) : Environment :=
  (Text.splitOn (0 : UInt8) block).filterMap fun entry =>
    match Text.cutAt (61 : UInt8) entry with
    | some (name, value) =>
      match Utf8.text? name, Utf8.text? value with
      | some n, some v => some (n, v)
      | _, _ => none
    | none => none

/-- The moment at which the system was started, from the system's own statistics. -/
def bootTime (statistics : Bytes) : Nat :=
  let lines := Text.splitOn '\n' (Utf8.decodeLossy statistics)
  match lines.findSome? fun l => if "btime ".toList.isPrefixOf l then some (l.drop 6) else none with
  | some ds => (Decimal.read? ds).getD 0
  | none => 0

def hasInterpreter (content : Bytes) : Bool := [(35 : UInt8), 33].isPrefixOf content

/-- Reads what lies below a directory; `below` is the path from the working directory. -/
partial def load (below : String) (entries : Array IO.FS.DirEntry) :
    IO (List FileSystem.Item) := do
  let mut items := []
  for e in entries do
    let name := below ++ e.fileName
    let info ← e.path.metadata
    match info.type with
    | .dir =>
      items := items ++ .directory (.ofText name) :: (← load (name ++ "/") (← e.path.readDir))
    | .file =>
      let content := (← IO.FS.readBinFile e.path).toList
      items := items ++ [.file (.ofText name) content (hasInterpreter content)]
    | _ => pure ()
  pure items

/-- Makes the working directory agree with a listing. -/
def store (before after : List (Path × FileSystem.Shown)) : IO Unit := do
  for t in before.reverse do
    if !(after.any fun u => u.1 == t.1) then
      match t.2 with
      | .directory => IO.FS.removeDir t.1.display
      | _ => IO.FS.removeFile t.1.display
  for t in after do
    if !before.contains t then
      match t.2 with
      | .directory => IO.FS.createDirAll t.1.display
      | .file content => IO.FS.writeBinFile t.1.display ⟨content.toArray⟩
      | .link _ => pure ()

/-- The number of items of a plan after which a session gives up. -/
def itemBound : Nat := 1000000

end TestBench.Program

def main (args : List String) : IO UInt32 := do
  let env := Program.readEnvironment (← IO.FS.readBinFile "/proc/self/environ").toList
  let started := Program.bootTime (← IO.FS.readBinFile "/proc/stat").toList
  let files := FileSystem.bench.placeAll (← Program.load "" (← (← IO.currentDir).readDir))
  let now := started + (← IO.monoMsNow) / 1000
  let w : Cli.Surroundings := ⟨env, Child.launch env, .never, now, Program.itemBound⟩
  let words := (Console.programName :: args).map Utf8.ofText
  let s := Cli.session w ⟨Console.markupForced env⟩ (Console.colorsForced env) words files
  IO.print s.printed.out
  IO.eprint s.printed.err
  Program.store files.listing s.files.listing
  pure (UInt32.ofNat s.exit)
