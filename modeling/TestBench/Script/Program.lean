import TestBench.Script.Evaluate
/-!
# The shell as a program

How a shell begins: its options, its variables, and the script that it is to run, which is an
argument, a file, or its input.
-/
namespace TestBench.Script

open Process

namespace Program

open Run

def standardVariables : List Variable :=
  [⟨str "PS1", some (str "# "), false, false, true⟩, ⟨str "PS2", some (str "> "), false, false, true⟩,
    ⟨str "PS4", some (str "+ "), false, false, true⟩,
    ⟨str "PATH", some Search.standardList, false, false, true⟩,
    ⟨str "MAIL", none, false, false, true⟩, ⟨str "MAILPATH", none, false, false, true⟩]

/-- Variables that do not take their values from the environment. -/
def ownVariables : List (Chars × Chars) :=
  [(str "IFS", Division.standardSeparators), (str "OPTIND", ['1'])]

def start (name : Chars) : Shell where
  name := name
  pid := 0
  isRoot := true
  line := 0
  reading := [1]
  running := none
  bindings := standardVariables
  kept := []
  parameters := []
  optionIndex := 1
  optionOffset := none
  options := []
  functions := []
  depth := 0
  aliases := []
  found := []
  traps := []
  arranged := []
  pending := []
  status := 0
  atTrap := none
  substituted := 0
  background := none
  skip := .nothing
  skipped := 0
  loops := 0
  jobs := []
  documents := []
  fresh := 0
  inDirectory := []
  mask := 0o022
  opening := []
  held := []
  heldSize := 0
  broken := false
  errors := 2
  tracing := false

def takeEnvironment (env : List Chars) : Run Unit :=
  env.forM fun entry => do
    let (x, value) := splitAssignment entry
    if isName x && value.isSome then store x value .forExport false

/-- The name of the directory: the one in the environment if it is right. -/
def startDirectory : Run Chars := do
  let real ← Chars.ofBytes <$> call .here
  match ← lookup (str "PWD") with
  | some p =>
    if p.head? != some '/' then pure real
    else match ← call (.inspect (Chars.toBytes p) true), ← call (.inspect (Chars.toBytes ['.']) true) with
      | .ok f, .ok g => pure (if f.identity = g.identity then p else real)
      | _, _ => pure real
  | none => pure real

def setUp (env : List Chars) : Run Unit := do
  let (me, parent) ← call .self
  modify fun s => { s with pid := me }
  takeEnvironment env
  ownVariables.forM fun (x, value) => store x (some value) { Variable.Marks.none with fixed := true } false
  store (str "PPID") (some (Decimal.render parent)) .none false
  let p ← startDirectory
  modify fun s => { s with inDirectory := p }
  store (str "PWD") (some p) .forExport false

inductive Origin where
  | text (script : Chars) (thenInput : Bool)
  | file (fd : Nat)

def setName (words : List Chars) : Run Unit :=
  modify fun s => match words with
    | [] => s
    | w :: ws => { s with name := w, parameters := ws }

def readWords (words : List Chars) : Run Origin := do
  let (rest, command, _) ← turnAll true (words.length + 1) words false
  if rest.isEmpty then
    if command then failText "-c requires an argument"
    turn "stdin" true
  let fromInput ← has "stdin"
  let origin ← if command then do
      setName (rest.drop 1)
      pure (Origin.text (rest.headD []) fromInput)
    else if fromInput then do
      modify fun s => { s with parameters := rest }
      pure (Origin.file 0)
    else do
      let fd ← Engine.openScript (rest.headD [])
      setName rest
      pure (Origin.file fd)
  if ← has "interactive" then
    turn "monitor" true
    arrange Signal.quit
    arrange Signal.terminate
  refuseMonitor
  pure origin

/-- How often the end of a script is passed over if it is to be. -/
def patience : Nat := 50

/-- Runs a file to its end, and a little beyond if ends are not to count. -/
def runToEnd (e : Engine) (fd : Nat) : Run Unit := do
  let _ ← e.runFile true fd
  if ← has "ignoreeof" then
    (List.range patience).forM fun _ => remark (str "\nUse \"exit\" to leave shell.\n")
  else if ← has "interactive" then remark ['\n']

/-- Goes on with what is left of the input after each fault, if somebody is there to be asked. -/
def persist (e : Engine) (fd : Nat) : Nat → Run Unit → Run Unit
  | 0, _ => pure ()
  | n + 1, r => do
    match ← attempt r with
    | .error .error =>
      if ← has "interactive" then
        Engine.closeFrames
        modify fun s => { s with skip := .nothing, loops := 0, depth := 0, running := none }
        persist e fd n (runToEnd e fd)
      else throw .error
    | result => settle result

def runOrigin (e : Engine) : Origin → Run Unit
  | .text script thenInput =>
    persist e 0 stepBound do
      let _ ← e.run ⟨!thenInput, false⟩ script
      if thenInput then runToEnd e 0
  | .file fd => persist e fd stepBound (runToEnd e fd)

def engine : Engine := Engine.ofDepth Engine.depth

def main (words env : List Chars) : Act Nat := do
  let whole : Run Nat := do
    let ended ← attempt do
      setUp env
      runOrigin engine (← readWords (words.drop 1))
    engine.finish ended
  let (code, _) ← whole.run (start (words.headD []))
  pure (match code with
    | .ok n => n
    | .error _ => 2)

end Program

def image (args env : List Bytes) : Process.Program :=
  (Program.main (args.map Chars.ofBytes) (env.map Chars.ofBytes)).program

end TestBench.Script
