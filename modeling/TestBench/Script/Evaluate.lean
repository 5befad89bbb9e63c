import TestBench.Script.Builtin.Catalog
/-!
# Running commands

What each form of a command does. Commands that are divided off the shell run in children; all others
run in the shell itself, so what they change stays.
-/
namespace TestBench.Script

open Process

namespace Engine

open Run

def atLine (line : Nat) : Run Unit := modify fun s => { s with line := line }

/-- Expands words one by one until something comes of one; answers with that and the words left. -/
def firstFields (e : Engine) : List Word → Run (List Chars × List Word)
  | [] => pure ([], [])
  | w :: ws => do
    let fields ← expandFields e w
    if fields.isEmpty then firstFields e ws else pure (fields, ws)

/-- The words of a command as far as they have been expanded, and how it is to be found. Words before
it only let it be run. -/
structure Call where
  before : List Chars
  fields : List Chars
  rest : List Word
  isSpecial : Option Bool
  assigns : Bool
  executes : Bool
  functions : Bool
  list : Option Chars

/-- What follows the command that only runs another: the options that let it do so are taken away.
There is nothing if it is to do its own work. -/
def behindCommand (e : Engine) : Nat → List Chars → List Word → Option Chars →
    Run (Option (List Chars × List Word × Option Chars) × List Chars × List Word)
  | 0, fields, rest, _ => pure (none, fields, rest)
  | n + 1, fields, rest, list => do
    let (fields, rest) ← if fields.isEmpty then firstFields e rest else pure (fields, rest)
    match fields with
    | [] => pure (none, [], rest)
    | ('-' :: c :: cs) :: more =>
      if c == '-' && cs.isEmpty then
        let (more, rest) ← if more.isEmpty then firstFields e rest else pure (more, rest)
        pure (if more.isEmpty then none else some (more, rest, list), fields.take 1 ++ more, rest)
      else if (c :: cs).all (· == 'p') then
        let (found, all, left) ← behindCommand e n more rest (some Search.standardList)
        pure (found, fields.take 1 ++ all, left)
      else pure (none, fields, rest)
    | fields => pure (some (fields, rest, list), fields, rest)

def identify (e : Engine) : Nat → Call → Run Call
  | 0, c => pure c
  | n + 1, c => do
    match c.fields with
    | [] => pure c
    | name :: following =>
      match ← if name.contains '/' then pure none else findOwn name c.functions with
      | some (.own own) =>
        let c := { c with
          isSpecial := some (c.isSpecial.getD (Commands.special.contains own))
          assigns := Commands.assigning.contains own
          executes := own = "exec" }
        if own != "command" then pure c
        else
          let (found, all, left) ← behindCommand e n following c.rest c.list
          match found with
          | none => pure { c with fields := name :: all, rest := left }
          | some (fields, rest, list) =>
            identify e n { c with
              before := c.before ++ name :: all.take (all.length - fields.length)
              fields := fields
              rest := rest
              list := list
              functions := false }
      | _ => pure c

/-- Expands the words of a command. Those that assign to variables are not divided where the command
takes assignments. -/
def expandCall (e : Engine) (words : List Word) : Run Call := do
  let (fields, rest) ← firstFields e words
  let c ← identify e stepBound ⟨[], fields, rest, none, false, false, true, none⟩
  let more ← c.rest.mapM fun w =>
    if c.assigns && (Word.assigned? w).isSome then do
      let text ← expandText e .forAssignment w
      pure [text]
    else expandFields e w
  pure { c with fields := c.fields ++ more.flatten, rest := [] }

def trace (e : Engine) (assignments fields : List Chars) : Run Unit := do
  let s ← get
  if s.options.contains "xtrace" && !s.tracing then
    modify fun t => { t with tracing := true }
    let sign ← expandPrompt e "PS4"
    modify fun t => { t with tracing := false }
    let text := sign ++ Text.joinWith [' '] (assignments ++ fields) ++ ['\n']
    let _ ← writeAll (← get).errors stepBound (Chars.toBytes text)

/-- Runs a command of the shell's own. If it goes wrong, only a special one stops the shell. -/
def runOwn (e : Engine) (flags : Flags) (c : Call) (own : String) : Run Unit := do
  let outer := (← get).running
  modify fun s => { s with running := c.fields.head? }
  let ended ← attempt do
    let status ← Commands.run e flags own (c.fields.drop 1)
    flush
    let isBroken := (← get).broken
    if isBroken then warn (c.fields.headD [] ++ str ": I/O error")
    setStatus (if isBroken then (if status % 2 = 0 then status + 1 else status) else status)
  modify fun s => { s with running := outer, broken := false, held := [], heldSize := 0 }
  match ended with
  | .ok _ => pure ()
  | .error stop => if stop = .error && c.isSpecial != some true then pure () else throw stop

def deepest : Nat := 1000

def callFunction (e : Engine) (flags : Flags) (body : Command) (parameters : List Chars) :
    Run Unit := do
  let s ← get
  if deepest ≤ s.depth then fail (str "Maximum function recursion depth (1000) reached")
  set { s with
    parameters := parameters
    optionIndex := 1
    optionOffset := none
    loops := 0
    depth := s.depth + 1 }
  ensuring (do let _ ← e.evaluate { flags with last := false } body) do
    modify fun t => { t with
      parameters := s.parameters
      optionIndex := s.optionIndex
      optionOffset := s.optionOffset
      loops := s.loops
      depth := s.depth
      skip := if t.skip = .back || t.skip = .plainBack then .nothing else t.skip }

/-- Runs a program, in a child unless nothing is left to do after it. -/
def runProgram (e : Engine) (flags : Flags) (c : Call) (place : Option Nat) : Run Unit := do
  let start := execute c.fields c.list (place.getD 0)
  if flags.last && !(← hasTraps) then start
  else
    let job ← newJob
    let _ ← e.fork (some job) .front start
    setStatus (← finishJob job)

def runFound (e : Engine) (flags : Flags) (c : Call) : Run Int := do
  match c.fields with
  | [] => setStatus (← get).substituted
  | name :: parameters =>
    match ← findCommand name c.functions true c.list with
    | .missing => setStatus 127
    | .program place => runProgram e flags c place
    | .own own => runOwn e flags c own
    | .function body => callFunction e flags body parameters
  collectAll
  return (← get).status

/-- Assigns to variables for a command alone, or for good. -/
def assign (e : Engine) (alone exported : Bool) (w : Word) : Run Chars := do
  let text ← expandText e .forAssignment w
  if alone then keep text .forExport
  else
    let (x, value) := splitAssignment text
    store x value (if exported then .forExport else .none) true
  pure text

/-- What is between the redirections of a command and their end. -/
def runRedirected (e : Engine) (flags : Flags) (c : Call) (assigned : List Word) (alone : Bool) :
    Run Int := do
  let exported := c.executes && 1 < c.fields.length
  let assignments ← assigned.mapM (assign e alone exported)
  trace e assignments (c.before ++ c.fields)
  runFound e flags c

def keptErrors (formers : Formers) : Nat :=
  match formers.lookup 2 with
  | some (.copied kept) => kept
  | _ => 2

def runSimple (e : Engine) (flags : Flags) (line : Nat) (assigned words : List Word)
    (redirects : List Redirect) : Run Int := do
  atLine line
  modify fun s => { s with substituted := 0 }
  Run.call (.work 5)
  let c ← expandCall e words
  let alone := !c.fields.isEmpty && c.isSpecial != some true
  if alone then openFrame
  let body : Run Int := do
    modify fun s => { s with errors := 2 }
    let targets ← redirects.mapM (resolve e)
    let (result, formers) ← redirect e true targets
    match result with
    | .ok _ =>
      modify fun s => { s with errors := keptErrors formers }
      match ← attempt (runRedirected e flags c assigned alone) with
      | .ok status =>
        putBack formers c.executes
        pure status
      | .error stop =>
        putBack formers false
        throw stop
    | .error stop =>
      putBack formers false
      setStatus 2
      if stop = .error && c.isSpecial != some true then pure 2 else throw stop
  if alone then ensuring body closeFrame else body

/-- Counts a loop off the skip; answers with the skip as it was. -/
def skipLoop : Run Skip := do
  let s ← get
  if s.skip = .leave || s.skip = .again then
    if s.skipped ≤ 1 then
      set { s with skip := .nothing, skipped := 0 }
      pure s.skip
    else
      set { s with skipped := s.skipped - 1 }
      pure .leave
  else pure s.skip

def goesOn (k : Skip) : Bool := k = .nothing || k = .again

def inLoop (r : Run Int) : Run Int := do
  modify fun s => { s with loops := s.loops + 1 }
  let status ← r
  modify fun s => { s with loops := s.loops - 1 }
  pure status

def turns (e : Engine) (tested whileTrue : Bool) (test body : Command) : Nat → Int → Run Int
  | 0, status => pure status
  | n + 1, status => do
    let i ← e.evaluate .forTest test
    let skip ← skipLoop
    let status := if skip = .back then i else status
    if skip != .nothing then
      if goesOn skip then turns e tested whileTrue test body n status else pure status
    else if (i = 0) != whileTrue then pure status
    else
      let status ← e.evaluate ⟨false, tested⟩ body
      if goesOn (← skipLoop) then turns e tested whileTrue test body n status else pure status

def eachTurn (e : Engine) (tested : Bool) (name : Chars) (body : Command) :
    List Chars → Int → Run Int
  | [], status => pure status
  | w :: ws, _ => do
    setPlain name w
    let status ← e.evaluate ⟨false, tested⟩ body
    if goesOn (← skipLoop) then eachTurn e tested name body ws status else pure status

def fitsAny (e : Engine) (text : Chars) : List Word → Run Bool
  | [] => pure false
  | w :: ws => do
    let p ← expandPattern e w
    if p.fits text then pure true else fitsAny e text ws

def runArms (e : Engine) (flags : Flags) (text : Chars) :
    List (List Word × Option Command) → Run Int
  | [] => pure 0
  | (patterns, body) :: arms => do
    if ← fitsAny e text patterns then
      match body with
      | some c => e.evaluate flags c
      | none => pure 0
    else runArms e flags text arms

def insideChild (e : Engine) (tested : Bool) (body : Command) (targets : List Target) :
    Run Unit := do
  let (result, _) ← redirect e false targets
  settle result
  let _ ← e.evaluate ⟨true, tested⟩ body

def runDivided (e : Engine) (flags : Flags) (inBack : Bool) (line : Nat) (body : Command)
    (redirects : List Redirect) : Run Int := do
  atLine line
  let targets ← redirects.mapM (resolve e)
  if !inBack && flags.last && !(← hasTraps) then
    insideChild e flags.tested body targets
    throw .done
  else
    let job ← newJob
    let _ ← e.fork (some job) (if inBack then .back true else .front)
      (insideChild e (flags.tested && !inBack) body targets)
    if inBack then pure 0 else finishJob job

/-- Starts the stages of a pipeline. `input` is the end of the pipe from the stage before. -/
def startStages (e : Engine) (tested inBack : Bool) (job : Nat) :
    Bool → Option Nat → List Command → Run Unit
  | _, _, [] => pure ()
  | first, input, c :: cs => do
    let pipe ← if cs.isEmpty then pure none else some <$> Run.call .pipe
    let _ ← e.fork (some job) (if inBack then .back first else .front) do
      match pipe with
      | some (out, _) =>
        let _ ← Run.call (.close out)
      | none => pure ()
      match input with
      | some fd =>
        if 0 < fd then
          let _ ← Run.call (.copyTo fd 0)
          let _ ← Run.call (.close fd)
      | none => pure ()
      match pipe with
      | some (_, into) =>
        if 1 < into then
          let _ ← Run.call (.copyTo into 1)
          let _ ← Run.call (.close into)
      | none => pure ()
      let _ ← e.evaluate ⟨true, tested⟩ c
    match input with
    | some fd =>
      let _ ← Run.call (.close fd)
    | none => pure ()
    match pipe with
    | some (out, into) =>
      let _ ← Run.call (.close into)
      startStages e tested inBack job false (some out) cs
    | none => startStages e tested inBack job false none cs

/-- Notes where a program is before the children of a pipeline look for it. -/
def foresee (c : Command) : Run Unit := do
  match c with
  | .simple _ _ (w :: _) _ =>
    match Word.bareText? w with
    | some name =>
      if !name.contains '/' then
        let _ ← findCommand name true false none
    | none => pure ()
  | _ => pure ()

def runPipeline (e : Engine) (flags : Flags) (stages : List Command) (inBack : Bool) : Run Int := do
  stages.forM foresee
  let job ← newJob
  startStages e flags.tested inBack job true none stages
  if inBack then pure 0 else finishJob job

/-- What a command comes to: whether its failure may stop the shell, and its status. -/
structure Outcome where
  counts : Bool
  status : Int

def outcome (counts : Bool) (r : Run Int) : Run Outcome := do
  let status ← r
  setStatus status
  pure ⟨counts, status⟩

/-- The outcome of a command that has been left; the status stays as it is. -/
def left : Run Outcome := return ⟨false, (← get).status⟩

def isLeft : Run Bool := return (← get).skip != .nothing

def runForm (e : Engine) (flags : Flags) : Command → Run Outcome
  | .simple line assigned words redirects =>
    outcome true (runSimple e flags line assigned words redirects)
  | .pipeline stages inBack => outcome true (runPipeline e flags stages inBack)
  | .subshell line body redirects => outcome true (runDivided e flags false line body redirects)
  | .background line body redirects => outcome true (runDivided e flags true line body redirects)
  | .redirected line body redirects => do
    atLine line
    let targets ← redirects.mapM (resolve e)
    let (result, formers) ← redirect e true targets
    let done := putBack formers false
    match result with
    | .ok _ => outcome false (ensuring (e.evaluate { flags with last := false } body) done)
    | .error stop =>
      done
      if stop = .error then outcome true (pure 2) else throw stop
  | .both first second => do
    let status ← e.evaluate .forTest first
    if status != 0 || (← isLeft) then left else outcome false (e.evaluate flags second)
  | .either first second => do
    let status ← e.evaluate .forTest first
    if status = 0 || (← isLeft) then left else outcome false (e.evaluate flags second)
  | .sequence first second => do
    let _ ← e.evaluate { flags with last := false } first
    if ← isLeft then left else outcome false (e.evaluate flags second)
  | .negation body => do
    let status ← e.evaluate .forTest body
    if ← isLeft then left else outcome false (pure (if status = 0 then 1 else 0))
  | .choice test yes no => do
    let status ← e.evaluate .forTest test
    if ← isLeft then left
    else if status = 0 then outcome false (e.evaluate flags yes)
    else match no with
      | some c => outcome false (e.evaluate flags c)
      | none => outcome false (pure 0)
  | .loop whileTrue test body =>
    outcome false (inLoop (turns e flags.tested whileTrue test body stepBound 0))
  | .each line name words body => do
    atLine line
    let fields ← expandAll e words
    outcome false (inLoop (eachTurn e flags.tested name body fields 0))
  | .select line subject arms => do
    atLine line
    let text ← expandText e .forText subject
    outcome false (runArms e flags text arms)
  | .define _ name body => do
    modify fun s => { s with functions := (name, body) :: s.functions.filter (·.1 != name) }
    outcome false (pure 0)

/-- Runs a command. A failure that counts and is not tested may stop the shell, and so does the end
of its last command. -/
def runCommand (e : Engine) (flags : Flags) (c : Command) : Run Int := do
  if ← has "noexec" then
    if flags.last then throw .done
  else
    e.heed
    let o ← runForm e flags c
    e.heed
    if o.counts && !flags.tested && o.status != 0 && (← has "errexit") then throw .done
    if flags.last then throw .done
  return (← get).status

/-- The engine that runs commands nested up to a depth. -/
def ofDepth : Nat → Engine
  | 0 => ⟨fun _ _ => do
      let (me, _) ← Run.call .self
      let _ ← Run.call (.signal me 11)
      throw .done⟩
  | n + 1 => ⟨fun flags c => runCommand (ofDepth n) flags c⟩

/-- Deeper than any script that ends. -/
def depth : Nat := 1000000

end Engine
end TestBench.Script
