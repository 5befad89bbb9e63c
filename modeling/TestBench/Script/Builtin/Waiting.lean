import TestBench.Script.Job
/-!
# Jobs and signals

The shell's own commands that wait for jobs, list them, and send signals.
-/
namespace TestBench.Script.Waiting

open Process Run

/-- How a wait for children ends: there is news, a signal, or nobody left to wait for. -/
inductive News where
  | ended
  | signal
  | nobody
deriving DecidableEq, Repr

def awaitNews (waited : Option Nat) : Run News := do
  match ← call (.await none .untilSignal) with
  | .ended pid status =>
    noteWaited waited pid status
    collect waited stepBound
    pure .ended
  | .interrupted => pure .signal
  | _ => pure .nobody

def signalled : Run Int := do
  let _ ← arrivals
  pure (((← get).pending.getLast?).getD 0 + 128 : Nat)

def awaitAll : Nat → Run Int
  | 0 => pure 0
  | n + 1 => do
    modify fun s => { s with jobs := s.jobs.map fun j => { j with waited := j.waited || j.ended } }
    if (← get).jobs.all (·.ended) then pure 0
    else match ← awaitNews none with
      | .ended => awaitAll n
      | .signal => signalled
      | .nobody => pure 0

/-- Waits for a job; answers nothing if a signal comes before. -/
def awaitOne (number : Nat) : Nat → Run Bool
  | 0 => pure true
  | n + 1 => do
    match ← job? number with
    | none => pure true
    | some j =>
      if j.ended then pure true
      else match ← awaitNews (some number) with
        | .ended => awaitOne number n
        | .signal => pure false
        | .nobody => pure true

def jobOf (w : Chars) : Run (Option Job) := do
  if w.head? = some '%' then some <$> jobNamed (some w) false
  else
    let pid ← number w
    pure ((← get).jobs.find? fun j => (j.stages.getLast?.map (·.pid)) = some pid)

/-- Waits for jobs one after the other; the status is that of the last. -/
def awaitEach (status : Int) : List Chars → Run Int
  | [] => pure status
  | w :: ws => do
    match ← jobOf w with
    | none => awaitEach status ws
    | some j =>
      if ← awaitOne j.number stepBound then
        let j := (← job? j.number).getD j
        putJob { j with waited := true }
        awaitEach j.code ws
      else signalled

def wait (words : List Chars) : Run Int := do
  match ← operands words with
  | [] => awaitAll stepBound
  | ws => awaitEach 127 ws

inductive Listing where
  | plain
  | withNumbers
  | numbersOnly
deriving DecidableEq, Repr

def stateColumn : Nat := 33

def shownJob (mode : Listing) (jobs : List Job) (j : Job) : Chars :=
  let pids := j.stages.map fun s => Decimal.render s.pid
  let sign := if (jobs.head?.map (·.number)) = some j.number then '+'
    else if ((jobs.drop 1).head?.map (·.number)) = some j.number then '-' else ' '
  let front := '[' :: Decimal.render j.number ++ [']', ' ', sign, ' ']
  let padded := fun (cs : Chars) => cs ++ List.replicate (max 1 (stateColumn - cs.length)) ' '
  match mode with
  | .numbersOnly => (pids.headD []) ++ ['\n']
  | .plain =>
    padded (front ++ j.stateText) ++ (pids.drop 1).flatMap (fun _ => str " | ") ++ ['\n']
  | .withNumbers =>
    let further := (pids.drop 1).flatMap fun p =>
      let line := List.replicate front.length ' ' ++ p ++ [' ']
      str " |\n" ++ line ++ List.replicate (max 1 (stateColumn - line.length)) ' '
    padded (front ++ pids.headD [] ++ ' ' :: j.stateText) ++ further ++ ['\n']

def showJob (mode : Listing) (j : Job) : Run Unit := do
  put (shownJob mode (← get).jobs j)
  if mode != .numbersOnly then
    if j.ended then dropJob j.number else putJob { j with changed := false }

def jobs (words : List Chars) : Run Int := do
  let (met, words) ← options [('l', false), ('p', false)] words
  let mode : Listing := match met.getLast?.map (·.1) with
    | some 'l' => .withNumbers
    | some _ => .numbersOnly
    | none => .plain
  if words.isEmpty then
    collectAll
    let all := (← get).jobs
    all.forM fun j => showJob mode j
  else words.forM fun w => do showJob mode (← jobNamed (some w) false)
  pure 0

def move (words : List Chars) : Run Int := do
  let words ← operands words
  let _ ← jobNamed words.head? true
  pure 0

def usage {α : Type} : Run α :=
  failText ("Usage: kill [-s sigspec | -signum | -sigspec] [pid | job]... or\n"
    ++ "kill -l [exitstatus]")

def listSignals (words : List Chars) : Run Int := do
  match words with
  | [] =>
    put (str "0\n")
    (Signals.names.drop 1).forM fun name => put (str name ++ ['\n'])
  | w :: _ =>
    let n ← number w
    let n := if 128 < n then n - 128 else n
    if 0 < n && n ≤ Signal.last then put (Signals.name n ++ ['\n'])
    else fail (str "invalid signal number or exit status: " ++ w)
  pure 0

def send (n : Nat) (words : List Chars) : Run Int := do
  let results ← words.mapM fun w => do
    let pid : Int ← match w with
      | '%' :: _ => do
        let j ← jobNamed (some w) false
        pure (-((j.stages.head?.map (·.pid)).getD 0 : Nat) : Int)
      | '-' :: ds => do
        let p ← number ds
        pure (-(p : Int))
      | ds => do
        let p ← number ds
        pure (p : Int)
    match ← call (.signal pid n) with
    | .ok _ => pure (0 : Int)
    | .error e =>
      warn (str e.describe ++ ['\n'])
      pure 1
  pure (results.foldl max 0)

def kill (words : List Chars) : Run Int := do
  match words with
  | [] => usage
  | ('-' :: cs) :: r =>
    match Signals.ofText 1 cs with
    | some n => if r.isEmpty then usage else send n r
    | none =>
      let (met, rest) ← options [('l', false), ('s', true)] words
      let chosen ← met.foldlM (fun (found : Option Nat) (c, a) => do
        if c == 's' then
          match Signals.ofText 1 a with
          | some n => pure (some n)
          | none => fail (str "invalid signal number or name: " ++ a)
        else pure found) none
      if met.any (·.1 == 'l') then
        if chosen.isSome then usage else listSignals rest
      else if rest.isEmpty then usage
      else send (chosen.getD 15) rest
  | ws => send 15 ws

end TestBench.Script.Waiting
