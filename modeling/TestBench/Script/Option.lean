import TestBench.Script.Variable
/-!
# Options

The options of a shell by name and by letter, and the reading of the options of its own commands.
-/
namespace TestBench.Script

namespace Setting

/-- The options, in the order of their listing, with their letters. -/
def table : List (String × Option Char) :=
  [("errexit", some 'e'), ("noglob", some 'f'), ("ignoreeof", some 'I'), ("interactive", some 'i'),
    ("monitor", some 'm'), ("noexec", some 'n'), ("stdin", some 's'), ("xtrace", some 'x'),
    ("verbose", some 'v'), ("vi", some 'V'), ("emacs", some 'E'), ("noclobber", some 'C'),
    ("allexport", some 'a'), ("notify", some 'b'), ("nounset", some 'u'), ("privileged", some 'p'),
    ("nolog", none), ("debug", none)]

def names : List String := table.map (·.1)

def letters (on : List String) : Chars :=
  table.reverse.filterMap fun t => if on.contains t.1 then t.2 else none

def turn (on : List String) (name : String) (value : Bool) : List String :=
  let others := on.filter (· != name)
  if !value then others
  else name :: (if name = "vi" then others.filter (· != "emacs")
    else if name = "emacs" then others.filter (· != "vi") else others)

def padded (width : Nat) (cs : Chars) : Chars := cs ++ List.replicate (width - cs.length) ' '

end Setting

namespace Run

def turn (name : String) (value : Bool) : Run Unit :=
  modify fun s => { s with options := Setting.turn s.options name value }

def turnLetter (c : Char) (value : Bool) : Run Unit :=
  match Setting.table.find? (·.2 == some c) with
  | some (name, _) => turn name value
  | none => fail (str "Illegal option -" ++ [c])

/-- Lists the settings; before a shell has started none of them is off. -/
def listSettings (start value : Bool) : Run Unit := do
  if value then put (str "Current option settings\n")
  let now := (← get).options
  let on := if start then Setting.names else now
  Setting.names.forM fun name =>
    let isOn := on.contains name
    put (if value then Setting.padded 16 (str name) ++ str (if isOn then "on\n" else "off\n")
      else str "set " ++ str (if isOn then "-o " else "+o ") ++ str name ++ ['\n'])

def turnNamed (start : Bool) (name : Option Chars) (value : Bool) : Run Unit :=
  match name with
  | none => listSettings start value
  | some cs =>
    match Setting.names.find? fun n => str n = cs with
    | some name => modify fun s =>
        { s with options := if value then name :: s.options.filter (· != name)
            else s.options.filter (· != name) }
    | none => fail (str "Illegal option -o " ++ cs)

/-- The letters of one word of settings; with `start` a shell is being started, whose command may be
asked for. Answers with the words left and whether a command is asked for. -/
def turnLetters (start value : Bool) : Chars → List Chars → Bool → Run (List Chars × Bool)
  | [], words, command => pure (words, command)
  | c :: cs, words, command => do
    if c == 'c' && start then turnLetters start value cs words true
    else if c == 'l' && start then turnLetters start value cs words command
    else if c == 'o' then
      turnNamed start words.head? value
      turnLetters start value cs (words.drop 1) command
    else
      turnLetter c value
      turnLetters start value cs words command

/-- Reads settings in front of other words: what is left, whether a command is asked for, and
whether the parameters are to be replaced by nothing. -/
def turnAll (start : Bool) : Nat → List Chars → Bool → Run (List Chars × Bool × Bool)
  | 0, words, command => pure (words, command, false)
  | n + 1, words, command => do
    match words with
    | ['-'] :: r =>
      if !start then
        turn "xtrace" false
        turn "verbose" false
      pure (r, command, false)
    | ['-', '-'] :: r => pure (r, command, !start && r.isEmpty)
    | ('-' :: cs) :: r =>
      let (r, command) ← turnLetters start true cs r command
      turnAll start n r command
    | ('+' :: cs) :: r =>
      let (r, command) ← turnLetters start false cs r command
      turnAll start n r command
    | words => pure (words, command, false)

/-- There is no terminal from which jobs could be controlled. -/
def refuseMonitor : Run Unit := do
  if ← has "monitor" then
    warn (str "can't access tty; job control turned off")
    turn "monitor" false

/-- The letters of one word of options; the last of them may take an argument. -/
def optionLetters (allowed : List (Char × Bool)) :
    Chars → List Chars → List (Char × Chars) → Run (List Chars × List (Char × Chars))
  | [], words, met => pure (words, met)
  | c :: cs, words, met => do
    match allowed.lookup c with
    | none => fail (str "Illegal option -" ++ [c])
    | some false => optionLetters allowed cs words ((c, []) :: met)
    | some true =>
      if !cs.isEmpty then pure (words, (c, cs) :: met)
      else match words with
        | a :: r => pure (r, (c, a) :: met)
        | [] => fail (str "No arg for -" ++ c :: str " option")

def optionsFrom (allowed : List (Char × Bool)) :
    Nat → List Chars → List (Char × Chars) → Run (List (Char × Chars) × List Chars)
  | 0, words, met => pure (met.reverse, words)
  | n + 1, words, met => do
    match words with
    | ['-', '-'] :: r => pure (met.reverse, r)
    | ('-' :: c :: cs) :: r =>
      let (r, met) ← optionLetters allowed (c :: cs) r met
      optionsFrom allowed n r met
    | words => pure (met.reverse, words)

def options (allowed : List (Char × Bool)) (words : List Chars) :
    Run (List (Char × Chars) × List Chars) :=
  optionsFrom allowed (words.length + 1) words []

def operands (words : List Chars) : Run (List Chars) := return (← options [] words).2

end Run
end TestBench.Script
