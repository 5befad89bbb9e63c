import TestBench.Locale
import TestBench.Path
import TestBench.Text.Utf8
/-!
# The command line

The arguments of a run: the plan and the target by position, a configuration file and a language by
option. Options may stand anywhere before a double dash; after it everything goes by position.
-/
namespace TestBench.Cli

structure Arguments where
  testPlan : Path
  target : String
  config : Option Path
  language : Option String
deriving DecidableEq, Repr

/-- The options that take a value. -/
inductive Slot where
  | config
  | language
deriving DecidableEq, Repr

inductive Request where
  | run (args : Arguments)
  | help
  | version
  | usage
deriving DecidableEq, Repr

/-- How an argument reads before the double dash. -/
inductive Reading where
  | escape
  | long (name : Bytes) (value : Option Bytes)
  | short (cluster : Bytes)
  | plain
deriving DecidableEq, Repr

def dash : UInt8 := 45
def equals : UInt8 := 61

def read (arg : Bytes) : Reading :=
  match arg with
  | 45 :: 45 :: [] => .escape
  | 45 :: 45 :: r =>
    let name := r.takeWhile (· != equals)
    .long name (match r.drop name.length with
      | [] => none
      | _ :: v => some v)
  | 45 :: c :: r => .short (c :: r)
  | _ => .plain

/-- What has been read so far. An option that waits for its value is settled only when the next
argument shows that there is none, or at the end. -/
structure Progress where
  plan : Option Bytes
  target : Option Bytes
  config : Option Bytes
  language : Option Bytes
  waiting : Option Slot
  escaped : Bool
deriving DecidableEq, Repr

namespace Progress

def start : Progress := ⟨none, none, none, none, none, false⟩

/-- Gives an option its value, once and only if the value is allowed. -/
def fill (p : Progress) (s : Slot) (v : Bytes) : Option Progress :=
  match s with
  | .config =>
    if p.config.isSome || v.isEmpty then none else some { p with config := some v, waiting := none }
  | .language =>
    if p.language.isSome || (Utf8.text? v).isNone then none
    else some { p with language := some v, waiting := none }

/-- Takes an argument by position. -/
def position (p : Progress) (v : Bytes) : Option Progress :=
  match p.plan, p.target with
  | none, _ => if v.isEmpty then none else some { p with plan := some v }
  | some _, none => if (Utf8.text? v).isNone then none else some { p with target := some v }
  | some _, some _ => none

/-- The end of the list: both positions have to be filled and no option may wait. -/
def finish (p : Progress) : Request :=
  match p.waiting, p.plan, p.target with
  | none, some plan, some target =>
    match Utf8.text? target with
    | some t => .run ⟨plan, t, p.config, p.language.bind Utf8.text?⟩
    | none => .usage
  | _, _, _ => .usage

end Progress

def configName : Bytes := Utf8.ofText "config"
def languageName : Bytes := Utf8.ofText "lang"
def helpName : Bytes := Utf8.ofText "help"
def versionName : Bytes := Utf8.ofText "version"

inductive Step where
  | onward (p : Progress)
  | decided (r : Request)
deriving DecidableEq, Repr

def Step.ofOption : Option Progress → Step
  | some p => .onward p
  | none => .decided .usage

def long (p : Progress) (name : Bytes) (value : Option Bytes) : Step :=
  let option (s : Slot) : Step :=
    match value with
    | some v => .ofOption (p.fill s v)
    | none => .onward { p with waiting := some s }
  if name = configName then option .config
  else if name = languageName then option .language
  else if name = helpName then .decided (if value.isNone then .help else .usage)
  else if name = versionName then .decided (if value.isNone then .version else .usage)
  else .decided .usage

/-- A group of one-letter options. The letter for the configuration takes the rest as its value. -/
def short (p : Progress) : Bytes → Step
  | [] => .onward p
  | 99 :: r =>
    let v := match r with
      | 61 :: r' => r'
      | r => r
    if r.isEmpty then .onward { p with waiting := some .config } else .ofOption (p.fill .config v)
  | 104 :: _ => .decided .help
  | 86 :: _ => .decided .version
  | _ :: _ => .decided .usage

def step (p : Progress) (arg : Bytes) : Step :=
  if p.escaped then .ofOption (p.position arg)
  else match read arg, p.waiting with
    | .plain, some s => .ofOption (p.fill s arg)
    | .plain, none => .ofOption (p.position arg)
    | _, some _ => .decided .usage
    | .escape, none => .onward { p with escaped := true }
    | .long name value, none => long p name value
    | .short cluster, none => short p cluster

def parseFrom : Progress → List Bytes → Request
  | p, [] => p.finish
  | p, a :: as =>
    match step p a with
    | .onward p => parseFrom p as
    | .decided r => r

/-- Reads an argument list, whose first entry is the name of the program. -/
def parse (args : List Bytes) : Request := parseFrom .start (args.drop 1)

/-- Looks for a language before anything else is read: the first argument that is or begins with the
language option decides, wherever it stands. -/
def scanLanguage : List Bytes → Option String
  | [] => none
  | a :: as =>
    match read a with
    | .long name value =>
      if name = languageName && (Utf8.text? a).isSome then
        match value with
        | some v => Utf8.text? v
        | none => as.head?.bind Utf8.text?
      else scanLanguage as
    | _ => scanLanguage as

end TestBench.Cli
