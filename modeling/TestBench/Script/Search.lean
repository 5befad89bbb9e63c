import TestBench.Script.Engine
import TestBench.Text.Split
/-!
# Finding commands

A command is a function, a part of the shell, or a program. Where a program has been found once, it
is not searched for again.
-/
namespace TestBench.Script

open Process

namespace Commands

/-- Commands that are part of the shell, except the special ones. -/
def regular : List String :=
  ["[", "alias", "bg", "cd", "chdir", "command", "echo", "false", "fg", "getopts", "hash", "jobs",
    "kill", "printf", "pwd", "read", "test", "true", "type", "ulimit", "umask", "unalias", "wait"]

def special : List String := "local" :: specialCommands

def assigning : List String := ["alias", "export", "local", "readonly"]

def named? (name : Chars) : Option String := (special ++ regular).find? fun c => str c = name

end Commands

/-- What a command is. A program comes with its place in the search list, unless it is a path. -/
inductive Found where
  | function (body : Command)
  | own (name : String)
  | program (place : Option Nat)
  | missing

namespace Search

def standardList : Chars := str "/usr/local/sbin:/usr/local/bin:/usr/sbin:/usr/bin:/sbin:/bin"

def paths (list name : Chars) : List Chars :=
  (Text.splitOn ':' list).map fun dir => if dir.isEmpty then name else dir ++ '/' :: name

/-- The place in a list of the first path that is a plain file, or why there is none. -/
def findFile (reason : Errno) (place : Nat) : List Chars → Run (Except Errno Nat)
  | [] => pure (.error reason)
  | p :: ps => do
    match ← Run.call (.inspect (Chars.toBytes p) true) with
    | .error e =>
      findFile (if e = .noEntry || e = .notDirectory then reason else e) (place + 1) ps
    | .ok f => if f.kind = .file then pure (.ok place) else findFile .denied (place + 1) ps

end Search

namespace Run

def searchList : Run Chars := return (← lookup (str "PATH")).getD []

/-- Looks for a program in a search list; what is found in the list of the shell is kept. -/
def findProgram (list : Option Chars) (name : Chars) : Run (Except Errno Nat) := do
  let known := (← get).found.lookup name
  match if list.isNone then known else none with
  | some place => pure (.ok place)
  | none =>
    let result ← Search.findFile .noEntry 0 (Search.paths (list.getD (← searchList)) name)
    match result, list with
    | .ok place, none => modify fun s => { s with found := s.found ++ [(name, place)] }
    | _, _ => pure ()
    pure result

/-- What a command is, without a search for programs. -/
def findOwn (name : Chars) (functions : Bool) : Run (Option Found) := do
  let body := (← get).functions.lookup name
  match if functions then body else none with
  | some body => pure (some (.function body))
  | none => pure ((Commands.named? name).map .own)

/-- What a command is. With `tells` there is a message if it is nothing. -/
def findCommand (name : Chars) (functions tells : Bool) (list : Option Chars) : Run Found := do
  if name.contains '/' then pure (.program none)
  else match ← findOwn name functions with
    | some f => pure f
    | none =>
      match ← findProgram list name with
      | .ok place => pure (.program (some place))
      | .error e =>
        if tells then warn (name ++ str ": " ++ reason missingProgram e)
        pure .missing

def shellPath : Chars := str "/bin/sh"

/-- Executes a program at a path; a text without an interpreter is read by the shell. -/
def executeAt (p : Chars) (words : List Chars) : Run Errno := do
  let env ← environment
  match ← call (.execute (Chars.toBytes p) (words.map Chars.toBytes) env) with
  | .execFormat =>
    call (.execute (Chars.toBytes shellPath)
      ((shellPath :: p :: words.drop 1).map Chars.toBytes) env)
  | e => pure e

def executeFirst (words : List Chars) (reason : Errno) : List Chars → Run Errno
  | [] => pure reason
  | p :: ps => do
    let e ← executeAt p words
    executeFirst words (if e = .noEntry || e = .notDirectory then reason else e) ps

/-- Puts a program in the place of the shell, or ends it. -/
def execute (words : List Chars) (list : Option Chars) (place : Nat) : Run Unit := do
  let name := words.head?.getD []
  let e ← if name.contains '/' then executeAt name words
    else executeFirst words .noEntry ((Search.paths (list.getD (← searchList)) name).drop place)
  let absent := e = .tooManyLinks || e = .nameTooLong || e = .noEntry || e = .notDirectory
  setStatus (if absent then 127 else 126)
  warn (name ++ str ": " ++ reason missingProgram e)
  throw .done

end Run
end TestBench.Script
