import TestBench.Process.Image
import TestBench.Tool.Cat
import TestBench.Tool.Echo
import TestBench.Tool.Head
import TestBench.Tool.Printf
import TestBench.Tool.Remove
import TestBench.Tool.Sequence
import TestBench.Tool.Sleep
import TestBench.Tool.Touch
import TestBench.Tool.Translate
/-!
# The tools of the bench

The small programs that runners call, by name. One of them runs another with an environment of its
own.
-/
namespace TestBench.Tool

open Process

namespace Environment

structure Style where
  empty : Bool
  unset : List Chars
  zero : Bool
  directory : Option Chars
deriving DecidableEq, Repr

def options : Options where
  short := [('i', .nothing), ('0', .nothing), ('u', .argument), ('C', .argument), ('v', .nothing)]
  long := [("ignore-environment", .nothing, 'i'), ("null", .nothing, '0'), ("unset", .argument, 'u'),
    ("chdir", .argument, 'C')] ++ Options.common
  inOrder := true

def nameOf (entry : Chars) : Chars := entry.takeWhile (· != '=')

def assign (env : List Chars) (entry : Chars) : List Chars :=
  if env.any fun e => nameOf e = nameOf entry then
    env.map fun e => if nameOf e = nameOf entry then entry else e
  else env ++ [entry]

/-- Tries to execute at each path; a script without an interpreter is read by the shell. -/
def attempt (args env : List Bytes) (denied : Bool) : List Bytes → Job Errno
  | [] => pure (if denied then .denied else .noEntry)
  | p :: ps => do
    match ← call (.execute p args env) with
    | .denied => attempt args env true ps
    | .noEntry | .notDirectory => attempt args env denied ps
    | .execFormat =>
      call (.execute (Path.ofText "/bin/sh") (Path.ofText "/bin/sh" :: p :: args.drop 1) env)
    | e => pure e

def paths (search : Option Bytes) (name : Bytes) : List Bytes :=
  if name.contains Path.slash then [name]
  else (Text.splitOn Image.colon (search.getD Image.standardSearch)).map (Image.inDirectory · name)

def setOption (s : Style) (letter : Char) (value : Chars) : Job Style :=
  pure (match letter with
    | 'i' => { s with empty := true }
    | '0' => { s with zero := true }
    | 'u' => { s with unset := s.unset ++ [value] }
    | 'C' => { s with directory := some value }
    | _ => s)

def job (env args : List Chars) : Job Unit := do
  let p := options.parse args
  let s ← eachOption p.met ⟨false, [], false, none⟩ setOption
  let (empty, words) := match p.operands with
    | ['-'] :: r => (true, r)
    | r => (s.empty, r)
  let start := if empty then [] else env.filter fun e => !s.unset.contains (nameOf e)
  let assigned := words.takeWhile (·.contains '=')
  let env := assigned.foldl assign start
  match words.drop assigned.length with
  | [] =>
    if s.directory.isSome then misuse [str "must specify command with --chdir (-C)"]
    put (env.flatMap fun e => e ++ [if s.zero then '\x00' else '\n'])
  | name :: rest =>
    if s.zero then misuse [str "cannot specify --null (-0) with command"]
    match s.directory with
    | none => pure ()
    | some d =>
      match ← call (.enter (Chars.toBytes d)) with
      | .ok _ => pure ()
      | .error e =>
        warn [str "cannot change directory to ", Quote.always d, reason e]
        finish (← get).failure
    let search := (env.find? fun e => nameOf e = str "PATH").map fun e => Chars.toBytes (e.drop 5)
    let e ← attempt ((name :: rest).map Chars.toBytes) (env.map Chars.toBytes) false
      (paths search (Chars.toBytes name))
    warn [Quote.always name, reason e]
    finish (if e = .noEntry then 127 else 126)

end Environment

def named (name : String) (env args : List Chars) : Option (Job Unit) :=
  match name with
  | "cat" => some (Cat.job args)
  | "echo" => some (Echo.job args)
  | "env" => some (Environment.job env args)
  | "false" => some fail
  | "head" => some (Head.job args)
  | "printf" => some (Printf.job args)
  | "rm" => some (Remove.job args)
  | "seq" => some (Sequence.job args)
  | "sleep" => some (Sleep.job args)
  | "touch" => some (Touch.job args)
  | "tr" => some (Translate.job args)
  | "true" => some (pure ())
  | _ => none

/-- The code with which a tool fails. One that runs others keeps out of the way of their codes. -/
def failureOf (name : String) : Nat := if name = "env" then 125 else 1

def image (name : String) (args env : List Bytes) : Option Program :=
  let words := args.map Chars.ofBytes
  (named name (env.map Chars.ofBytes) (words.drop 1)).map fun job =>
    (run (words.head?.getD []) (failureOf name) job).program

end TestBench.Tool
