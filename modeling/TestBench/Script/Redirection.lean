import TestBench.Script.Names
/-!
# Redirections

Descriptors are changed for a command and put back after it. What they were is kept beyond the
descriptors that a script can name.
-/
namespace TestBench.Script

open Process

/-- A redirection whose words have been expanded. -/
inductive Target where
  | file (fd : Nat) (how : OpenAs) (name : Chars)
  | copy (fd : Nat) (source : Option Nat)
  | document (fd number : Nat)
deriving DecidableEq, Repr

def Target.fd : Target → Nat
  | .file fd _ _ => fd
  | .copy fd _ => fd
  | .document fd _ => fd

abbrev Formers := List (Nat × Former)

/-- What a target opens: nothing new, the end of the descriptor, or another descriptor. -/
inductive Opened where
  | unchanged
  | closed
  | at (fd : Nat)
deriving DecidableEq, Repr

namespace Run

def leastKept : Nat := 10

/-- What is written in one piece to the pipe of a document. -/
def documentPiece : Nat := 4096

def resolve (e : Engine) : Redirect → Run Target
  | .file fd how w => return .file fd how (← expandText e .forText w)
  | .copy fd _ source => pure (.copy fd source)
  | .copyOf fd _ w => do
    match ← expandText e .forText w with
    | ['-'] => pure (.copy fd none)
    | [d] =>
      if d.isDigit then pure (.copy fd (some (d.toNat - 48)))
      else badDescriptor
    | _ => badDescriptor
  | .document fd number => pure (.document fd number)
where
  badDescriptor {α : Type} : Run α := do
    Engine.syntaxFault ((← get).reading.headD 1) (str "Syntax error: Bad fd number")

def openAt (name : Chars) (m : Mode) : Run Opened := do
  match ← call (.openPath (Chars.toBytes name) m) with
  | .ok fd => pure (.at fd)
  | .error err =>
    let (verb, missing) := if m.create then ("create", missingDirectory) else ("open", missingFile)
    fail (str "cannot " ++ str verb ++ ' ' :: name ++ str ": " ++ reason missing err)

/-- Opens a file that must not be there yet, or that is no plain file. -/
def openNew (name : Chars) : Run Opened := do
  match ← call (.inspect (Chars.toBytes name) true) with
  | .error _ => openAt name .fresh
  | .ok f =>
    if f.kind = .file then fail (str "cannot create " ++ name ++ str ": " ++ str Errno.exists.describe)
    else openAt name .present

def openFile (name : Chars) : OpenAs → Run Opened
  | .input => openAt name .reading
  | .both => openAt name .both
  | .append => openAt name .appending
  | .clobber => openAt name .writing
  | .output => do
    if ← has "noclobber" then openNew name else openAt name .writing

/-- A pipe that holds a document. One that is long is written by a child. -/
def openDocument (e : Engine) (number : Nat) : Run Opened := do
  let (out, into) ← call .pipe
  let word := ((← get).documents.lookup number).getD []
  let text := Chars.toBytes (← expandText e .forDocument word)
  if text.length ≤ documentPiece then
    let _ ← writeAll into stepBound text
  else
    let _ ← e.fork none .front do
      let _ ← call (.close out)
      let _ ← writeAll into stepBound text
      exitNow 0
  let _ ← call (.close into)
  pure (.at out)

def openTarget (e : Engine) : Target → Run Opened
  | .file _ how name => openFile name how
  | .copy _ none => pure .closed
  | .copy fd (some source) => pure (if source = fd then .unchanged else .at source)
  | .document _ number => openDocument e number

def moveAway (fd : Nat) : Run Former := do
  match ← call (.copy fd leastKept) with
  | .error _ => pure .closed
  | .ok kept =>
    let _ ← call (.close fd)
    pure (.copied kept)

def install (t : Target) (opened : Nat) : Run Unit := do
  match ← call (.copyTo opened t.fd) with
  | .ok _ => pure ()
  | .error err => fail (Decimal.render opened ++ str ": " ++ str err.describe)
  match t with
  | .copy _ _ => pure ()
  | _ =>
    let _ ← call (.close opened)

/-- Changes one descriptor. With `keeps` what it was is kept. -/
def redirectOne (e : Engine) (keeps : Bool) (formers : Formers) (t : Target) : Run Formers := do
  let opened ← openTarget e t
  let fd := t.fd
  if opened = .unchanged then pure formers
  else if opened = .at fd then
    pure (if keeps && (formers.lookup fd).isNone then (fd, .closed) :: formers else formers)
  else
    let fresh := keeps && (formers.lookup fd).isNone
    let former ← if fresh then moveAway fd else pure .same
    let former : Former := if former = .closed && opened = .closed then .same else former
    let formers := if fresh then (fd, former) :: formers else formers
    modify fun s => { s with opening := formers }
    match opened with
    | .at n => install t n
    | _ =>
      let _ ← call (.close fd)
    pure formers

def redirectEach (e : Engine) (keeps : Bool) : Formers → List Target → Run Formers
  | formers, [] => pure formers
  | formers, t :: ts => do
    modify fun s => { s with opening := formers }
    let formers ← redirectOne e keeps formers t
    redirectEach e keeps formers ts

/-- Changes descriptors; answers with what they were, also if something goes wrong on the way. -/
def redirect (e : Engine) (keeps : Bool) (ts : List Target) : Run (Except Stop Unit × Formers) := do
  modify fun s => { s with opening := [] }
  match ← attempt (redirectEach e keeps [] ts) with
  | .ok formers => pure (.ok (), formers)
  | .error stop => pure (.error stop, (← get).opening)

/-- Puts descriptors back, or only forgets what they were. -/
def putBack (formers : Formers) (forget : Bool) : Run Unit :=
  formers.forM fun (fd, former) => do
    match former with
    | .same => pure ()
    | .closed =>
      if !forget then
        let _ ← call (.close fd)
    | .copied kept =>
      if !forget then
        let _ ← call (.copyTo kept fd)
      let _ ← call (.close kept)

end Run
end TestBench.Script
