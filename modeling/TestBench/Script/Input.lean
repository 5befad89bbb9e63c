import TestBench.Script.Redirection
/-!
# Scripts in files

A script is read from a descriptor in blocks, as far as its next command needs it, and each command
is run before the one after it is read.
-/
namespace TestBench.Script

open Process

namespace Engine

open Run

def blockSize : Nat := 8192

def readBlock (fd : Nat) : Nat → Run (Option Chars)
  | 0 => pure none
  | n + 1 => do
    match ← call (.read fd blockSize) with
    | .error .interrupted => readBlock fd n
    | .error _ => pure none
    | .ok bs => pure (if bs.isEmpty then none else some ((Chars.ofBytes bs).filter (· != '\x00')))

def showLines (text : Chars) : Run Unit := do
  if ← has "verbose" then remark text

/-- The lines at the front of a text of which some characters have been read. -/
def wholeLines (count : Nat) (text : Chars) : Chars :=
  let read := text.take count
  if read.isEmpty || read.getLast? = some '\n' then read
  else
    let left := text.drop count
    let line := left.takeWhile (· != '\n')
    read ++ line ++ (left.drop line.length).take 1

/-- What reading a command line gives, with the text it was read from and whether all of that has been
got. -/
structure Portion where
  text : Chars
  complete : Bool
  result : Except (Nat × Nat × Chars) ReadLine

def readPortion (fd line : Nat) : Nat → Chars → Bool → Run Portion
  | 0, text, complete => pure ⟨text, complete, .error (line, 0, [])⟩
  | n + 1, text, complete => do
    let s ← get
    match readLine text line complete s.aliases s.documents s.fresh with
    | .error .more =>
      match ← readBlock fd stepBound with
      | some more => readPortion fd line n (text ++ more) complete
      | none => readPortion fd line n text true
    | .error (.wrong l left message) => pure ⟨text, complete, .error (l, left, message)⟩
    | .ok r => pure ⟨text, complete, .ok r⟩

def prompt (e : Engine) (name : String) : Run Unit := do remark (← expandPrompt e name)

def promptFurther (e : Engine) (read : Chars) : Run Unit :=
  (read.filter (· == '\n')).forM fun _ => prompt e "PS2"

/-- Runs the commands of a file one by one, perhaps asking for each. A function that is left from
outside ends the file. -/
def runLines (e : Engine) (asks : Bool) (fd : Nat) : Nat → Chars → Nat → Bool → Int → Run Int
  | 0, _, _, _, status => pure status
  | n + 1, text, line, complete, status => do
    if asks then prompt e "PS1"
    let p ← readPortion fd line stepBound text complete
    match p.result with
    | .error (l, left, message) =>
      let read := p.text.take (p.text.length - left)
      showLines (wholeLines read.length p.text)
      if asks then promptFurther e (if left = 0 then read else read.dropLast)
      syntaxFault l message
    | .ok r =>
      let read := p.text.take (p.text.length - r.rest.length)
      showLines read
      noteReading r
      match r.command with
      | none => pure status
      | some command =>
        if asks then promptFurther e read.dropLast
        let status ← match command with
          | some c => e.evaluate .none c
          | none =>
            e.heed
            pure status
        let skip := (← get).skip
        if skip = .nothing then runLines e asks fd n r.rest r.line p.complete status
        else
          if skip = .back || skip = .plainBack then modify fun s => { s with skip := .nothing }
          pure status

/-- Runs a file, the outermost of those that are being read or one within another. -/
def runFile (e : Engine) (outermost : Bool) (fd : Nat) : Run Int := do
  let outer := (← get).reading
  if !outermost then modify fun s => { s with reading := 1 :: outer }
  let asks := outermost && (← has "interactive")
  let status ← runLines e asks fd stepBound [] 1 false 0
  modify fun s => { s with reading := outer }
  pure status

/-- Opens a script out of the way of the descriptors that scripts name. -/
def openScript (p : Chars) : Run Nat := do
  match ← openAt p .reading with
  | .at fd =>
    if leastKept ≤ fd then pure fd
    else match ← moveAway fd with
      | .copied kept => pure kept
      | _ => pure fd
  | _ => pure 0

end Engine
end TestBench.Script
