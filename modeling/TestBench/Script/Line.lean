import TestBench.Script.Reader
/-!
# Command lines

A script is read by command lines: as many commands as stand up to the end of a line, with all the
lines that they need. A text can also be read as if it stood in a document.
-/
namespace TestBench.Script

open Reading

/-- Reads a command up to the end of its line; nothing is left at the end of the text. -/
def commandLine : Nat → Option Command → Reading (Option (Option Command))
  | 0, first => pure (some first)
  | n + 1, first => do
    setLooks .forCommand
    match ← nextToken n with
    | .newline =>
      readDocuments n
      pure (some first)
    | .fileEnd =>
      readDocuments n
      modify fun s => { s with again := true, token := .fileEnd }
      pure (first.map some)
    | _ =>
      takeBack
      let one ← andOr n
      let t ← nextToken n
      let one := if t = .ampersand then inBackground one else one
      let all := some (match first with
        | none => one
        | some f => .sequence f one)
      match t with
      | .newline | .fileEnd =>
        takeBack
        commandLine n all
      | .ampersand | .semicolon => commandLine n all
      | _ => unexpected none

/-- A command line that has been read. There is none at the end of the text, and an empty line has
no command. -/
structure ReadLine where
  command : Option (Option Command)
  rest : Chars
  line : Nat
  atEnd : Bool
  documents : List (Nat × Word)
  fresh : Nat

def readLine (text : Chars) (line : Nat) (complete : Bool) (aliases : List (Chars × Chars))
    (documents : List (Nat × Word)) (fresh : Nat) : Except Trouble ReadLine :=
  let start := Source.ofText text line complete aliases documents fresh
  match (commandLine (20 * text.length + 1000000) none).run start with
  | .error e => .error e
  | .ok (c, s) =>
    .ok ⟨c, s.rest, s.line, s.again && s.token = .fileEnd, s.documents, s.fresh⟩

def quotedText : Nat → List Piece → Reading (List Piece)
  | 0, acc => pure acc
  | n + 1, acc => do
    let line ← pieces n .document acc
    match ← next with
    | none => pure line
    | some c => quotedText n (.char false c :: line)

/-- Reads a text as if it stood in a document; one that cannot be read stands for itself. -/
def readQuoted (text : Chars) : Word :=
  match (quotedText (text.length + 1000) []).run (Source.ofText text 1 true [] [] 0) with
  | .ok (w, _) => w.reverse
  | .error _ => text.map (.char true)

end TestBench.Script
