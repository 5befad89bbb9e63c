/-!
# Shell words

A list of words written as one line of shell text, and such a line read back as words. A word is
cut into chunks, each written bare or in single or double quotes, whichever of the three stays
possible for longest; the simplest possible one is taken.
-/
namespace TestBench.Words

inductive Quoting where
  | bare
  | single
  | double
deriving DecidableEq, Repr

def graveAccent : Char := '\x60'

def bareOk (c : Char) : Bool :=
  c.isAlphanum || c == '+' || c == '-' || c == '.' || c == '/' || c == ':' || c == '@'
    || c == ']' || c == '_'

def singleOk (c : Char) : Bool := c != '\'' && c != '^' && c != '\\'

def doubleOk (c : Char) : Bool := c != graveAccent && c != '$' && c != '!' && c != '^'

structure Choice where
  bare : Bool
  single : Bool
  double : Bool
deriving DecidableEq, Repr

def Choice.any (q : Choice) : Bool := q.bare || q.single || q.double

def Choice.narrow (q : Choice) (c : Char) : Choice :=
  ⟨q.bare && bareOk c, q.single && singleOk c, q.double && doubleOk c⟩

def Choice.pick (q : Choice) : Quoting :=
  if q.bare then .bare else if q.single then .single else .double

/-- Extends a chunk while some quoting stays possible. -/
def chunk (q : Choice) : List Char → List Char × Quoting × List Char
  | [] => ([], q.pick, [])
  | c :: r =>
    if (q.narrow c).any then
      let t := chunk (q.narrow c) r
      (c :: t.1, t.2.1, t.2.2)
    else ([], q.pick, c :: r)

/-- The first chunk of a word. A caret stands only first in a chunk, and in single quotes. -/
def firstChunk (c : Char) (r : List Char) : List Char × Quoting × List Char :=
  let t := chunk (if c == '^' then ⟨false, true, false⟩ else
    Choice.narrow ⟨true, true, true⟩ c) r
  (c :: t.1, t.2.1, t.2.2)

theorem chunk_rest_length (q : Choice) (cs : List Char) :
    (chunk q cs).2.2.length ≤ cs.length := by
  induction cs generalizing q with
  | nil => simp [chunk]
  | cons c r ih =>
    simp only [chunk]
    split
    · exact Nat.le_succ_of_le (ih _)
    · simp

theorem chunk_append (q : Choice) (cs : List Char) :
    (chunk q cs).1 ++ (chunk q cs).2.2 = cs := by
  induction cs generalizing q with
  | nil => simp [chunk]
  | cons c r ih =>
    simp only [chunk]
    split
    · simp [ih]
    · simp

def escapeDouble (c : Char) : List Char :=
  if c == '$' || c == graveAccent || c == '"' || c == '\\' then ['\\', c] else [c]

def writeChunk (cs : List Char) : Quoting → List Char
  | .bare => cs
  | .single => '\'' :: cs ++ ['\'']
  | .double => '"' :: cs.flatMap escapeDouble ++ ['"']

def quoteChunks : List Char → List Char
  | [] => []
  | c :: r =>
    let t := firstChunk c r
    writeChunk t.1 t.2.1 ++ quoteChunks t.2.2
termination_by cs => cs.length
decreasing_by exact Nat.lt_succ_of_le (chunk_rest_length _ _)

def quote (cs : List Char) : List Char := if cs.isEmpty then ['\'', '\''] else quoteChunks cs

def joinSpaced : List (List Char) → List Char
  | [] => []
  | [w] => w
  | w :: v :: ws => w ++ ' ' :: joinSpaced (v :: ws)

/-- One line for a list of words. No quoting can hold a NUL, so with one the words stand bare. -/
def display (ws : List (List Char)) : List Char :=
  if ws.any (·.contains '\x00') then joinSpaced ws else joinSpaced (ws.map quote)

def commandLine (program : String) (args : List String) : String :=
  String.ofList (display ((program :: args).map String.toList))

inductive Mode where
  | gap
  | comment
  | word
  | escape
  | single
  | double
  | doubleEscape
deriving DecidableEq, Repr

def isGap (c : Char) : Bool := c == ' ' || c == '\t' || c == '\n'

/-- Reads on in a mode; the word begun is kept last character first. `none` if a quotation or an
escape does not end. -/
def splitFrom : Mode → List Char → List Char → Option (List (List Char))
  | .gap, _, [] => some []
  | .comment, _, [] => some []
  | .word, w, [] => some [w.reverse]
  | .escape, _, [] => none
  | .single, _, [] => none
  | .double, _, [] => none
  | .doubleEscape, _, [] => none
  | .gap, _, c :: r =>
    if isGap c then splitFrom .gap [] r
    else if c == '#' then splitFrom .comment [] r
    else if c == '"' then splitFrom .double [] r
    else if c == '\'' then splitFrom .single [] r
    else if c == '\\' then splitFrom .escape [] r
    else splitFrom .word [c] r
  | .comment, _, c :: r => if c == '\n' then splitFrom .gap [] r else splitFrom .comment [] r
  | .word, w, c :: r =>
    if isGap c then (splitFrom .gap [] r).map (w.reverse :: ·)
    else if c == '"' then splitFrom .double w r
    else if c == '\'' then splitFrom .single w r
    else if c == '\\' then splitFrom .escape w r
    else splitFrom .word (c :: w) r
  | .escape, w, c :: r => splitFrom .word (if c == '\n' then w else c :: w) r
  | .single, w, c :: r => if c == '\'' then splitFrom .word w r else splitFrom .single (c :: w) r
  | .double, w, c :: r =>
    if c == '"' then splitFrom .word w r
    else if c == '\\' then splitFrom .doubleEscape w r
    else splitFrom .double (c :: w) r
  | .doubleEscape, w, c :: r =>
    splitFrom .double
      (if c == '$' || c == graveAccent || c == '"' || c == '\\' then c :: w
       else if c == '\n' then w else c :: '\\' :: w) r

def split? (cs : List Char) : Option (List (List Char)) := splitFrom .gap [] cs

end TestBench.Words
