import TestBench.Toml.Scalar
/-!
# TOML documents

Reading a whole document. Brackets and braces nest at most eighty deep, and so do all values,
however their tables came about. The bound on the number of steps is taken from the length of the text: every second step consumes a character.
-/
namespace TestBench.Toml

def deepest : Nat := 80

def skipBlanks (cs : List Char) : List Char := cs.dropWhile isBlank

/-- Skips blanks, line ends and comments, inside a comment if so told. -/
def skipFiller : Bool → List Char → Option (List Char)
  | _, [] => some []
  | _, '\r' :: '\n' :: r => skipFiller false r
  | _, '\n' :: r => skipFiller false r
  | true, c :: r => if isControl c then none else skipFiller true r
  | false, c :: r =>
    if isBlank c then skipFiller false r
    else if c == '#' then skipFiller true r
    else some (c :: r)

/-- The rest of a line may hold blanks and a comment. Answers with the lines after it. -/
def lineEnd : Bool → List Char → Option (List Char)
  | _, [] => some []
  | _, '\r' :: '\n' :: r => some r
  | _, '\n' :: r => some r
  | true, c :: r => if isControl c then none else lineEnd true r
  | false, c :: r =>
    if isBlank c then lineEnd false r else if c == '#' then lineEnd true r else none

def isBareKeyChar (c : Char) : Bool := c.isAlphanum || c == '_' || c == '-'

def simpleKey (cs : List Char) : Option (String × List Char) :=
  match cs with
  | '"' :: r => (basic r).map fun t => (String.ofList t.1, t.2)
  | '\'' :: r => (literal r).map fun t => (String.ofList t.1, t.2)
  | _ =>
    let name := cs.takeWhile isBareKeyChar
    if name.isEmpty then none else some (String.ofList name, cs.dropWhile isBareKeyChar)

/-- A key of one or more parts, with the blanks after it. -/
def dottedKey : Nat → List Char → Option (List String × List Char)
  | 0, _ => none
  | n + 1, cs =>
    match simpleKey cs with
    | none => none
    | some (k, r) =>
      match skipBlanks r with
      | '.' :: r' => (dottedKey n (skipBlanks r')).map fun t => (k :: t.1, t.2)
      | r' => some ([k], r')

mutual

def value : Nat → Nat → List Char → Option (Value × List Char)
  | 0, _, _ => none
  | n + 1, depth, cs =>
    match cs with
    | '[' :: r =>
      if deepest ≤ depth then none
      else (items n (depth + 1) r).map fun t => (.array t.1, t.2)
    | '\x7b' :: r =>
      if deepest ≤ depth then none
      else (pairs n (depth + 1) [] r).map fun t => (.table .inline t.1, t.2)
    | '"' :: _ | '\'' :: _ => (string? cs).map fun t => (.string (String.ofList t.1), t.2)
    | _ => scalar? cs

def items : Nat → Nat → List Char → Option (List Value × List Char)
  | 0, _, _ => none
  | n + 1, depth, cs =>
    match skipFiller false cs with
    | none => none
    | some (']' :: r) => some ([], r)
    | some r =>
      match value n depth r with
      | none => none
      | some (v, r) =>
        match skipFiller false r with
        | some (',' :: r) => (items n depth r).map fun t => (v :: t.1, t.2)
        | some (']' :: r) => some ([v], r)
        | _ => none

/-- The entries of an inline table up to its closing brace, added to those read before. -/
def pairs : Nat → Nat → Table → List Char → Option (Table × List Char)
  | 0, _, _, _ => none
  | n + 1, depth, seen, cs =>
    match skipFiller false cs with
    | none => none
    | some ('\x7d' :: r) => some (seen, r)
    | some r =>
      match dottedKey n r with
      | none => none
      | some (key, r) =>
        match skipFiller false r with
        | some ('=' :: r) =>
          match (skipFiller false r).bind (value n depth) with
          | none => none
          | some (v, r) =>
            match Table.assign key v .header seen, skipFiller false r with
            | some (_, seen), some (',' :: r) => pairs n depth seen r
            | some (_, seen), some ('\x7d' :: r) => some (seen, r)
            | _, _ => none
        | _ => none

end

/-- Reads line by line: the table so far, and the header whose table is open. -/
def lines : Nat → List String → Table → List Char → Option Table
  | 0, _, _, _ => none
  | n + 1, path, t, cs =>
    match skipBlanks cs with
    | [] => some t
    | '[' :: '[' :: r =>
      match dottedKey n (skipBlanks r) with
      | some (key, ']' :: ']' :: r) =>
        match Table.openRow key t, lineEnd false r with
        | some t, some r => lines n key t r
        | _, _ => none
      | _ => none
    | '[' :: r =>
      match dottedKey n (skipBlanks r) with
      | some (key, ']' :: r) =>
        match Table.openTable key t, lineEnd false r with
        | some t, some r => lines n key t r
        | _, _ => none
      | _ => none
    | r =>
      match lineEnd false r with
      | some r => lines n path t r
      | none =>
        match dottedKey n r with
        | some (key, '=' :: r) =>
          match value n 0 (skipBlanks r) with
          | none => none
          | some (v, r) =>
            match Table.assignIn path key v t, lineEnd false r with
            | some t, some r => lines n path t r
            | _, _ => none
        | _ => none

def dropMark : List Char → List Char
  | '\ufeff' :: r => r
  | cs => cs

/-- Reads a document. A value may have at most eighty values around it. -/
def parse (s : String) : Option Table :=
  let cs := dropMark s.toList
  (lines (2 * cs.length + 4) [] [] cs).filter fun t =>
    t.all fun entry => entry.2.fits (deepest + 1)

end TestBench.Toml
