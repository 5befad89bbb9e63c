import TestBench.Script.Source
/-!
# The parts of words

What words are made of: the settings in which their characters mean different things, quotes, names,
and the heads of parameters in braces.
-/
namespace TestBench.Script

open Reading

def graveAccent : Char := '\x60'

def openBrace : Char := '\x7b'
def closeBrace : Char := '\x7d'

def endsWord (c : Char) : Bool :=
  c == ' ' || c == '\t' || c == '\n' || c == ';' || c == '&' || c == '|' || c == '<' || c == '>'
    || c == '(' || c == ')'

/-- Where the pieces of a word stand. Quotes within quoted braces may be open. -/
inductive Setting where
  | bare
  | braces
  | quotes (inBraces : Bool)
  | quotedBraces (isOpen inDocument : Bool)
  | arithmetic (depth : Nat)
  | document
deriving DecidableEq, Repr

namespace Setting

def isQuoted : Setting → Bool
  | .bare | .braces => false
  | _ => true

def inBraces : Setting → Bool
  | .braces => true
  | .quotes b => b
  | .quotedBraces _ _ => true
  | _ => false

/-- Whether a backslash before a character goes away. -/
def escapes (s : Setting) (c : Char) : Bool :=
  !s.isQuoted || c == '\\' || c == graveAccent || c == '$'
    || (c == '"' && s != .document) || (c == closeBrace && s.inBraces)

/-- What is wrong with a text that ends here. In a document quotes may stay open. -/
def openMessage (inDocument : Bool) : Setting → Option String
  | .bare | .document => none
  | .braces | .quotedBraces _ true => some "Syntax error: Missing '\x7d'"
  | .quotes _ | .quotedBraces _ false =>
    some (if inDocument then "Syntax error: Missing '\x7d'"
      else "Syntax error: Unterminated quoted string")
  | .arithmetic _ => some "Syntax error: Missing '))'"

end Setting

def syntaxError {α : Type} (message : Chars) : Reading α := wrong (str "Syntax error: " ++ message)

/-- The token that has been read is not the one that has to stand here. -/
def unexpected {α : Type} (expected : Option Token) : Reading α := do
  let t := (← get).token
  syntaxError (str t.name ++ str " unexpected"
    ++ (match expected with
      | some e => str " (expecting " ++ str e.name ++ [')']
      | none => []))

def modifierOf (c : Char) : Option Modifier :=
  if c == '-' then some .orDefault else if c == '+' then some .alternative
  else if c == '?' then some .orFail else if c == '=' then some .orAssign else none

def skipBlanks : Nat → Reading (Option Char)
  | 0 => look
  | n + 1 => do
    match ← look with
    | some '#' =>
      skipLine n
      look
    | some c =>
      if c == ' ' || c == '\t' then
        skip
        skipBlanks n
      else pure (some c)
    | none => pure none
where
  skipLine : Nat → Reading Unit
    | 0 => pure ()
    | n + 1 => do
      match ← peek with
      | none => pure ()
      | some c =>
        if c == '\n' then pure ()
        else
          skip
          skipLine n

def singleQuoted : Nat → List Piece → Reading (List Piece)
  | 0, acc => pure acc
  | n + 1, acc => do
    match ← next with
    | none => syntaxError (str "Unterminated quoted string")
    | some c => if c == '\'' then pure (.mark :: acc) else singleQuoted n (.char true c :: acc)

def nameRest : Nat → Chars → Reading Chars
  | 0, acc => pure acc.reverse
  | n + 1, acc => do
    match ← look with
    | some c =>
      if isNameChar c then
        skip
        nameRest n (c :: acc)
      else pure acc.reverse
    | none => pure acc.reverse

def digitsRest : Nat → Chars → Reading Chars
  | 0, acc => pure acc.reverse
  | n + 1, acc => do
    match ← look with
    | some c =>
      if c.isDigit then
        skip
        digitsRest n (c :: acc)
      else pure acc.reverse
    | none => pure acc.reverse

/-- The text between two grave accents, with the escapes that count there taken out. -/
def graveText (quoted : Bool) : Nat → Chars → Reading Chars
  | 0, acc => pure acc.reverse
  | n + 1, acc => do
    match ← take with
    | none => syntaxError (str "EOF in backquote substitution")
    | some c =>
      if c == graveAccent then pure acc.reverse
      else if c == '\\' then
        match ← next with
        | none => syntaxError (str "EOF in backquote substitution")
        | some d =>
          let plain := d == '\\' || d == graveAccent || d == '$' || (quoted && d == '"')
          graveText quoted n (if plain then d :: acc else d :: '\\' :: acc)
      else graveText quoted n (c :: acc)

structure ParameterHead where
  name : Chars
  modifier : Modifier
  orNull : Bool
deriving DecidableEq, Repr

def readModifier : Reading (Modifier × Bool) := do
  match ← look with
  | some ':' =>
    skip
    let c ← look
    swallow
    match c.bind modifierOf with
    | some m => pure (m, true)
    | none => pure (if c = some closeBrace then .cut else .bad, true)
  | some c =>
    if c == '%' || c == '#' then
      skip
      let longest ← accept c
      pure (.trim (c == '#') longest, false)
    else if c == closeBrace then
      skip
      pure (.plain, false)
    else
      swallow
      pure ((modifierOf c).getD .bad, false)
  | none => pure (.bad, false)

/-- The head of a parameter after its opening brace. A number sign may ask for a length or be the
name itself. -/
def readHead (n : Nat) : Reading ParameterHead := do
  let bad : ParameterHead := ⟨[], .bad, false⟩
  let named := fun (name : Chars) => do
    let (m, orNull) ← readModifier
    pure (⟨name, m, orNull⟩ : ParameterHead)
  let measured := fun (name : Chars) => do
    if ← accept closeBrace then pure (⟨name, .length, false⟩ : ParameterHead)
    else pure { bad with name := name }
  match ← look with
  | none => pure bad
  | some c =>
    if isNameStart c then
      skip
      named (← nameRest n [c])
    else if c.isDigit then
      skip
      named (← digitsRest n [c])
    else if c == closeBrace then pure bad
    else
      swallow
      if c == '#' then
        match ← look with
        | none => named ['#']
        | some d =>
          if isNameStart d then
            skip
            measured (← nameRest n [d])
          else if d.isDigit then
            skip
            measured (← digitsRest n [d])
          else if d == closeBrace then named ['#']
          else
            let s ← get
            skip
            if (← look) == some closeBrace then
              if isSpecial d then measured [d] else pure bad
            else
              set s
              named ['#']
      else if isSpecial c then named [c]
      else pure bad

end TestBench.Script
