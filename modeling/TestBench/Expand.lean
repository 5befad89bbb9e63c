import TestBench.Environment
import TestBench.Text.Alphanumeric
import TestBench.Text.Split
/-!
# Variables and the home directory in settings

A setting may name environment variables and may begin with a tilde for the home directory.
Variables are replaced first, in one pass; a tilde that only a variable brought to the front stands
for itself.
-/
namespace TestBench.Expand

def isNameChar (c : Char) : Bool := Text.isAlphanumeric c || c == '_'

/-- Splits the inside of braces at `:-` into a name and a default. A name is never empty here. -/
def splitDefault : List Char → List Char × Option (List Char)
  | [] => ([], none)
  | ':' :: '-' :: r => ([], some r)
  | c :: r => let t := splitDefault r; (c :: t.1, t.2)

def braced (body : List Char) : List Char × Option (List Char) :=
  match splitDefault body with
  | ([], some _) => (body, none)
  | t => t

/-- Replaces the variables of a text. The error is the first name that has no value. -/
def substitute (env : Environment) (cs : List Char) : Except String (List Char) :=
  match cs with
  | [] => .ok []
  | '$' :: '\x7b' :: r =>
    match h : Text.cutAt '\x7d' r with
    | none => (substitute env r).map ('$' :: '\x7b' :: ·)
    | some (body, rest) =>
      have := Text.cutAt_length h
      let t := braced body
      match env.get? (String.ofList t.1), t.2 with
      | some v, _ => (substitute env rest).map (v.toList ++ ·)
      | none, some d => (substitute env rest).map (d ++ ·)
      | none, none => .error (String.ofList t.1)
  | '$' :: '$' :: r => (substitute env r).map ('$' :: ·)
  | '$' :: c :: r =>
    if isNameChar c then
      let name := c :: r.takeWhile isNameChar
      match env.get? (String.ofList name) with
      | some v => (substitute env (r.dropWhile isNameChar)).map (v.toList ++ ·)
      | none => .error (String.ofList name)
    else (substitute env (c :: r)).map ('$' :: ·)
  | c :: r => (substitute env r).map (c :: ·)
termination_by cs.length
decreasing_by
  · simp only [List.length_cons]
    omega
  · simp only [List.length_cons]
    omega
  · simp only [List.length_cons]
    omega
  · simp only [List.length_cons]
    omega
  · have := (List.dropWhile_suffix isNameChar (l := r)).length_le
    simp only [List.length_cons]
    omega
  · simp
  · simp

/-- Replaces a leading tilde that stands alone or before a slash. -/
def home (env : Environment) : List Char → List Char
  | '~' :: r =>
    if r.isEmpty || r.head? == some '/' then
      match env.get? "HOME" with
      | some h => if h.isEmpty then '~' :: r else h.toList ++ r
      | none => '~' :: r
    else '~' :: r
  | cs => cs

def full (env : Environment) (s : String) : Except String String :=
  (substitute env s.toList).map fun cs =>
    String.ofList (if s.toList.head? == some '~' then home env cs else cs)

def lookupFailure (name : String) : String :=
  "error looking key '" ++ name
    ++ "' up: environment variable not found: environment variable not found"

end TestBench.Expand
