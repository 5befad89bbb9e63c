import TestBench.Text.Split
/-!
# Message templates

A template holds named places, written as a percent sign and a name in braces. Filling replaces all
places at once: a value is never searched for places, and an unknown place stays as it is written.
-/
namespace TestBench.Template

def openBrace : Char := '\x7b'
def closeBrace : Char := '\x7d'

inductive Part where
  | literal (text : List Char)
  | place (name : List Char)
deriving DecidableEq, Repr

def parse (cs : List Char) : List Part :=
  match cs with
  | [] => []
  | '%' :: '\x7b' :: r =>
    match h : Text.cutAt closeBrace r with
    | some (name, rest) =>
      have := Text.cutAt_length h
      .place name :: parse rest
    | none => [.literal ('%' :: openBrace :: r)]
  | c :: r => .literal [c] :: parse r
termination_by cs.length
decreasing_by
  · simp only [List.length_cons]
    omega
  · simp

def Part.fill (values : List (String × String)) : Part → List Char
  | .literal t => t
  | .place name =>
    match values.lookup (String.ofList name) with
    | some v => v.toList
    | none => '%' :: openBrace :: name ++ [closeBrace]

def fill (template : String) (values : List (String × String)) : String :=
  String.ofList ((parse template.toList).flatMap (Part.fill values))

end TestBench.Template
