import TestBench.Text.Decimal
import TestBench.Text.Space
import TestBench.Text.Split
/-!
# Lines of a test plan

A line has five fields between commas, kept as they are written; white space at the end of the line
does not count. A line with another number of fields is malformed.
-/
namespace TestBench.Plan

structure Row where
  lineNumber : Nat
  testName : String
  subTestName : String
  paramA : String
  paramB : String
  flag : String
deriving DecidableEq, Repr

structure Malformed where
  lineNumber : Nat
  fieldCount : Nat
  content : String
deriving DecidableEq, Repr

inductive Line where
  | row (r : Row)
  | malformed (m : Malformed)
deriving DecidableEq, Repr

def fieldsPerRow : Nat := 5

def Row.isEnabled (r : Row) : Bool := r.flag == "enabled"

/-- The name in the results table; the sub-test `none` stands for no sub-test. -/
def Row.displayName (r : Row) : String :=
  if r.subTestName = "none" then r.testName else r.testName ++ "-" ++ r.subTestName

def Malformed.message (m : Malformed) : String :=
  "line " ++ Decimal.text m.lineNumber ++ ": expected " ++ Decimal.text fieldsPerRow
    ++ " fields, found " ++ Decimal.text m.fieldCount ++ ": '" ++ m.content ++ "'"

def isBlank (cs : List Char) : Bool := (Text.trimEnd cs).isEmpty

def parseChars (number : Nat) (cs : List Char) : Line :=
  let line := Text.trimEnd cs
  match Text.splitOn ',' line with
  | [name, sub, a, b, flag] =>
    .row ⟨number, .ofList name, .ofList sub, .ofList a, .ofList b, .ofList flag⟩
  | fields => .malformed ⟨number, fields.length, .ofList line⟩

def parse (number : Nat) (raw : String) : Line := parseChars number raw.toList

end TestBench.Plan
