/-!
# Colored text

Text wrapped in terminal color codes. Where the text ends a style of its own, the outer style is
started again.
-/
namespace TestBench

inductive Style where
  | cyan
  | yellow
  | red
  | blue
  | bold
  | dimmed
  | yellowBold
deriving DecidableEq, Repr

namespace Style

def escape : Char := '\x1b'

def code : Style → List Char
  | .cyan => ['3', '6']
  | .yellow => ['3', '3']
  | .red => ['3', '1']
  | .blue => ['3', '4']
  | .bold => ['1']
  | .dimmed => ['2']
  | .yellowBold => ['1', ';', '3', '3']

def opening (s : Style) : List Char := escape :: '[' :: s.code ++ ['m']

def closing : List Char := [escape, '[', '0', 'm']

/-- Starts the style again after every end of a style inside the text. -/
def restart (s : Style) : List Char → List Char
  | [] => []
  | '\x1b' :: '[' :: '0' :: 'm' :: r => closing ++ s.opening ++ restart s r
  | c :: r => c :: restart s r

def wrap (s : Style) (text : List Char) : List Char := s.opening ++ restart s text ++ closing

def paint (colored : Bool) (s : Style) (text : String) : String :=
  if colored then String.ofList (s.wrap text.toList) else text

inductive Strip where
  | plain
  | escaped
  | inCode
deriving DecidableEq, Repr

/-- Deletes each color code, from the escape character to the letter that ends it. -/
def stripFrom : Strip → List Char → List Char
  | _, [] => []
  | .plain, c :: r => if c == escape then stripFrom .escaped r else c :: stripFrom .plain r
  | .escaped, c :: r => if c == '[' then stripFrom .inCode r else c :: stripFrom .plain r
  | .inCode, c :: r => if c == 'm' then stripFrom .plain r else stripFrom .inCode r

def strip (cs : List Char) : List Char := stripFrom .plain cs

end Style
end TestBench
