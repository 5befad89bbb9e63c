import TestBench.Script.Search
import TestBench.Script.Token
/-!
# What commands are

The shell's own commands that say what a name stands for and where programs have been found.
-/
namespace TestBench.Script.Describing

open Process Run

def findPresent (name : Chars) (list : Option Chars) : Run Found := do
  let found ← findCommand name true false list
  if !name.contains '/' then pure found
  else match ← call (.inspect (Chars.toBytes name) true) with
    | .ok _ => pure found
    | .error _ => pure .missing

/-- Says what a name stands for, at length or shortly; answers with a status. -/
def describe (name : Chars) (list : Option Chars) (long : Bool) : Run Int := do
  let line := fun (text : Chars) => do
    put ((if long then name ++ ' ' :: text else name) ++ ['\n'])
    pure (0 : Int)
  let s ← get
  if Token.isReserved (String.ofList name) then line (str "is a shell keyword")
  else match s.aliases.lookup name with
    | some value =>
      if long then line (str "is an alias for " ++ value)
      else
        put (str "alias " ++ name ++ '=' :: Variable.quote value ++ ['\n'])
        pure 0
    | none =>
      let known := list.isNone && (s.found.lookup name).isSome
      match ← findPresent name list with
      | .function _ => line (str "is a shell function")
      | .own own =>
        line (str (if Commands.special.contains own then "is a special shell builtin"
          else "is a shell builtin"))
      | .program place =>
        let paths := Search.paths (list.getD (← searchList)) name
        let p := match place with
          | some k => paths.getD k name
          | none => name
        put ((if long then name ++ str (if known then " is a tracked alias for " else " is ") ++ p
          else p) ++ ['\n'])
        pure 0
      | .missing =>
        if long then put (name ++ str ": not found\n")
        pure 127

def type (words : List Chars) : Run Int := do
  let results ← words.mapM fun w => describe w none true
  pure (results.foldl (fun a b => if a = 0 then b else a) 0)

/-- What is left of the describing command when nothing is to be run. -/
def command (words : List Chars) : Run Int := do
  let (met, words) ← options [('p', false), ('v', false), ('V', false)] words
  let list := if met.any (·.1 == 'p') then some Search.standardList else none
  let long := met.any (·.1 == 'V')
  match words with
  | w :: _ => if long || met.any (·.1 == 'v') then describe w list long else pure 0
  | [] => pure 0

def hashRows : Nat := 31

def hash (words : List Chars) : Run Int := do
  let (met, words) ← options [('r', false)] words
  if !met.isEmpty then
    modify fun s => { s with found := [] }
    pure 0
  else if words.isEmpty then
    let list ← searchList
    (Table.ordered hashRows (·.1) (← get).found).forM fun (name, place) =>
      put ((Search.paths list name).getD place name ++ ['\n'])
    pure 0
  else
    let results ← words.mapM fun w => do
      modify fun s => { s with found := s.found.filter (·.1 != w) }
      match ← findCommand w true true none with
      | .missing => pure (1 : Int)
      | _ => pure 0
    pure (results.foldl max 0)

end TestBench.Script.Describing
