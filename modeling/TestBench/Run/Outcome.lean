import TestBench.Child.Exit
/-!
# Outcomes and totals

What comes of one row of a plan, and the totals of a run.
-/
namespace TestBench

inductive Outcome where
  | executed (exit : Child.Exit) (duration : Duration)
  | spawnFailed (error : String) (duration : Duration)
  | notExecuted
deriving DecidableEq, Repr

/-- A runner that did not start or did not end cleanly. It never ends the run. -/
def Outcome.isProblem : Outcome → Bool
  | .executed exit _ => !exit.success
  | .spawnFailed _ _ => true
  | .notExecuted => false

structure Summary where
  rows : Nat
  executed : Nat
  notExecuted : Nat
  malformed : Nat
  runnerProblems : Nat
  interrupted : Bool
  duration : Duration
deriving DecidableEq, Repr

namespace Summary

def zero : Summary := ⟨0, 0, 0, 0, 0, false, .zero⟩

def countProblem (s : Summary) (problem : Bool) : Summary :=
  if problem then { s with runnerProblems := s.runnerProblems + 1 } else s

def record (s : Summary) (o : Outcome) : Summary :=
  match o with
  | .notExecuted => { s with notExecuted := s.notExecuted + 1 }
  | o => { s with executed := s.executed + 1 }.countProblem o.isProblem

end Summary
end TestBench
