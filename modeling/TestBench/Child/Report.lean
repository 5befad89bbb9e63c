import TestBench.Child.Exit
import TestBench.Environment
import TestBench.FileSystem.Basic
/-!
# Reports

What comes of starting a child.
-/
namespace TestBench.Child

/-- What comes of starting a child: its end or the reason why it did not start, its output, the
files it leaves, and the milliseconds that have passed. -/
structure Report where
  result : Except IoError Exit
  output : String
  files : FileSystem
  elapsed : Nat

/-- How children behave: from the files, the program, its arguments and a time limit in
milliseconds to what comes of it. -/
abbrev Launcher := FileSystem → String → List String → Option Nat → Report

/-- How the children of a run behave, each under the number of the row that starts it: two children
need not do the same, even if they find the same files and arguments. -/
structure Children where
  ofRow : Nat → Launcher

namespace Children

def alike (l : Launcher) : Children := ⟨fun _ => l⟩

instance : Coe Launcher Children := ⟨alike⟩

end Children

end TestBench.Child
