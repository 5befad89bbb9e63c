import TestBench.Script.Builtin.Condition
import TestBench.Script.Builtin.Control
import TestBench.Script.Builtin.Describing
import TestBench.Script.Builtin.Naming
import TestBench.Script.Builtin.Place
import TestBench.Script.Builtin.Printing
import TestBench.Script.Builtin.Waiting
/-!
# The shell's own commands

What each command that is part of the shell does with its words.
-/
namespace TestBench.Script

namespace Commands

def run (e : Engine) (flags : Flags) (name : String) (words : List Chars) : Run Int :=
  match name with
  | "." => Control.source e words
  | ":" => pure 0
  | "[" | "test" => Condition.test name words
  | "alias" => Naming.alias_ words
  | "bg" | "fg" => Waiting.move words
  | "break" => Control.leave .leave words
  | "cd" | "chdir" => Place.cd words
  | "command" => Describing.command words
  | "continue" => Control.leave .again words
  | "echo" => Printing.echo words
  | "eval" => Control.eval e flags words
  | "exec" => Control.exec words
  | "exit" => Control.exit words
  | "export" => Naming.export_ words
  | "false" => pure 1
  | "getopts" => Naming.getOptions words
  | "hash" => Describing.hash words
  | "jobs" => Waiting.jobs words
  | "kill" => Waiting.kill words
  | "local" => Naming.keepAll words
  | "printf" => Printing.printf words
  | "pwd" => Place.pwd words
  | "read" => Naming.read words
  | "readonly" => Naming.readOnly words
  | "return" => Control.return_ words
  | "set" => Naming.set_ words
  | "shift" => Naming.shift words
  | "times" => Place.times
  | "trap" => Control.trap words
  | "type" => Describing.type words
  | "ulimit" => Place.ulimit words
  | "umask" => Place.umask words
  | "unalias" => Naming.unalias words
  | "unset" => Naming.unsetAll words
  | "wait" => Waiting.wait words
  | _ => pure 0

end Commands
end TestBench.Script
