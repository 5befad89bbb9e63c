import TestBench.Script.Syntax
/-!
# Tokens of scripts

The kinds of tokens, how a message names them, and the words that are reserved where a command
begins.
-/
namespace TestBench.Script

inductive Token where
  | fileEnd
  | newline
  | semicolon
  | ampersand
  | both
  | either
  | pipe
  | opening
  | closing
  | armEnd
  | redirect
  | word
  | reserved (w : String)
deriving DecidableEq, Repr

namespace Token

def quoted (s : String) : String := "\"" ++ s ++ "\""

def name : Token → String
  | .fileEnd => "end of file"
  | .newline => "newline"
  | .semicolon => quoted ";"
  | .ampersand => quoted "&"
  | .both => quoted "&&"
  | .either => quoted "||"
  | .pipe => quoted "|"
  | .opening => quoted "("
  | .closing => quoted ")"
  | .armEnd => quoted ";;"
  | .redirect => "redirection"
  | .word => "word"
  | .reserved w => quoted w

/-- Reserved words that end a list of commands. -/
def closers : List String := ["do", "done", "elif", "else", "esac", "fi", "then", "\x7d"]

def openers : List String := ["!", "case", "for", "if", "in", "until", "while", "\x7b"]

def isReserved (w : String) : Bool := closers.contains w || openers.contains w

def endsList : Token → Bool
  | .fileEnd | .closing | .armEnd => true
  | .reserved w => closers.contains w
  | _ => false

end Token

/-- Commands that are part of the shell and whose failures end it. -/
def specialCommands : List String :=
  [".", ":", "break", "continue", "eval", "exec", "exit", "export", "readonly", "return", "set",
    "shift", "times", "trap", "unset"]

end TestBench.Script
