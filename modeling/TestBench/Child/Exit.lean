import TestBench.Text.Decimal
import TestBench.Time
/-!
# How a child ends

The status word a system reports for a child, the text that shows it, and the end of a child that
may also be a timeout.
-/
namespace TestBench.Child

/-- A status word: an exit code in its second byte, or a signal in its first. -/
structure Status where
  word : Nat
deriving DecidableEq, Repr

namespace Status

def ofCode (code : Nat) : Status := ⟨code % 256 * 256⟩

def ofSignal (signal : Nat) : Status := ⟨signal⟩

def low (s : Status) : Nat := s.word % 128

def high (s : Status) : Nat := s.word / 256 % 256

def code? (s : Status) : Option Nat := if s.low = 0 then some s.high else none

def signal? (s : Status) : Option Nat := if s.low = 0 || s.low = 127 then none else some s.low

def dumped (s : Status) : Bool := s.word / 128 % 2 = 1

def stop? (s : Status) : Option Nat := if s.word % 256 = 127 then some s.high else none

def isContinued (s : Status) : Bool := s.word = 0xffff

def success (s : Status) : Bool := s.word = 0

def signalName : Nat → Option String
  | 1 => some "SIGHUP"
  | 2 => some "SIGINT"
  | 3 => some "SIGQUIT"
  | 4 => some "SIGILL"
  | 5 => some "SIGTRAP"
  | 6 => some "SIGABRT"
  | 7 => some "SIGBUS"
  | 8 => some "SIGFPE"
  | 9 => some "SIGKILL"
  | 10 => some "SIGUSR1"
  | 11 => some "SIGSEGV"
  | 12 => some "SIGUSR2"
  | 13 => some "SIGPIPE"
  | 14 => some "SIGALRM"
  | 15 => some "SIGTERM"
  | 16 => some "SIGSTKFLT"
  | 17 => some "SIGCHLD"
  | 18 => some "SIGCONT"
  | 19 => some "SIGSTOP"
  | 20 => some "SIGTSTP"
  | 21 => some "SIGTTIN"
  | 22 => some "SIGTTOU"
  | 23 => some "SIGURG"
  | 24 => some "SIGXCPU"
  | 25 => some "SIGXFSZ"
  | 26 => some "SIGVTALRM"
  | 27 => some "SIGPROF"
  | 28 => some "SIGWINCH"
  | 29 => some "SIGIO"
  | 30 => some "SIGPWR"
  | 31 => some "SIGSYS"
  | _ => none

def signalText (n : Nat) : String :=
  match signalName n with
  | some name => Decimal.text n ++ " (" ++ name ++ ")"
  | none => Decimal.text n

def signedText (n : Nat) : String :=
  if n < Nat.pow 2 31 then Decimal.text n else "-" ++ Decimal.text (Nat.pow 2 32 - n)

def text (s : Status) : String :=
  match s.code?, s.signal?, s.stop? with
  | some c, _, _ => "exit status: " ++ Decimal.text c
  | none, some n, _ =>
    "signal: " ++ signalText n ++ (if s.dumped then " (core dumped)" else "")
  | none, none, some n => "stopped (not terminated) by signal: " ++ signalText n
  | none, none, none =>
    if s.isContinued then "continued (WIFCONTINUED)"
    else "unrecognised wait status: " ++ signedText s.word ++ " 0x"
      ++ String.ofList (Nat.toDigits 16 s.word)

end Status

/-- A child ends by itself, or is killed when its time limit (in milliseconds) is over. -/
inductive Exit where
  | exited (status : Status)
  | timedOut (limit : Nat)
deriving DecidableEq, Repr

def Exit.success : Exit → Bool
  | .exited s => s.success
  | .timedOut _ => false

end TestBench.Child
