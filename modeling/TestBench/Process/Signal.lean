import TestBench.Child.Exit
/-!
# Signals

What a signal does to a process that has made no arrangements for it, and how the end that it brings
is described.
-/
namespace TestBench.Process

inductive Treatment where
  | standard
  | ignored
  | caught
deriving DecidableEq, Repr

/-- What a signal does by itself. -/
inductive Effect where
  | terminate
  | ignore
  | stop
  | resume
deriving DecidableEq, Repr

namespace Signal

def interrupt : Nat := 2
def quit : Nat := 3
def kill : Nat := 9
def terminate : Nat := 15
def pipe : Nat := 13
def child : Nat := 17
def resume : Nat := 18
def stop : Nat := 19

def last : Nat := 64

def effect (n : Nat) : Effect :=
  if n = child || n = 23 || n = 28 then .ignore
  else if n = resume then .resume
  else if n = stop || n = 20 || n = 21 || n = 22 then .stop
  else .terminate

/-- Signals that no process can arrange for. -/
def isFixed (n : Nat) : Bool := n = kill || n = stop

def describe (n : Nat) : String :=
  match n with
  | 1 => "Hangup"
  | 2 => "Interrupt"
  | 3 => "Quit"
  | 4 => "Illegal instruction"
  | 5 => "Trace/breakpoint trap"
  | 6 => "Aborted"
  | 7 => "Bus error"
  | 8 => "Floating point exception"
  | 9 => "Killed"
  | 10 => "User defined signal 1"
  | 11 => "Segmentation fault"
  | 12 => "User defined signal 2"
  | 13 => "Broken pipe"
  | 14 => "Alarm clock"
  | 15 => "Terminated"
  | 16 => "Stack fault"
  | 17 => "Child exited"
  | 18 => "Continued"
  | 19 => "Stopped (signal)"
  | 20 => "Stopped"
  | 21 => "Stopped (tty input)"
  | 22 => "Stopped (tty output)"
  | 23 => "Urgent I/O condition"
  | 24 => "CPU time limit exceeded"
  | 25 => "File size limit exceeded"
  | 26 => "Virtual timer expired"
  | 27 => "Profiling timer expired"
  | 28 => "Window changed"
  | 29 => "I/O possible"
  | 30 => "Power failure"
  | 31 => "Bad system call"
  | n =>
    if 34 ≤ n && n ≤ last then "Real-time signal " ++ Decimal.text (n - 34)
    else "Unknown signal " ++ Decimal.text n

end Signal
end TestBench.Process
