import TestBench.Child.Exit
import TestBench.FileSystem.Basic
import TestBench.Process.Signal
/-!
# Programs

A program is a tree of the calls it makes: after each answer it goes on, divides into two, or ends.
It keeps what it knows in what follows a call, so a process needs no other memory.
-/
namespace TestBench.Process

structure Mode where
  read : Bool
  write : Bool
  append : Bool
  create : Bool
  truncate : Bool
  exclusive : Bool
deriving DecidableEq, Repr

namespace Mode

def reading : Mode := ⟨true, false, false, false, false, false⟩
def writing : Mode := ⟨false, true, false, true, true, false⟩
def appending : Mode := ⟨false, true, true, true, false, false⟩
def both : Mode := ⟨true, true, false, true, false, false⟩
def touching : Mode := ⟨false, true, false, true, false, false⟩
def fresh : Mode := ⟨false, true, false, true, false, true⟩
def present : Mode := ⟨false, true, false, false, false, false⟩

end Mode

inductive Kind where
  | file
  | directory
  | link
  | device
  | pipe
deriving DecidableEq, Repr

/-- What two names or descriptors of one thing have in common. -/
inductive Identity where
  | file (id : Nat)
  | place (l : Location)
  | pipe (id : Nat)
  | stream (output : Bool)
deriving DecidableEq, Repr

structure Facts where
  kind : Kind
  executable : Bool
  size : Nat
  identity : Identity
  modified : Nat
deriving DecidableEq, Repr

inductive Patience where
  | none
  | untilSignal
  | untilEnd
deriving DecidableEq, Repr

inductive Awaited where
  | ended (pid : Nat) (status : Child.Status)
  | nothing
  | interrupted
  | noChild
deriving DecidableEq, Repr

/-- What a program can ask of the system. Times are in microseconds. -/
inductive Call where
  | openPath (p : Path) (m : Mode)
  | close (fd : Nat)
  | copy (fd least : Nat)
  | copyTo (fd target : Nat)
  | pipe
  | read (fd count : Nat)
  | write (fd : Nat) (bs : Bytes)
  | seek (fd : Nat) (offset : Int)
  | describe (fd : Nat)
  | inspect (p : Path) (links : Bool)
  | stamp (p : Path) (links : Bool)
  | names (p : Path)
  | unlink (p : Path)
  | removeDirectory (p : Path)
  | enter (p : Path)
  | here
  | execute (p : Path) (args env : List Bytes)
  | sleep (duration : Nat)
  | work (duration : Nat)
  | self
  | await (which : Option Nat) (patience : Patience)
  | signal (pid : Int) (n : Nat)
  | treat (n : Nat) (t : Treatment)
  | treatment (n : Nat)
  | arrived
  | clock

/-- The type of the answer to a call. A sleep answers whether a signal has cut it short; a program
that executes another is answered only if that fails. -/
abbrev Call.Answer : Call → Type
  | .openPath _ _ => Except Errno Nat
  | .close _ => Except Errno Unit
  | .copy _ _ => Except Errno Nat
  | .copyTo _ _ => Except Errno Unit
  | .pipe => Nat × Nat
  | .read _ _ => Except Errno Bytes
  | .write _ _ => Except Errno Nat
  | .seek _ _ => Except Errno Nat
  | .describe _ => Except Errno Facts
  | .inspect _ _ => Except Errno Facts
  | .stamp _ _ => Except Errno Unit
  | .names _ => Except Errno (List Bytes)
  | .unlink _ => Except Errno Unit
  | .removeDirectory _ => Except Errno Unit
  | .enter _ => Except Errno Unit
  | .here => Bytes
  | .execute _ _ _ => Errno
  | .sleep _ => Bool
  | .work _ => Unit
  | .self => Nat × Nat
  | .await _ _ => Awaited
  | .signal _ _ => Except Errno Unit
  | .treat _ _ => Unit
  | .treatment _ => Treatment
  | .arrived => List Nat
  | .clock => Nat

inductive Program where
  | exit (code : Nat)
  | call (c : Call) (next : c.Answer → Program)
  | fork (child : Program) (next : Nat → Program)

/-- A part of a program that ends with a value. -/
def Act (α : Type) : Type := (α → Program) → Program

namespace Act

instance : Monad Act where
  pure a := fun k => k a
  bind x f := fun k => x fun a => f a k

def call (c : Call) : Act c.Answer := fun k => .call c k

def exit {α : Type} (code : Nat) : Act α := fun _ => .exit code

def fork (child : Act Nat) : Act Nat := fun k => .fork (child .exit) k

def program (a : Act Nat) : Program := a .exit

end Act
end TestBench.Process
