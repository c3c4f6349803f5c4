import CommandShell.FileSystem.Basic

/-!
# Processes

A process is what it does next: it ends, or it asks the system for something and goes on with the
answer. A process that asks for ever is cut off at some depth; it is then `exhausted`.
-/

namespace CommandShell

/-- How a program ends. -/
inductive Exit where
  | exited (status : Nat)
  | killed (signal : Nat)
  deriving DecidableEq, Repr

namespace Exit

/-- What is added to the number of the signal that killed a program. -/
def signalBase : Nat := 128

/-- The status of a program for the shell. -/
def status : Exit → Nat
  | .exited status => status
  | .killed signal => signalBase + signal

end Exit

namespace Signal

def interrupt : Nat := 2

def quit : Nat := 3

def kill : Nat := 9

/-- A program has touched memory that it does not have. -/
def fault : Nat := 11

def pipe : Nat := 13

def terminate : Nat := 15

/-- A child has ended. -/
def child : Nat := 17

/-- A process that was stopped goes on. -/
def resume : Nat := 18

/-- A process is stopped, whatever it wants. -/
def stop : Nat := 19

/-- Signals that stop a process unless they are caught. -/
def isStop (signal : Nat) : Bool := signal = stop || signal = 20 || signal = 21 || signal = 22

/-- Signals that do nothing unless they are caught. -/
def isIdle (signal : Nat) : Bool :=
  signal = 0 || signal = child || signal = resume || signal = 23 || signal = 28

/-- What becomes of a signal that is sent to a process. -/
inductive Disposition where
  | default
  | ignored
  | caught
  deriving DecidableEq, Repr

end Signal

/-- How a file is opened. -/
structure Access where
  read : Bool := false
  write : Bool := false
  create : Bool := false
  truncate : Bool := false
  append : Bool := false
  /-- A regular file that is there already is refused. -/
  fresh : Bool := false
  deriving DecidableEq, Repr

namespace Access

def input : Access := { read := true }

def output : Access := { write := true, create := true, truncate := true }

def addition : Access := { write := true, create := true, append := true }

def both : Access := { read := true, write := true, create := true }

end Access

/-- What a process can find out about one of its descriptors. -/
inductive Connection where
  | file (f : FileSystem.OpenFile)
  | other
  deriving DecidableEq, Repr

/-- How long a process waits for a child to end. -/
inductive Patience where
  /-- Not at all. -/
  | none
  /-- Until a child ends or a signal is caught. -/
  | untilSignal
  /-- Until a child ends. -/
  | untilEnd
  deriving DecidableEq, Repr

inductive Process where
  | exit (e : Exit)
  /-- The process was cut off. -/
  | exhausted
  /-- Look at the files. -/
  | look (next : FileSystem → Process)
  /-- Read at most so many bytes, up to the end of a line if `line` says so; none at the end. -/
  | read (descriptor limit : Nat) (line : Bool) (next : Except Errno ByteArray → Process)
  /-- Read everything up to the end, after what has been read. -/
  | drain (descriptor : Nat) (taken : ByteArray) (next : ByteArray → Process)
  /-- Write all of the bytes. -/
  | write (descriptor : Nat) (bytes : ByteArray) (next : Except Errno Unit → Process)
  /-- Open a file under a descriptor. -/
  | openFile (base : Place) (path : String) (access : Access) (descriptor : Nat)
      (next : Except Errno Unit → Process)
  /-- Let a descriptor lead to where another one leads. -/
  | duplicate (source descriptor : Nat) (next : Except Errno Unit → Process)
  | close (descriptor : Nat) (next : Unit → Process)
  /-- Make a pipe with an end for reading and one for writing. -/
  | pipe (reader writer : Nat) (next : Unit → Process)
  /-- Find out where a descriptor leads. -/
  | inspect (descriptor : Nat) (next : Option Connection → Process)
  /-- Start a process with the same descriptors; the answer is its number. -/
  | fork (child : Process) (next : Nat → Process)
  /-- Ask for a child that has ended; the answer is its number and how it ended. -/
  | wait (patience : Patience) (next : Except Errno (Nat × Exit) → Process)
  /-- Let so many microseconds pass. -/
  | sleep (duration : Nat) (next : Unit → Process)
  | kill (pid signal : Nat) (next : Except Errno Unit → Process)
  | dispose (signal : Nat) (disposition : Signal.Disposition) (next : Unit → Process)
  /-- Take the signals that have been caught. -/
  | caught (next : List Nat → Process)
  /-- Become another program: descriptors from `private` on are closed, and no signal is caught. -/
  | become (next : Unit → Process)
  /-- The number of the process, that of its parent, and the signals that it ignores. -/
  | self (next : Nat → Nat → List Nat → Process)

namespace Process

/-- The first descriptor that a program keeps to itself. -/
def firstPrivate : Nat := 10

/-- A process that does nothing but end. -/
def ended (status : Nat) : Process := .exit (.exited status)

/-- A process that reads its whole input, writes what a function makes of it on its two channels,
and ends with the status that the function gives. -/
def ofFunction (f : ByteArray → ByteArray × ByteArray × Nat) : Process :=
  .drain 0 ByteArray.empty fun input =>
    let (out, err, status) := f input
    .write 1 out fun _ => .write 2 err fun _ => ended status

end Process

end CommandShell
