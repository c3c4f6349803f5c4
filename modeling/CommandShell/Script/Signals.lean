import CommandShell.Process

/-!
# Signals by name

The names and the wordings of signals, as scripts use and report them.
-/

namespace CommandShell.Signal

/-- How many signals there are, the event of leaving the script included. -/
def count : Nat := 65

/-- The names of the signals up to the first real-time one; the first is the event of leaving. -/
def plainNames : List String :=
  ["EXIT", "HUP", "INT", "QUIT", "ILL", "TRAP", "ABRT", "BUS", "FPE", "KILL", "USR1", "SEGV",
    "USR2", "PIPE",
   "ALRM", "TERM", "16", "CHLD", "CONT", "STOP", "TSTP", "TTIN", "TTOU", "URG", "XCPU",
     "XFSZ", "VTALRM",
   "PROF", "WINCH", "IO", "PWR", "SYS", "32", "33", "RTMIN"]

/-- The names of all signals. -/
def names : List String :=
  plainNames ++ ((List.range 15).map fun n => "RTMIN+" ++ toString (n + 1)) ++
    ((List.range 14).reverse.map fun n => "RTMAX-" ++ toString (n + 1)) ++ ["RTMAX"]

def name (signal : Nat) : String := names.getD signal (toString signal)

/-- The signal of a name, in letters of either case; the leading one is `EXIT`. -/
def ofName? (text : String) : Option Nat :=
  let upper := text.toUpper
  (names.findIdx? (· = upper)).filter (· < count)

/-- The words for a process that a signal has killed. -/
def text (signal : Nat) : String :=
  match signal with
  | 1 => "Hangup"
  | 2 => "Interrupt"
  | 3 => "Quit"
  | 4 => "Illegal instruction"
  | 5 => "Trace/breakpoint trap"
  | 6 => "Aborted"
  | 7 => "Bus error"
  | 8 => "Floating point exception"
  | 9 => "Killed"
  | 10 => "User defined signal 1"
  | 11 => "Segmentation fault"
  | 12 => "User defined signal 2"
  | 13 => "Broken pipe"
  | 14 => "Alarm clock"
  | 15 => "Terminated"
  | 16 => "Stack fault"
  | 24 => "CPU time limit exceeded"
  | 25 => "File size limit exceeded"
  | 26 => "Virtual timer expired"
  | 27 => "Profiling timer expired"
  | 29 => "I/O possible"
  | 30 => "Power failure"
  | 31 => "Bad system call"
  | n =>
    if 34 ≤ n then "Real-time signal " ++ toString (n - 34) else "Unknown signal " ++ toString n

/-- Whether nothing is reported of a process that the signal has killed. -/
def isQuiet (signal : Nat) : Bool := signal = interrupt || signal = pipe

end CommandShell.Signal
