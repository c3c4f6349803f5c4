import CommandShell.Kernel.Schedule
import CommandShell.Sink

/-!
# Sinks in the system

A handle that the shell holds is a device: what is put to it goes to an open file or into a pipe,
and giving it up lets go of the handle.
-/

namespace CommandShell

instance : Device Handle Kernel where
  put bytes h k := let (k, broken) := k.put h (pack bytes); ⟨h, k, broken⟩
  drop h k := k.letGo h

/-- A sink on an open file or a pipe. -/
abbrev HeldSink := Sink (Buffered Handle)

/-- A sink that takes over a handle of the shell. -/
def Sink.ofHandle (h : Handle) : HeldSink := { stream := { device := h }, owned := true }

end CommandShell
