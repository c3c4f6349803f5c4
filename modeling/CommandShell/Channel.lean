/-!
# Channels

A command writes on two channels, its output and its errors.
-/

namespace CommandShell

inductive Channel where
  | out
  | err
  deriving DecidableEq, Repr, Inhabited

end CommandShell
