set_option autoImplicit false

/-! # Crashes

A few operations are only defined for some arguments. Called with others they end the program, which
is told apart from an error that a caller handles. -/

namespace Courier

/-- Why the program has to end. -/
inductive Crash
  | multiplierBelowOne
  | instantOutOfRange
  /-- A map has no room for another header. -/
  | headersFull
  /-- A message cannot be printed. -/
  | notPrinted (reason : String)
  deriving DecidableEq

/-- The wording of a crash. -/
def Crash.message : Crash → String
  | .multiplierBelowOne => "multiplier must be at least 1.0"
  | .instantOutOfRange => "\x60DateTime + TimeDelta\x60 overflowed"
  | .headersFull => "size overflows MAX_SIZE: MaxSizeReached"
  | .notPrinted reason => "failed printing to stdout: " ++ reason

end Courier
