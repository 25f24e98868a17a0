/-
Settings of tracing and of the gate.
-/

namespace GuardedTrace

/-- What can be set about tracing and about the gate. -/
structure Config where
  /-- Shapes and strides of inputs are not part of guards and graphs. -/
  dynamicShapes : Bool := false
  /-- The number of calls from which a program is traced. -/
  minimumCallCount : Nat := 1
  /-- The number of artifacts of a program at which a further miss retires it. -/
  cacheSizeCeiling : Nat := 8
  /-- Integers and floats of the frame are constants of the graph; otherwise they are inputs. -/
  specializeScalars : Bool := true
deriving DecidableEq

end GuardedTrace
