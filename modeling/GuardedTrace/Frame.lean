/-
Frames: the bindings that a call of a program sees.
-/
import GuardedTrace.Table
import GuardedTrace.Value.Basic

namespace GuardedTrace

/-- Which of the two tables of a frame a name is looked up in. -/
inductive Scope where
  | locals
  | globals
deriving DecidableEq

namespace Scope

/-- A scope as it is written in guards. -/
def written : Scope → String
  | locals => "LOCAL"
  | globals => "GLOBAL"

/-- The place of a scope in the order. -/
def rank : Scope → Nat
  | locals => 0
  | globals => 1

end Scope

/-- The local and global bindings of a call. -/
structure Frame where
  locals : Table String Value := []
  globals : Table String Value := []

/-- The value bound to a name. -/
def Frame.lookup? (frame : Frame) (scope : Scope) (name : String) : Option Value :=
  match scope with
  | .locals => frame.locals.lookup name
  | .globals => frame.globals.lookup name

end GuardedTrace
