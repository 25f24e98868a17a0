/-
Compiled artifacts and their cache.

An artifact is the compiled outcome of one trace of a program, together with the guards under which
it may be used.  The cache holds the artifacts of every program in the order in which they were
added; an artifact that is equivalent to one that is there is not added again.
-/
import GuardedTrace.Graph.Evaluation
import GuardedTrace.Trace.Run

namespace GuardedTrace

/-- A compiled graph: the values of the placeholders to the result, or a report of what failed. -/
abbrev Executable : Type := List Value → Except String Value

/-- A compiler of graphs.  It refuses a graph with a report. -/
abbrev Backend : Type := Graph → LayerTable → Except String Executable

/-- The compiler that evaluates graphs of at most `limit` nodes one node after the other. -/
def evaluator (limit : Nat) : Backend := fun graph layers =>
  match graph.compile limit layers with
  | .error error => .error error.message
  | .ok compiled => .ok fun inputs =>
    match compiled.execute inputs with
    | .ok value => .ok value
    | .error error => .error error.message

/-- A compiled trace of a program. -/
structure Artifact where
  /-- The guards that have to hold before the artifact is used. -/
  guards : GuardSet
  inputs : List InputBinding
  graph : Graph
  layers : LayerTable
  execute : Executable

namespace Artifact

/-- Same guards, same graph and same inputs. -/
def isEquivalent (a b : Artifact) : Bool :=
  a.guards = b.guards && a.graph = b.graph && a.inputs = b.inputs

/-- The values of the inputs in a frame. -/
def inputValues (artifact : Artifact) (frame : Frame) : Except String (List Value) :=
  artifact.inputs.mapM fun input =>
    match frame.resolve input.scope input.name with
    | .ok value => .ok value
    | .error error => .error ("input " ++ input.written ++ ": " ++ error.message)

/-- Runs an artifact on a frame. -/
def run (artifact : Artifact) (frame : Frame) : Except String Value :=
  (artifact.inputValues frame).bind artifact.execute

end Artifact

/-- The artifacts of every program, by the number of the program. -/
abbrev Cache : Type := Table Nat (List Artifact)

namespace Cache

/-- The artifacts of a program, oldest first. -/
def artifacts (cache : Cache) (code : Nat) : List Artifact := (cache.lookup code).getD []

/-- Adds an artifact, unless there is an equivalent one; also the position of the artifact. -/
def append (cache : Cache) (code : Nat) (artifact : Artifact) : Nat × Cache :=
  let entries := cache.artifacts code
  match entries.findIdx? (·.isEquivalent artifact) with
  | some position => (position, cache)
  | none => (entries.length, cache.put code (entries ++ [artifact]))

/-- Drops the artifacts of a program; also how many there were. -/
def invalidate (cache : Cache) (code : Nat) : Nat × Cache :=
  ((cache.artifacts code).length, cache.erase code)

/-- The number of artifacts of all programs. -/
def size (cache : Cache) : Nat := cache.foldr (fun entry total => entry.2.length + total) 0

end Cache

end GuardedTrace
