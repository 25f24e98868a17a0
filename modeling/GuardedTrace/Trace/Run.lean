/-
Whole traces.

A trace repeats steps until the program returns, a step breaks off, the instructions end or the
step limit is reached.  An *attempt* is a trace that can be run once: after that it only reports
that it is finished.
-/
import GuardedTrace.Trace.Step

namespace GuardedTrace

/-- The number of instructions after which a trace is given up. -/
def maxTraceSteps : Nat := 65536

/-- What a trace that returns `output` yields. -/
def Tracer.finish (state : Tracer) (output : Operand) : TraceOutput :=
  { graph := state.builder.finish output
    guards := state.guards
    inputs := state.inputs
    layers := state.layers }

/-- Traces at most `fuel` instructions; also the state in which the trace stopped. -/
def traceFrom (context : TraceContext) : Nat → Tracer → Except TraceBreak TraceOutput × Tracer
  | 0, state => (.error ⟨state.pc, none, .unsupported (.stepLimit maxTraceSteps)⟩, state)
  | fuel + 1, state =>
    match context.code.instruction? state.pc with
    | none => (.error ⟨state.pc, none, .missingReturn⟩, state)
    | some instruction =>
      match (TraceM.step context instruction).run state with
      | .error cause => (.error ⟨state.pc, some instruction.opcode, cause⟩, state)
      | .ok (.next, after) => traceFrom context fuel { after with pc := state.pc + 1 }
      | .ok (.jump target, after) => traceFrom context fuel { after with pc := target }
      | .ok (.finish output, after) => (.ok (after.finish output), after)

/-- Traces a program against the bindings of a frame. -/
def trace (code : Code) (frame : Frame) (config : Config) : Except TraceBreak TraceOutput :=
  (traceFrom ⟨code, frame, config⟩ maxTraceSteps {}).1

/-- How far an attempt has come. -/
inductive Phase where
  | started
  | running
  | completed
  | aborted
deriving DecidableEq

def Phase.label : Phase → String
  | started => "Started"
  | running => "Running"
  | completed => "Completed"
  | aborted => "Aborted"

/-- A trace that can be run once. -/
structure Attempt where
  context : TraceContext
  state : Tracer := {}
  phase : Phase := .started

/-- Runs an attempt. -/
def Attempt.run (attempt : Attempt) : Except TraceBreak TraceOutput × Attempt :=
  if attempt.phase = .started then
    match traceFrom attempt.context maxTraceSteps attempt.state with
    | (.ok output, state) => (.ok output, { attempt with state, phase := .completed })
    | (.error stop, state) => (.error stop, { attempt with state, phase := .aborted })
  else (.error ⟨attempt.state.pc, none, .unsupported .finished⟩, attempt)

end GuardedTrace
