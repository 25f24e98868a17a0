/-
Direct runs.

A program may run forever, so a run is given fuel and has no result when the fuel is used up.  Fuel
bounds the instructions of the program itself and, separately, those of every routine it calls; a
result that some fuel gives is the result that any greater fuel gives.
-/
import GuardedTrace.Direct.Step

namespace GuardedTrace

/-- The number of nested calls of routines beyond which a call fails. -/
def maxCallDepth : Nat := 64

/-- The variables of a called routine, or why it cannot be called.  `depth` is the number of calls
around it. -/
def enterRoutine (depth : Nat) (code : Code) (args : List Value) : Run (Table String Value) :=
  if maxCallDepth < depth then .error (.system .recursion)
  else if code.parameters.length = args.length then .ok (Table.ofList (code.parameters.zip args))
  else .error (.type (.routineArity code.name code.parameters.length args.length))

/-- Runs a machine, and gives the result with the number of objects made; nothing when the fuel is
used up. -/
def runMachine (globals : Table String Value) :
    Nat → Nat → Code → Machine → Option (Run (Value × Nat))
  | 0, _, _, _ => none
  | fuel + 1, depth, code, machine =>
    match code.instruction? machine.pc with
    | none => some (.error (.system (.noReturn code.name)))
    | some instruction =>
      match (MachineM.step code globals instruction).run machine with
      | .error error => some (.error error)
      | .ok (.next, after) => runMachine globals fuel depth code { after with pc := machine.pc + 1 }
      | .ok (.jump target, after) => runMachine globals fuel depth code { after with pc := target }
      | .ok (.finish result, after) => some (.ok (result, after.created))
      | .ok (.enter callee args, after) =>
        match enterRoutine (depth + 1) callee args with
        | .error error => some (.error error)
        | .ok locals =>
          match runMachine globals fuel (depth + 1) callee { locals, created := after.created } with
          | none => none
          | some (.error error) => some (.error error)
          | some (.ok (result, created)) =>
            runMachine globals fuel depth code
              { after with pc := machine.pc + 1, stack := .value result :: after.stack, created }

/-- Runs a program against the bindings of a frame; nothing when the fuel is used up. -/
def Code.run (fuel : Nat) (code : Code) (frame : Frame) : Option (Run Value) :=
  (runMachine frame.globals fuel 0 code { locals := frame.locals }).map fun outcome =>
    outcome.map Prod.fst

end GuardedTrace
