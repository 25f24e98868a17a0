/-
Whole runs beside whole traces.

A trace and a direct run of one program on one frame go on in lockstep, instruction by instruction.
When the graph of the trace has been evaluated on the inputs from the frame, the direct run ends
within as many instructions as the trace, and can only do one of two things: return the value of the
output, or fail at an instruction at which the trace has gone on where it may not.  The exception is
a run that leaves the trace behind an inference that does not hold.
-/
import GuardedTrace.Proofs.ControlSteps

namespace GuardedTrace

/-! ### Direct runs -/

/-- The place where a program goes on after the instruction at `pc`; none when it returns or enters
a routine. -/
def Request.target? (request : Request) (pc : Nat) : Option Nat :=
  match request with
  | .next => some (pc + 1)
  | .jump target => some target
  | .finish _ | .enter .. => none

section

variable {globals : Table String Value} {fuel depth pc : Nat} {code : Code} {machine next : Machine}
  {instruction : Instruction} {request : Request}

lemma runMachine_of_error {error : RunError}
    (hinstruction : code.instruction? machine.pc = some instruction)
    (hstep : MachineM.step code globals instruction machine = .error error) :
    runMachine globals (fuel + 1) depth code machine = some (.error error) := by
  rw [runMachine]
  simp only [hinstruction, StateT.run, hstep]

lemma runMachine_of_step (hinstruction : code.instruction? machine.pc = some instruction)
    (hstep : MachineM.step code globals instruction machine = .ok (request, next))
    (hpc : request.target? machine.pc = some pc) :
    runMachine globals (fuel + 1) depth code machine =
      runMachine globals fuel depth code { next with pc } := by
  rw [runMachine]
  simp only [hinstruction, StateT.run, hstep]
  cases request with
  | next | jump _ =>
    obtain rfl := Option.some.inj hpc
    rfl
  | finish _ | enter _ _ => cases hpc

lemma runMachine_of_finish {result : Value}
    (hinstruction : code.instruction? machine.pc = some instruction)
    (hstep : MachineM.step code globals instruction machine = .ok (.finish result, next)) :
    runMachine globals (fuel + 1) depth code machine = some (.ok (result, next.created)) := by
  rw [runMachine]
  simp only [hinstruction, StateT.run, hstep]

/-- More fuel does not change a result. -/
lemma runMachine_mono {more : Nat} {result : Run (Value × Nat)} (hmore : fuel ≤ more)
    (h : runMachine globals fuel depth code machine = some result) :
    runMachine globals more depth code machine = some result := by
  induction fuel generalizing more depth code machine result with
  | zero => simp [runMachine] at h
  | succ fuel ih =>
    obtain ⟨more, rfl⟩ : ∃ m, more = m + 1 := ⟨more - 1, by omega⟩
    have hmore : fuel ≤ more := by omega
    rw [runMachine] at h ⊢
    split at h
    · simpa using h
    next instruction hinstruction =>
    split at h
    · simpa using h
    · exact ih hmore h
    · exact ih hmore h
    · simpa using h
    next callee args after _ =>
    split at h
    · simpa using h
    next locals _ =>
    -- the callee has its own run
    split at h
    · cases h
    · next error hcallee =>
      simp only [ih hmore hcallee]
      simpa using h
    · next value created hcallee =>
      simp only [ih hmore hcallee]
      exact ih hmore h

/-- A program has one outcome on a frame. -/
lemma Code.run_unique {other : Nat} {frame : Frame} {outcome outcome' : Run Value}
    (h : code.run fuel frame = some outcome) (h' : code.run other frame = some outcome') :
    outcome = outcome' := by
  obtain ⟨result, hresult, rfl⟩ := Option.map_eq_some_iff.1 h
  obtain ⟨result', hresult', rfl⟩ := Option.map_eq_some_iff.1 h'
  have hsame := (runMachine_mono (le_max_left fuel other) hresult).symm.trans
    (runMachine_mono (le_max_right fuel other) hresult')
  rw [Option.some.inj hsame]

end

/-! ### Lockstep -/

/-- A state of a trace and a machine that as many steps lead to. -/
inductive Lockstep (context : TraceContext) : Tracer → Machine → Prop where
  | start : Lockstep context {} { locals := context.frame.locals }
  | step {state after : Tracer} {machine next : Machine} {instruction : Instruction} {flow : Flow}
    {request : Request} {pc : Nat} (h : Lockstep context state machine)
    (hinstruction : context.code.instruction? state.pc = some instruction)
    (htrace : TraceM.step context instruction state = .ok (flow, after))
    (hrun : MachineM.step context.code context.frame.globals instruction machine =
      .ok (request, next))
    (hflow : flow.target? state.pc = some pc) (hrequest : request.target? machine.pc = some pc) :
    Lockstep context { after with pc } { next with pc }

/-- In lockstep, an instruction fails in the run at which the trace goes on in a certain way. -/
def FailsWhere (way : Instruction → Tracer → Tracer → Machine → Prop) (context : TraceContext)
    (error : RunError) : Prop :=
  ∃ state machine instruction flow after, Lockstep context state machine ∧
    context.code.instruction? state.pc = some instruction ∧
    TraceM.step context instruction state = .ok (flow, after) ∧
    MachineM.step context.code context.frame.globals instruction machine = .error error ∧
    way instruction state after machine

/-- In lockstep, an instruction fails in the run at which the trace goes on at all. -/
def FailsRelaxed (context : TraceContext) : RunError → Prop :=
  FailsWhere (Relaxes context.code) context

/-- In lockstep, the trace infers something of a result that does not hold in the run. -/
def Misled (context : TraceContext) : Prop :=
  ∃ state machine instruction flow after request next, Lockstep context state machine ∧
    context.code.instruction? state.pc = some instruction ∧
    TraceM.step context instruction state = .ok (flow, after) ∧
    MachineM.step context.code context.frame.globals instruction machine = .ok (request, next) ∧
    Misjudges context.code instruction state after next

namespace World

variable {world : World} {context : TraceContext}

/-- A direct run that answers as the trace does goes on where the trace goes on. -/
lemma target?_of_answers {flow : Flow} {request : Request} {state : Tracer}
    {machine : Machine} {pc : Nat}
    (h : world.Answers flow request) (hpc : machine.pc = state.pc)
    (hflow : flow.target? state.pc = some pc) : request.target? machine.pc = some pc := by
  cases flow with
  | next =>
    cases request with
    | next => exact hpc ▸ hflow
    | _ => exact h.elim
  | jump target =>
    cases request with
    | jump other =>
      obtain rfl : target = other := h
      exact hflow
    | _ => exact h.elim
  | finish operand => cases hflow

/-- From related states on, a direct run returns the value of the output of the trace, or fails
where the trace relaxes, unless it leaves the trace behind a wrong inference. -/
theorem run_follows (hframe : context.frame = world.frame)
    (hvarNames : ∀ name ∈ context.code.varNames, Text.isIdentifier name.toList = true)
    (hnames : ∀ name ∈ context.code.names, Text.isIdentifier name.toList = true)
    (hobjects : ∀ instruction ∈ context.code.instructions,
      instruction.opcode.readsAttr = true → world.objects)
    (depth : Nat) {fuel : Nat} {state : Tracer} {machine : Machine} {output : TraceOutput}
    (hlockstep : Lockstep context state machine) (hpc : machine.pc = state.pc)
    (hrelated : world.Related state machine)
    (htrace : traceFrom context fuel state = (.ok output, world.last))
    (hserves : world.objects → ∀ use ∈ usesFrom context fuel state, world.Serves use) :
    (world.objects ∧ Misled context) ∨
      ∃ result, runMachine context.frame.globals fuel depth context.code machine = some result ∧
        ((∃ error, result = .error error ∧ FailsRelaxed context error) ∨
          ∃ operand v created, output = world.last.finish operand ∧ result = .ok (v, created) ∧
            ∀ reader, operand.evaluate reader world.values = .ok v) := by
  induction fuel generalizing state machine with
  | zero => simp [traceFrom] at htrace
  | succ fuel ih =>
    obtain ⟨instruction, flow, after, hinstruction, hstep, hflow⟩ := traceFrom_cases htrace
    have hextends : after.Extends world.last := by
      rcases hflow with ⟨pc, -, hrest⟩ | ⟨operand, -, -, hlast⟩
      · exact (Tracer.Extends.of_pc after pc).trans (traceFrom_extends hrest).1
      · exact hlast ▸ .refl _
    rw [usesFrom_of_step hinstruction hstep] at hserves
    have hfollows := follows_step hframe hvarNames hnames
      (hobjects instruction (List.mem_of_getElem? hinstruction))
      (fun hobjects use huse => hserves hobjects use (by simp [huse])) hrelated hstep hextends
    have hinstruction' : context.code.instruction? machine.pc = some instruction :=
      hpc ▸ hinstruction
    unfold Follows MachineM.Gives at hfollows
    cases hmachine : MachineM.step context.code context.frame.globals instruction machine with
    | error error =>
      rw [hmachine] at hfollows
      refine Or.inr ⟨_, runMachine_of_error hinstruction' hmachine, Or.inl ⟨error, rfl, ?_⟩⟩
      exact ⟨state, machine, instruction, flow, after, hlockstep, hinstruction,
        hstep, hmachine, hfollows⟩
    | ok answer =>
      obtain ⟨request, next⟩ := answer
      rw [hmachine] at hfollows
      rcases hfollows with ⟨hanswers, hnext⟩ | ⟨hobjects, hmisjudges⟩
      · rcases hflow with ⟨pc, htarget, hrest⟩ | ⟨operand, rfl, rfl, hlast⟩
        · have htarget' := target?_of_answers hanswers hpc htarget
          rw [runMachine_of_step hinstruction' hmachine htarget']
          rw [htarget] at hserves
          exact ih (.step hlockstep hinstruction hstep hmachine htarget htarget') rfl
            (hnext.of_stack rfl rfl rfl hnext.stack) hrest
            (fun hobjects use huse => hserves hobjects use (List.mem_append_right _ huse))
        · cases request with
          | finish v =>
            exact Or.inr ⟨_, runMachine_of_finish hinstruction' hmachine,
              Or.inr ⟨operand, v, next.created, by rw [hlast], rfl, hanswers⟩⟩
          | _ => exact hanswers.elim
      · exact Or.inl ⟨hobjects, state, machine, instruction, flow, after, request, next,
          hlockstep, hinstruction, hstep, hmachine, hmisjudges⟩

end World

end GuardedTrace
