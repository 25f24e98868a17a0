/-
What the artifact of a trace answers.

An artifact answers on the frame of its trace what a direct run returns.  A direct run that fails
instead fails at an instruction at which the trace goes on (`Relaxes`), and a run in lockstep with
the trace that fails there is the direct run.
-/
import GuardedTrace.Proofs.Histories
import GuardedTrace.Proofs.Lockstep

namespace GuardedTrace

/-! ### Evaluated artifacts -/

lemma evaluator_eq_ok {limit : Nat} {graph : Graph} {layers : LayerTable} {execute : Executable}
    (h : evaluator limit graph layers = .ok execute) :
    ∃ compiled, graph.compile limit layers = .ok compiled ∧
      ∀ inputs value, execute inputs = .ok value → compiled.execute inputs = .ok value := by
  unfold evaluator at h
  split at h
  · cases h
  · next compiled hcompiled =>
    refine ⟨compiled, hcompiled, fun inputs value hvalue => ?_⟩
    obtain rfl := Except.ok.inj h
    simp only at hvalue
    split at hvalue
    · next found hfound => rw [hfound, Except.ok.inj hvalue]
    · cases hvalue

lemma Artifact.run_eq_ok {artifact : Artifact} {frame : Frame} {value : Value}
    (h : artifact.run frame = .ok value) :
    ∃ inputs, List.Forall₂ (fun input value => frame.resolve input.scope input.name = .ok value)
      artifact.inputs inputs ∧ artifact.execute inputs = .ok value := by
  obtain ⟨inputs, hinputs, hexecute⟩ := except_bind_eq_ok.1 h
  refine ⟨inputs, (mapM_eq_ok.1 hinputs).imp fun input found hfound => ?_, hexecute⟩
  split at hfound
  · next hresolve => rw [hresolve, Except.ok.inj hfound]
  · cases hfound

/-- **A direct run beside the artifact of its trace.**  Where the graph of a trace has been
evaluated on the inputs from the frame, a direct run returns the same value or fails where the trace
relaxes, unless it leaves the trace behind a wrong inference.  `objects` says whether objects and
attributes occur. -/
theorem run_follows_answer (objects : Prop) {code : Code} {frame : Frame} {config : Config}
    {output : TraceOutput} {limit : Nat} {execute : Executable} {answer : Value}
    (hvarNames : ∀ name ∈ code.varNames, Text.isIdentifier name.toList = true)
    (hnames : ∀ name ∈ code.names, Text.isIdentifier name.toList = true)
    (hobjects : ∀ instruction ∈ code.instructions, instruction.opcode.readsAttr = true → objects)
    (horderly : frame.Orderly) (htuples : objects → frame.ShortTuples)
    (hplain : objects ∨ frame.Plain) (htrace : trace code frame config = .ok output)
    (hmethods : objects → ∀ node ∈ output.graph.nodes, ∀ name,
      node.operation = .readAttr name → Primitive.ofMethod? name = none)
    (hserves : objects → ∀ use ∈ layerUses code frame config, output.Serves use)
    (hcompile : evaluator limit output.graph output.layers = .ok execute)
    (hanswer : (output.artifact execute).run frame = .ok answer) :
    (objects ∧ Misled ⟨code, frame, config⟩) ∨
      ∃ outcome, code.run maxTraceSteps frame = some outcome ∧
        ((∃ error, outcome = .error error ∧ FailsRelaxed ⟨code, frame, config⟩ error) ∨
          outcome = .ok answer) := by
  obtain ⟨last, hfrom⟩ := exists_traceFrom htrace
  obtain ⟨hextends, operand, rfl⟩ := traceFrom_extends hfrom
  obtain ⟨compiled, hcompiled, hexecutes⟩ := evaluator_eq_ok hcompile
  obtain ⟨inputs, hinputs, hexecute⟩ := Artifact.run_eq_ok hanswer
  obtain ⟨values, hsolves, hvalue⟩ :=
    exists_solves (hextends.tidy Tracer.tidy_start) hcompiled hinputs
    (hexecutes _ _ hexecute)
  let world : World :=
    { frame, last, values, objects, orderly := horderly, tuples := htuples, plain := hplain
      solves := hsolves
      methods := fun h node hnode => hmethods h node (List.mem_append_left _ hnode) }
  have hframe : (⟨code, frame, config⟩ : TraceContext).frame = world.frame := rfl
  have hfollows := world.run_follows hframe hvarNames hnames hobjects 0 .start rfl
    World.related_start hfrom
    (fun h use huse => ⟨(hserves h use huse).layer, (hserves h use huse).parameter⟩)
  refine hfollows.imp id fun ⟨result, hresult, hcases⟩ => ?_
  refine ⟨result.map Prod.fst, ?_, ?_⟩
  · rw [Code.run, hresult, Option.map_some]
  · rcases hcases with ⟨error, rfl, hfails⟩ | ⟨operand', v, created, hfinish, rfl, hv⟩
    · exact Or.inl ⟨error, rfl, hfails⟩
    · obtain rfl : operand = operand' := Tracer.finish_inj hfinish
      obtain rfl : v = answer := Except.ok.inj ((hv _).symm.trans hvalue)
      exact Or.inr rfl

/-! ### Where runs fail -/

section

variable {context : TraceContext} {state : Tracer} {machine : Machine}

end

end GuardedTrace
