/-
Inputs and placeholders.

The inputs of a trace are bindings, a path with its scope; the placeholders of its graph have a path
only.  The two lists go together position by position exactly when no path is an input from both
scopes.  A path that is read from both has two inputs and one placeholder, and then the artifact
cannot be executed at all: the number of values that it is given is never the number that it
expects.
-/
import GuardedTrace.Proofs.GraphRuns

namespace GuardedTrace

/-! ### Errors of evaluations -/

def GraphError.isArity : GraphError → Bool
  | inputArity .. => true
  | _ => false

/-- A computation that never complains about the number of inputs. -/
def AcceptsInputs {α : Type} (x : Evaluation α) : Prop :=
  ∀ error, x = .error error → error.isArity = false

namespace AcceptsInputs

variable {α β : Type} {x : Evaluation α}

@[simp] lemma ok (value : α) : AcceptsInputs (.ok value : Evaluation α) := by
  intro error herror
  cases herror

lemma bind {f : α → Evaluation β} (hx : AcceptsInputs x) (hf : ∀ value, AcceptsInputs (f value)) :
    AcceptsInputs (x >>= f) := by
  intro error h
  cases x with
  | ok value => exact hf value error h
  | error fault =>
    obtain rfl := Except.error.inj h
    exact hx fault rfl

lemma map {f : α → β} (hx : AcceptsInputs x) : AcceptsInputs (x.map f) := by
  intro error h
  cases x with
  | ok value => cases h
  | error fault =>
    obtain rfl := Except.error.inj h
    exact hx fault rfl

lemma liftRun (run : Run α) : AcceptsInputs (liftRun run) := by
  cases run with
  | ok value => exact ok value
  | error error =>
    rintro _ ⟨⟩
    rfl

lemma sliceBound (value : Value) : AcceptsInputs (sliceBound value) := by
  intro error h
  unfold GuardedTrace.sliceBound at h
  split at h <;> cases h
  rfl

mutual

lemma evaluate (reader : Nat) (values : List Value) : ∀ operand : Operand,
    AcceptsInputs (operand.evaluate reader values)
  | .node id => by
    intro error h
    rw [Operand.evaluate] at h
    split at h <;> cases h
    rfl
  | .literal value => ok _
  | .tuple items => (evaluateItems reader values items).map
  | .list items => (evaluateItems reader values items).map
  | .dict entries => (evaluateEntries reader values entries).map
  | .slice start stop step =>
    (evaluate reader values start).bind fun _ => (sliceBound _).bind fun _ =>
      (evaluate reader values stop).bind fun _ => (sliceBound _).bind fun _ =>
        (evaluate reader values step).bind fun _ => (sliceBound _).bind fun _ => ok _
termination_by structural operand => operand

lemma evaluateItems (reader : Nat) (values : List Value) : ∀ items : List Operand,
    AcceptsInputs (Operand.evaluateItems reader values items)
  | [] => ok _
  | item :: rest =>
    (evaluate reader values item).bind fun _ =>
      (evaluateItems reader values rest).bind fun _ => ok _
termination_by structural items => items

lemma evaluateEntries (reader : Nat) (values : List Value) : ∀ entries : List (Key × Operand),
    AcceptsInputs (Operand.evaluateEntries reader values entries)
  | [] => ok _
  | (_, item) :: rest =>
    (evaluate reader values item).bind fun _ =>
      (evaluateEntries reader values rest).bind fun _ => ok _
termination_by structural entries => entries

end

lemma compute (compiled : CompiledGraph) (values : List Value) (node : Node) :
    AcceptsInputs (compiled.compute values node) := by
  unfold CompiledGraph.compute
  split
  · split
    · exact ok _
    · rintro _ ⟨⟩
      rfl
  · exact (evaluateItems _ _ _).bind fun _ => liftRun _
  · exact (evaluateItems _ _ _).bind fun _ => liftRun _
  · split
    · rintro _ ⟨⟩
      rfl
    · exact (evaluateItems _ _ _).bind fun _ => liftRun _
  · refine (evaluateItems _ _ _).bind fun args => ?_
    split
    · exact liftRun _
    · rintro _ ⟨⟩
      rfl
  · rintro _ ⟨⟩
    rfl
  · rintro _ ⟨⟩
    rfl

/-- A run that has a value for each placeholder. -/
lemma run (compiled : CompiledGraph) {nodes : List Node} {inputs : List Value} (values : List Value)
    (hcount : inputs.length = (⟨nodes⟩ : Graph).placeholders.length) :
    AcceptsInputs (compiled.run nodes inputs values) := by
  induction nodes generalizing inputs values with
  | nil =>
    rintro _ ⟨⟩
    rfl
  | cons node rest ih =>
    rw [Graph.placeholders_eq, List.filterMap_cons] at hcount
    unfold CompiledGraph.run
    split
    · next name hname =>
      rw [Node.name?_eq_some.2 hname] at hcount
      cases inputs with
      | nil => cases hcount
      | cons input inputs => exact ih _ (Nat.succ.inj hcount)
    · refine (evaluateItems _ _ _).bind fun results => ?_
      split
      · exact ok _
      · rintro _ ⟨⟩
        rfl
    · next hplaceholder _ =>
      have hnone : node.name? = none :=
        Option.eq_none_iff_forall_ne_some.2 fun name h => hplaceholder name (Node.name?_eq_some.1 h)
      rw [hnone] at hcount
      exact (compute compiled values node).bind fun _ => ih _ hcount

end AcceptsInputs

/-! ### Inputs in order -/

namespace Tracer

variable {state : Tracer}

/-- No path is an input from both scopes. -/
def OneScope (inputs : List InputBinding) : Prop :=
  ∀ name, ⟨name, .locals⟩ ∈ inputs → ⟨name, .globals⟩ ∉ inputs

lemma Tidy.nodup_names (h : state.Tidy) (hscope : OneScope state.inputs) :
    (state.inputs.map InputBinding.name).Nodup := by
  refine (List.nodup_map_iff_inj_on h.distinct).2 ?_
  rintro ⟨name, scope⟩ hinput ⟨_, scope'⟩ hinput' rfl
  cases scope <;> cases scope'
  · rfl
  · exact absurd hinput' (hscope name hinput)
  · exact absurd hinput (hscope name hinput')
  · rfl

/-- Inputs and placeholders have the same length exactly when they have the same names. -/
lemma Tidy.length_eq_iff (h : state.Tidy) :
    state.inputs.length = state.builder.placeholders.length ↔ OneScope state.inputs := by
  constructor
  · intro hlength name hlocal hglobal
    have hnodup : (state.inputs.map InputBinding.name).Nodup := h.lined hlength ▸ h.nodup
    have hsame := List.inj_on_of_nodup_map hnodup hlocal hglobal rfl
    cases hsame
  · intro hscope
    -- distinct names, all of them names of placeholders
    have hsub : state.inputs.map InputBinding.name ⊆ state.builder.placeholders := by
      intro name hname
      obtain ⟨input, hinput, rfl⟩ := List.mem_map.1 hname
      exact h.named input hinput
    have hle := ((h.nodup_names hscope).subperm hsub).length_le
    rw [List.length_map] at hle
    exact le_antisymm hle h.length_le

end Tracer

/-- **When inputs and placeholders go together.**  The inputs of a completed trace have, position by
position, the names of the placeholders of its graph exactly when no path is an input from both
scopes; and the graph, executed on as many values as there are inputs, complains about their number
exactly when some path is. -/
theorem inputs_line_up_iff {code : Code} {frame : Frame} {config : Config} {output : TraceOutput}
    (htrace : trace code frame config = .ok output) :
    (output.inputs.map InputBinding.name = output.graph.placeholders ↔
      Tracer.OneScope output.inputs) ∧
      ∀ limit compiled, output.graph.compile limit output.layers = .ok compiled →
        ∀ values : List Value, values.length = output.inputs.length →
          ((∃ expected given, compiled.execute values = .error (.inputArity expected given)) ↔
            ¬ Tracer.OneScope output.inputs) := by
  obtain ⟨last, hfrom⟩ := exists_traceFrom htrace
  obtain ⟨hextends, operand, rfl⟩ := traceFrom_extends hfrom
  have htidy : last.Tidy := hextends.tidy Tracer.tidy_start
  have hscope : last.inputs.length = last.builder.placeholders.length ↔
      Tracer.OneScope last.inputs :=
    htidy.length_eq_iff
  rw [last.placeholders_finish operand]
  refine ⟨⟨fun h => hscope.1 ?_, fun h => htidy.lined (hscope.2 h)⟩, ?_⟩
  · exact (List.length_map _).symm.trans (congrArg List.length h)
  intro limit compiled hcompile values hvalues
  obtain rfl := Graph.compile_eq_ok hcompile
  show _ ↔ ¬ Tracer.OneScope last.inputs
  rw [← hscope]
  unfold CompiledGraph.execute
  simp only [last.placeholders_finish operand]
  constructor
  · rintro ⟨expected, given, herror⟩ hlength
    rw [if_pos (hvalues.trans hlength)] at herror
    have hcount : values.length =
        (⟨(last.finish operand).graph.nodes⟩ : Graph).placeholders.length :=
      hvalues.trans (hlength.trans (congrArg List.length (last.placeholders_finish operand).symm))
    exact absurd (AcceptsInputs.run _ [] hcount _ herror) (by simp [GraphError.isArity])
  · intro hlength
    rw [if_neg fun h => hlength (hvalues.symm.trans h)]
    exact ⟨_, _, rfl⟩

/-- `x + x`, with the local `x` on the left and the global `x` on the right. -/
def shadowSum : Code :=
  { id := 0, name := "shadow_sum", argCount := 1, varNames := ["x"], names := ["x"], constants := []
    instructions := [⟨.loadFast, 0⟩, ⟨.loadGlobal, 0⟩, ⟨.binaryAdd, 0⟩, ⟨.returnValue, 0⟩] }

/-- A local array and a global of the same name. -/
def shadowFrame (shadowed : Value) : Frame :=
  { locals := [("x", .array (.contiguous .float64 .cpu [1] [⟨0⟩]))], globals := [("x", shadowed)] }

/-- With a number as the global there is one input, and it goes with its placeholder. -/
theorem inputs_line_up_shadowSum :
    ∃ output, trace shadowSum (shadowFrame (.int 1)) {} = .ok output ∧
    output.inputs = [⟨"x", .locals⟩] ∧ output.graph.placeholders = ["x"] := by
  have hinputs : ((trace shadowSum (shadowFrame (.int 1)) {}).toOption.map TraceOutput.inputs) =
      some [⟨"x", .locals⟩] := by decide +kernel
  cases htrace : trace shadowSum (shadowFrame (.int 1)) {} with
  | error stop => simp [htrace, Except.toOption] at hinputs
  | ok output =>
    simp only [htrace, Except.toOption, Option.map_some, Option.some.injEq] at hinputs
    refine ⟨output, rfl, hinputs, ?_⟩
    rw [← (inputs_line_up_iff htrace).1.2 (by simp [Tracer.OneScope, hinputs]), hinputs]
    rfl

/-- With two arrays there are two inputs and one placeholder, and the artifact cannot be
executed. -/
theorem not_inputs_line_up_shadowSum : ∃ output compiled,
    trace shadowSum (shadowFrame (.array (.contiguous .float64 .cpu [1] [⟨1⟩]))) {} = .ok output ∧
      output.inputs = [⟨"x", .locals⟩, ⟨"x", .globals⟩] ∧ output.graph.placeholders = ["x"] ∧
      output.graph.compile 4096 output.layers = .ok compiled ∧
      ∀ first second, compiled.execute [first, second] = .error (.inputArity 1 2) := by
  have hlists : ((trace shadowSum
      (shadowFrame (.array (.contiguous .float64 .cpu [1] [⟨1⟩]))) {}).toOption.map
      fun output => (output.inputs, output.graph.placeholders,
        ((output.graph.compile 4096 output.layers).toOption.map CompiledGraph.inputCount))) =
      some ([⟨"x", .locals⟩, ⟨"x", .globals⟩], ["x"], some 1) := by decide +kernel
  cases htrace : trace shadowSum
    (shadowFrame (.array (.contiguous .float64 .cpu [1] [⟨1⟩]))) {} with
  | error stop => simp [htrace, Except.toOption] at hlists
  | ok output =>
    simp only [htrace, Except.toOption, Option.map_some, Option.some.injEq, Prod.mk.injEq] at hlists
    obtain ⟨hinputs, hplaceholders, hcount⟩ := hlists
    cases hcompile : output.graph.compile 4096 output.layers with
    | error error => simp [hcompile] at hcount
    | ok compiled =>
      simp only [hcompile, Option.map_some, Option.some.injEq] at hcount
      refine ⟨output, compiled, rfl, hinputs, hplaceholders, hcompile, fun first second => ?_⟩
      simp [CompiledGraph.execute, hcount]

end GuardedTrace
