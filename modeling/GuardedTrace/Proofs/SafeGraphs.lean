/-
Traced graphs are safe to run.

A well-formed graph has numbered nodes that read only nodes before them, one output at its end, no
two nodes alike, and only calls of layers that its table has.  The graph of every completed trace is
well formed.

A check of a well-formed graph can fail only at a parameter that its table does not resolve.  When
it succeeds, every node can be computed as soon as the nodes before it are: what still fails, fails
on the values that are computed.
-/
import GuardedTrace.Proofs.GraphRuns
import GuardedTrace.Proofs.GroundedTraces

namespace GuardedTrace

/-! ### Well-formed graphs -/

namespace Graph

/-- Nodes are numbered, read only nodes before them, and are all different; the one output is last
and has one operand; attributes are read from one operand; and the called layers are in the
table. -/
structure WellFormed (graph : Graph) (layers : LayerTable) : Prop where
  numbered : ∀ (position : Nat) (node : Node), graph.nodes[position]? = some node →
    node.id = position
  behind : ∀ node ∈ graph.nodes, ∀ read ∈ node.reads, read < node.id
  returns : ∃ inner operand, graph.nodes = inner ++ [⟨inner.length, .output, [operand]⟩] ∧
    ∀ node ∈ inner, node.operation ≠ .output
  distinct : (graph.nodes.map fun node => (node.operation, node.operands)).Nodup
  unary : ∀ node ∈ graph.nodes, ∀ name, node.operation = .readAttr name → node.operands.length = 1
  registered : ∀ node ∈ graph.nodes, ∀ key, node.operation = .callLayer key →
    (layers.lookup key).isSome

end Graph

/-- A grounded state that is finished with an operand that reads its nodes. -/
lemma Tracer.Grounded.wellFormed {state : Tracer} (h : state.Grounded) (htidy : state.Tidy)
    {operand : Operand} (hreads : ∀ read ∈ operand.reads, read < state.builder.nodes.size) :
    (state.finish operand).graph.WellFormed (state.finish operand).layers := by
  have hnodes : (state.finish operand).graph.nodes =
      state.builder.nodes.toList ++ [⟨state.builder.nodes.size, .output, [operand]⟩] := rfl
  have hnumbered : ∀ (position : Nat) (node : Node),
      (state.finish operand).graph.nodes[position]? = some node → node.id = position := by
    intro position node hnode
    rw [hnodes] at hnode
    rcases getElem?_append_one hnode with hnode | ⟨rfl, rfl⟩
    · exact htidy.numbered position node hnode
    · simp
  refine ⟨hnumbered, ?_, ⟨_, operand, by simpa using hnodes, htidy.open_ended⟩, ?_, ?_, ?_⟩
  · intro node hmem read hread
    obtain ⟨position, hnode⟩ := List.getElem?_of_mem hmem
    rw [hnumbered position node hnode]
    rw [hnodes] at hnode
    rcases getElem?_append_one hnode with hnode | ⟨rfl, rfl⟩
    · exact h.builder.behind position node hnode read hread
    · simpa using hreads read (by simpa [Node.reads, Operand.readsItems] using hread)
  · rw [hnodes, List.map_append, List.map_singleton, List.nodup_append_comm]
    refine List.nodup_cons.2 ⟨fun hmem => ?_, h.builder.distinct⟩
    obtain ⟨node, hnode, hsame⟩ := List.mem_map.1 hmem
    exact htidy.open_ended node hnode (Prod.mk.inj hsame).1
  · rw [hnodes]
    refine List.forall_mem_append.2 ⟨h.builder.unary, by simp⟩
  · rw [hnodes]
    exact List.forall_mem_append.2 ⟨h.registered, by simp⟩

/-! ### Checks -/

section

variable {graph : Graph} {layers : LayerTable}

/-- What a check of a node says when it fails, and what is known of the node when it does not. -/
lemma Node.check_cases (parameters : Table Nat Value) {node : Node}
    (h : ∀ read ∈ node.reads, read < node.id)
    (hunary : ∀ name, node.operation = .readAttr name → node.operands.length = 1)
    (hregistered : ∀ key, node.operation = .callLayer key → (layers.lookup key).isSome) :
    (∃ after, node.check layers parameters = .ok after ∧
        ∀ target, node.operation = .parameter target → (layers.resolve? target).isSome) ∨
      ∃ target, node.operation = .parameter target ∧ layers.resolve? target = none ∧
        node.check layers parameters = .error (.unresolvedParameter target) := by
  have hfind : node.reads.find? (node.id ≤ ·) = none := by
    refine List.find?_eq_none.2 fun read hread => ?_
    simpa using h read hread
  cases hoperation : node.operation with
  | parameter target =>
    cases hresolve : layers.resolve? target with
    | none =>
      exact Or.inr ⟨target, rfl, hresolve, by simp [Node.check, hfind, hoperation, hresolve]⟩
    | some value =>
      refine Or.inl ⟨parameters ++ [(node.id, value)], by
        simp [Node.check, hfind, hoperation, hresolve], ?_⟩
      rintro _ ⟨⟩
      simp [hresolve]
  | callLayer key =>
    exact Or.inl ⟨parameters, by
      simp [Node.check, hfind, hoperation, hregistered key hoperation], nofun⟩
  | readAttr name =>
    exact Or.inl ⟨parameters, by
      simp [Node.check, hfind, hoperation, hunary name hoperation], nofun⟩
  | placeholder _ | callPrimitive _ | callMethod _ | output =>
    exact Or.inl ⟨parameters, by simp [Node.check, hfind, hoperation], nofun⟩

/-- The first parameter that cannot be resolved stops the check. -/
lemma foldlM_check_cases : ∀ {nodes : List Node} (parameters : Table Nat Value),
    (∀ node ∈ nodes, ∀ read ∈ node.reads, read < node.id) →
    (∀ node ∈ nodes, ∀ name, node.operation = .readAttr name → node.operands.length = 1) →
    (∀ node ∈ nodes, ∀ key, node.operation = .callLayer key → (layers.lookup key).isSome) →
    (∃ after, nodes.foldlM (Node.check layers) parameters = .ok after ∧
        ∀ node ∈ nodes, ∀ target, node.operation = .parameter target →
          (layers.resolve? target).isSome) ∨
      ∃ node ∈ nodes, ∃ target, node.operation = .parameter target ∧ layers.resolve? target = none ∧
        nodes.foldlM (Node.check layers) parameters = .error (.unresolvedParameter target)
  | [], parameters, _, _, _ => Or.inl ⟨parameters, rfl, nofun⟩
  | node :: rest, parameters, hbehind, hunary, hregistered => by
    simp only [List.forall_mem_cons] at hbehind hunary hregistered
    simp only [List.foldlM_cons, List.exists_mem_cons_iff, List.forall_mem_cons]
    rcases Node.check_cases parameters hbehind.1 hunary.1 hregistered.1 with
      ⟨middle, hcheck, hresolved⟩ | ⟨target, hoperation, hnone, hcheck⟩
    · rw [hcheck, ok_bind]
      rcases foldlM_check_cases middle hbehind.2 hunary.2 hregistered.2 with
        ⟨after, hrest, hothers⟩ | hrest
      · exact Or.inl ⟨after, hrest, hresolved, hothers⟩
      · exact Or.inr (Or.inr hrest)
    · rw [hcheck, error_bind]
      exact Or.inr (Or.inl ⟨target, hoperation, hnone, rfl⟩)

namespace Graph.WellFormed

lemma output?_isSome (h : graph.WellFormed layers) : graph.output?.isSome := by
  obtain ⟨inner, operand, hnodes, -⟩ := h.returns
  simp [Graph.output?, hnodes]

/-- A well-formed graph of at most `limit` nodes compiles unless a parameter cannot be resolved. -/
lemma compile_cases (h : graph.WellFormed layers) {limit : Nat}
    (hlimit : graph.nodes.length ≤ limit) :
    (∃ compiled, graph.compile limit layers = .ok compiled ∧
        ∀ node ∈ graph.nodes, ∀ target, node.operation = .parameter target →
          (layers.resolve? target).isSome) ∨
      ∃ node ∈ graph.nodes, ∃ target, node.operation = .parameter target ∧
        layers.resolve? target = none ∧
        graph.compile limit layers = .error (.unresolvedParameter target) := by
  have houtput : graph.output?.isNone = false := by
    rw [← Option.not_isSome, h.output?_isSome]
    rfl
  unfold Graph.compile
  rw [if_neg (by omega), if_neg (by simp [houtput])]
  rcases foldlM_check_cases [] h.behind h.unary h.registered with
    ⟨after, hcheck, hresolved⟩ | ⟨node, hnode, target, hoperation, hnone, hcheck⟩
  · rw [hcheck]
    exact Or.inl ⟨_, rfl, hresolved⟩
  · rw [hcheck]
    exact Or.inr ⟨node, hnode, target, hoperation, hnone, rfl⟩

end Graph.WellFormed

end

/-! ### Runs -/

/-- A computation that fails only on the values that it computes with: an operation fails, or the
bound of a slice is no number. -/
def FailsOnValues {α : Type} (x : Evaluation α) : Prop :=
  ∀ error, x = .error error → (∃ fault, error = .run fault) ∨ ∃ type, error = .badSliceBound type

namespace FailsOnValues

variable {α β : Type} {x : Evaluation α}

lemma ok (value : α) : FailsOnValues (.ok value : Evaluation α) := by
  intro error herror
  cases herror

lemma bind {f : α → Evaluation β} (hx : FailsOnValues x)
    (hf : ∀ value, x = .ok value → FailsOnValues (f value)) : FailsOnValues (x >>= f) := by
  intro error h
  cases x with
  | ok value => exact hf value rfl error h
  | error fault =>
    obtain rfl := Except.error.inj h
    exact hx fault rfl

lemma map {f : α → β} (hx : FailsOnValues x) : FailsOnValues (x.map f) := by
  intro error h
  cases x with
  | ok value => cases h
  | error fault =>
    obtain rfl := Except.error.inj h
    exact hx fault rfl

lemma liftRun (run : Run α) : FailsOnValues (liftRun run) := by
  cases run with
  | ok value => exact ok value
  | error fault =>
    rintro _ ⟨⟩
    exact Or.inl ⟨fault, rfl⟩

lemma sliceBound (value : Value) : FailsOnValues (sliceBound value) := by
  intro error h
  unfold GuardedTrace.sliceBound at h
  split at h <;> cases h
  exact Or.inr ⟨_, rfl⟩

section

variable {values : List Value}

mutual

/-- Operands that read computed nodes. -/
lemma evaluate (reader : Nat) :
    ∀ {operand : Operand}, (∀ read ∈ operand.reads, read < values.length) →
    FailsOnValues (operand.evaluate reader values)
  | .node id, h => by
    have hlt : id < values.length := h id (List.mem_singleton_self id)
    rw [Operand.evaluate, List.getElem?_eq_getElem hlt]
    exact ok _
  | .literal value, _ => ok _
  | .tuple items, h => (evaluateItems reader h).map
  | .list items, h => (evaluateItems reader h).map
  | .dict entries, h => (evaluateEntries reader h).map
  | .slice start stop step, h => by
    simp only [Operand.reads, List.forall_mem_append] at h
    obtain ⟨⟨hstart, hstop⟩, hstep⟩ := h
    exact (evaluate reader hstart).bind fun _ _ => (sliceBound _).bind fun _ _ =>
      (evaluate reader hstop).bind fun _ _ => (sliceBound _).bind fun _ _ =>
        (evaluate reader hstep).bind fun _ _ => (sliceBound _).bind fun _ _ => ok _
termination_by structural operand => operand

lemma evaluateItems (reader : Nat) : ∀ {items : List Operand},
    (∀ read ∈ Operand.readsItems items, read < values.length) →
    FailsOnValues (Operand.evaluateItems reader values items)
  | [], _ => ok _
  | item :: rest, h => by
    obtain ⟨hitem, hrest⟩ := List.forall_mem_append.1 h
    exact (evaluate reader hitem).bind fun _ _ => (evaluateItems reader hrest).bind fun _ _ => ok _
termination_by structural items => items

lemma evaluateEntries (reader : Nat) : ∀ {entries : List (Key × Operand)},
    (∀ read ∈ Operand.readsEntries entries, read < values.length) →
    FailsOnValues (Operand.evaluateEntries reader values entries)
  | [], _ => ok _
  | (_, item) :: rest, h => by
    obtain ⟨hitem, hrest⟩ := List.forall_mem_append.1 h
    exact (evaluate reader hitem).bind fun _ _ =>
      (evaluateEntries reader hrest).bind fun _ _ => ok _
termination_by structural entries => entries

end

end

end FailsOnValues

lemma Operand.length_of_evaluateItems {reader : Nat} {values found : List Value}
    {items : List Operand}
    (h : Operand.evaluateItems reader values items = .ok found) : found.length = items.length := by
  induction items generalizing found with
  | nil =>
    cases h
    rfl
  | cons item rest ih =>
    simp only [Operand.evaluateItems, except_bind_eq_ok] at h
    obtain ⟨value, -, others, hothers, hfound⟩ := h
    obtain rfl := Except.ok.inj hfound
    simp [ih hothers]

namespace CompiledGraph

variable {compiled : CompiledGraph}

/-- A node that can be computed as soon as the nodes before it are. -/
structure Ready (compiled : CompiledGraph) (node : Node) : Prop where
  behind : ∀ read ∈ node.reads, read < node.id
  resolved : ∀ target, node.operation = .parameter target →
    (compiled.parameters.lookup node.id).isSome
  registered : ∀ key, node.operation = .callLayer key → (compiled.layers.lookup key).isSome
  unary : ∀ name, node.operation = .readAttr name → node.operands.length = 1
  returns : node.operation = .output → node.operands ≠ []

/-- All operations but placeholders and outputs, which are not computed. -/
lemma Ready.compute {node : Node} (h : compiled.Ready node) {values : List Value}
    (hid : node.id = values.length) (hplaceholder : ∀ name, node.operation ≠ .placeholder name)
    (houtput : node.operation ≠ .output) : FailsOnValues (compiled.compute values node) := by
  have hargs : FailsOnValues (Operand.evaluateItems node.id values node.operands) :=
    .evaluateItems _ (hid ▸ h.behind)
  unfold CompiledGraph.compute
  split
  · next target hoperation =>
    obtain ⟨value, hvalue⟩ := Option.isSome_iff_exists.1 (h.resolved target hoperation)
    rw [hvalue]
    exact .ok _
  · exact hargs.bind fun _ _ => .liftRun _
  · exact hargs.bind fun _ _ => .liftRun _
  · next key hoperation =>
    obtain ⟨layer, hlayer⟩ := Option.isSome_iff_exists.1 (h.registered key hoperation)
    rw [hlayer]
    exact hargs.bind fun _ _ => .liftRun _
  · next name hoperation =>
    refine hargs.bind fun args hok => ?_
    obtain ⟨base, rfl⟩ := List.length_eq_one_iff.1
      ((Operand.length_of_evaluateItems hok).trans (h.unary name hoperation))
    exact .liftRun _
  · next name hoperation => exact absurd hoperation (hplaceholder name)
  · next hoperation => exact absurd hoperation houtput

/-- A run over nodes that are ready, with a value for each placeholder, that comes to an output. -/
lemma failsOnValues_run : ∀ {nodes : List Node} {inputs values : List Value},
    (∀ node ∈ nodes, compiled.Ready node) →
    (∀ (position : Nat) (node : Node), nodes[position]? = some node →
      node.id = values.length + position) →
    (∃ node ∈ nodes, node.operation = .output) →
      inputs.length = (⟨nodes⟩ : Graph).placeholders.length →
    FailsOnValues (compiled.run nodes inputs values)
  | [], _, _, _, _, houtput, _ => by
    obtain ⟨node, hnode, -⟩ := houtput
    cases hnode
  | node :: rest, inputs, values, hready, hnumbered, houtput, hcount => by
    obtain ⟨hnode, hrest⟩ := List.forall_mem_cons.1 hready
    have hid : node.id = values.length := hnumbered 0 node rfl
    have hnext : ∀ value : Value, ∀ (position : Nat) (other : Node), rest[position]? = some other →
        other.id = (values ++ [value]).length + position := by
      intro value position other hother
      rw [hnumbered (position + 1) other hother, List.length_append, List.length_singleton]
      omega
    -- A placeholder takes an input, an output ends the run, and any other node is computed.
    rw [Graph.placeholders_eq, List.filterMap_cons] at hcount
    unfold CompiledGraph.run
    split
    · next name hname =>
      rw [Node.name?_eq_some.2 hname] at hcount
      have hlater : ∃ other ∈ rest, other.operation = .output := by
        simpa [hname] using houtput
      cases inputs with
      | nil => cases hcount
      | cons input inputs =>
        exact failsOnValues_run hrest (hnext input) hlater (Nat.succ.inj hcount)
    · next hoperation =>
      refine (FailsOnValues.evaluateItems _ (hid ▸ hnode.behind)).bind fun results hok => ?_
      cases results with
      | nil =>
        have hlength := (Operand.length_of_evaluateItems hok).symm
        exact absurd (List.length_eq_zero_iff.1 hlength) (hnode.returns hoperation)
      | cons result others => exact .ok _
    · next hplaceholder hother =>
      have hnone : node.name? = none :=
        Option.eq_none_iff_forall_ne_some.2 fun name h => hplaceholder name (Node.name?_eq_some.1 h)
      rw [hnone] at hcount
      have hlater : ∃ other ∈ rest, other.operation = .output :=
        (List.exists_mem_cons_iff _ _ _).1 houtput |>.resolve_left hother
      exact (hnode.compute hid hplaceholder hother).bind fun value _ =>
        failsOnValues_run hrest (hnext value) hlater hcount

end CompiledGraph

namespace Graph.WellFormed

variable {graph : Graph} {layers : LayerTable} {limit : Nat} {compiled : CompiledGraph}

/-- All nodes of a well-formed graph that compiles are ready. -/
lemma ready (h : graph.WellFormed layers) (hcompile : graph.compile limit layers = .ok compiled) :
    ∀ node ∈ graph.nodes, compiled.Ready node := by
  -- A graph above the limit is refused before its nodes are looked at.
  have hlimit : graph.nodes.length ≤ limit := by
    by_contra hlimit
    rw [Graph.compile, if_pos (by omega)] at hcompile
    cases hcompile
  have hresolved : ∀ node ∈ graph.nodes, ∀ target, node.operation = .parameter target →
      (layers.resolve? target).isSome := by
    rcases h.compile_cases hlimit with ⟨_, -, hresolved⟩ | ⟨_, -, _, -, -, hfails⟩
    · exact hresolved
    · cases hfails.symm.trans hcompile
  obtain rfl := Graph.compile_eq_ok hcompile
  intro node hnode
  refine ⟨h.behind node hnode, fun target hoperation => ?_, h.registered node hnode,
    h.unary node hnode, ?_⟩
  · obtain ⟨value, hvalue⟩ := Option.isSome_iff_exists.1 (hresolved node hnode target hoperation)
    have hmem : (node.id, value) ∈ graph.nodes.filterMap (Node.parameter? layers) :=
      List.mem_filterMap.2 ⟨node, hnode, by simp [Node.parameter?, hoperation, hvalue]⟩
    rw [Option.isSome_iff_ne_none]
    intro hnone
    simpa using List.lookup_eq_none_iff.1 hnone _ hmem
  · obtain ⟨inner, operand, hnodes, hinner⟩ := h.returns
    intro hoperation
    rw [hnodes] at hnode
    rcases List.mem_append.1 hnode with hnode | hnode
    · exact absurd hoperation (hinner node hnode)
    · simp [List.mem_singleton.1 hnode]

/-- A well-formed graph that compiles fails only on values, when it is given one for each
placeholder. -/
lemma failsOnValues_execute (h : graph.WellFormed layers)
    (hcompile : graph.compile limit layers = .ok compiled) {inputs : List Value}
    (hcount : inputs.length = graph.placeholders.length) :
    FailsOnValues (compiled.execute inputs) := by
  have hready := h.ready hcompile
  obtain rfl := Graph.compile_eq_ok hcompile
  have houtput : ∃ node ∈ graph.nodes, node.operation = .output := by
    obtain ⟨inner, operand, hnodes, -⟩ := h.returns
    simp [hnodes]
  unfold CompiledGraph.execute
  rw [if_pos hcount]
  exact CompiledGraph.failsOnValues_run hready (by simpa using h.numbered) houtput hcount

end Graph.WellFormed

/-! ### Traced graphs -/

section

variable {code : Code} {frame : Frame} {config : Config} {output : TraceOutput}

lemma wellFormed_of_trace (htrace : trace code frame config = .ok output) :
    output.graph.WellFormed output.layers := by
  obtain ⟨last, hfrom⟩ := exists_traceFrom htrace
  have htidy : last.Tidy := (traceFrom_extends hfrom).1.tidy Tracer.tidy_start
  obtain ⟨hgrounded, operand, rfl, hreads⟩ := traceFrom_grounded Tracer.grounded_start hfrom
  exact hgrounded.wellFormed htidy hreads

/-- **Traced graphs are well formed and safe to run.**  The graph of a completed trace is well
formed.  With a limit that it keeps it fails to compile only at a parameter that its layers do not
resolve.  Once compiled, and given a value for each placeholder, it fails only when an operation
does or when the bound of a slice is neither a number nor absent. -/
theorem traced_graph_runs_safely (htrace : trace code frame config = .ok output) :
    output.graph.WellFormed output.layers ∧
      (∀ limit error, output.graph.nodes.length ≤ limit →
        output.graph.compile limit output.layers = .error error →
          ∃ node ∈ output.graph.nodes, ∃ target, node.operation = .parameter target ∧
            output.layers.resolve? target = none ∧ error = .unresolvedParameter target) ∧
      ∀ limit compiled, output.graph.compile limit output.layers = .ok compiled →
        compiled.inputCount = output.graph.placeholders.length ∧
          ∀ inputs error, inputs.length = compiled.inputCount →
            compiled.execute inputs = .error error →
            (∃ fault, error = .run fault) ∨ ∃ type, error = .badSliceBound type := by
  have hwellFormed := wellFormed_of_trace htrace
  refine ⟨hwellFormed, fun limit error hlimit hcompile => ?_, fun limit compiled hcompile => ?_⟩
  · rcases hwellFormed.compile_cases hlimit with
      ⟨compiled, hok, -⟩ | ⟨node, hnode, target, hnode', hnone, hfails⟩
    · cases hok.symm.trans hcompile
    · exact ⟨node, hnode, target, hnode', hnone, Except.error.inj (hcompile.symm.trans hfails)⟩
  · have hcount : compiled.inputCount = output.graph.placeholders.length := by
      rw [Graph.compile_eq_ok hcompile]
    exact ⟨hcount, fun inputs error hinputs =>
      hwellFormed.failsOnValues_execute hcompile (hinputs.trans hcount) error⟩

end

/-- `m(x) + m.weight`. -/
def weighted : Code :=
  { id := 0, name := "weighted", argCount := 2, varNames := ["m", "x"], names := ["weight"]
    constants := []
    instructions := [⟨.loadFast, 0⟩, ⟨.loadFast, 1⟩, ⟨.callFunction, 1⟩,
      ⟨.loadFast, 0⟩, ⟨.loadAttr, 0⟩, ⟨.binaryAdd, 0⟩, ⟨.returnValue, 0⟩] }

/-- A layer that scales by two, and an array. -/
def weightedFrame : Frame :=
  let numbers (value : Double) : Value := .array (.contiguous .float64 .cpu [1] [value])
  { locals := [("m", .layer
    ⟨.declared 1, "Scale", .scale, [("weight", numbers ⟨0x4000000000000000⟩)]⟩),
      ("x", numbers ⟨0⟩)] }

/-- An input, a call of a layer, a parameter and a sum: the check of the five nodes finds nothing,
and a run on one input can fail only on values. -/
theorem weighted_runs_safely : ∃ output compiled, trace weighted weightedFrame {} = .ok output ∧
    output.graph.nodes.length = 5 ∧ output.graph.WellFormed output.layers ∧
    output.graph.compile 5 output.layers = .ok compiled ∧
    ∀ input error, compiled.execute [input] = .error error →
      (∃ fault, error = .run fault) ∨ ∃ type, error = .badSliceBound type := by
  have hfacts : ((trace weighted weightedFrame {}).toOption.map fun output =>
      (output.graph.nodes.length, output.graph.placeholders.length,
        (output.graph.compile 5 output.layers).isOk)) = some (5, 1, true) := by decide +kernel
  cases htrace : trace weighted weightedFrame {} with
  | error stop => simp [htrace, Except.toOption] at hfacts
  | ok output =>
    simp only [htrace, Except.toOption, Option.map_some, Option.some.injEq, Prod.mk.injEq] at hfacts
    obtain ⟨hlength, hcount, hok⟩ := hfacts
    obtain ⟨hwellFormed, -, hruns⟩ := traced_graph_runs_safely htrace
    cases hcompile : output.graph.compile 5 output.layers with
    | error fault => simp [hcompile, Except.isOk, Except.toBool] at hok
    | ok compiled =>
      obtain ⟨hinputs, hexecute⟩ := hruns 5 compiled hcompile
      exact ⟨output, compiled, rfl, hlength, hwellFormed, hcompile,
        fun input error => hexecute [input] error (by simp [hinputs, hcount])⟩

end GuardedTrace
