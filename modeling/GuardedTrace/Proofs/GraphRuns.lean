/-
What a successful evaluation of a graph says about the values of its nodes.

The nodes of a recorded graph are equations: a placeholder is the value of its binding, a call is
its primitive applied to its operands, and so on.  `Tracer.Solves` says that a list of values solves
the equations of everything that a trace has recorded, and `exists_solves` that an evaluation that
succeeds computes such a list.  All that is proved about evaluations elsewhere rests on these
equations; the order of evaluation, the check of the graph and the table of parameters do not occur
outside this file.
-/
import GuardedTrace.Graph.Evaluation
import GuardedTrace.Guard.Basic
import GuardedTrace.Proofs.Growth

namespace GuardedTrace

/-! ### Operands -/

lemma liftRun_eq_ok {α : Type} {run : Run α} {value : α} :
    liftRun run = .ok value ↔ run = .ok value := by
  cases run <;> simp [liftRun]

namespace Operand

variable {values more : List Value} {reader other : Nat}

mutual

/-- An operand keeps its value when more nodes have values, whoever reads it. -/
lemma evaluate_mono (hmore : ∀ (id : Nat) value, values[id]? = some value → more[id]? = some value)
    (reader other : Nat) : ∀ {operand : Operand} {value : Value},
      evaluate reader values operand = .ok value → evaluate other more operand = .ok value
  | node id, value, h => by
    simp only [evaluate] at h ⊢
    split at h
    · next found hfound =>
      rw [hmore id found hfound]
      exact h
    · cases h
  | literal _, value, h => by simpa only [evaluate] using h
  | tuple items, value, h => by
    simp only [evaluate, except_map_eq_ok] at h ⊢
    obtain ⟨found, hfound, rfl⟩ := h
    exact ⟨found, evaluateItems_mono hmore reader other hfound, rfl⟩
  | list items, value, h => by
    simp only [evaluate, except_map_eq_ok] at h ⊢
    obtain ⟨found, hfound, rfl⟩ := h
    exact ⟨found, evaluateItems_mono hmore reader other hfound, rfl⟩
  | dict entries, value, h => by
    simp only [evaluate, except_map_eq_ok] at h ⊢
    obtain ⟨found, hfound, rfl⟩ := h
    exact ⟨found, evaluateEntries_mono hmore reader other hfound, rfl⟩
  | slice start stop step, value, h => by
    simp only [evaluate, except_bind_eq_ok] at h ⊢
    obtain ⟨first, hfirst, a, ha, second, hsecond, b, hb, third, hthird, c, hc, hvalue⟩ := h
    exact ⟨first, evaluate_mono hmore reader other hfirst, a, ha, second,
      evaluate_mono hmore reader other hsecond, b, hb, third,
      evaluate_mono hmore reader other hthird, c, hc, hvalue⟩
termination_by structural operand => operand

lemma evaluateItems_mono (hmore : ∀ (id : Nat) value, values[id]? = some value →
    more[id]? = some value)
    (reader other : Nat) : ∀ {items : List Operand} {found : List Value},
      evaluateItems reader values items = .ok found → evaluateItems other more items = .ok found
  | [], found, h => by simpa only [evaluateItems] using h
  | item :: rest, found, h => by
    simp only [evaluateItems, except_bind_eq_ok] at h ⊢
    obtain ⟨value, hvalue, others, hothers, hfound⟩ := h
    exact ⟨value, evaluate_mono hmore reader other hvalue, others,
      evaluateItems_mono hmore reader other hothers, hfound⟩
termination_by structural items => items

lemma evaluateEntries_mono
    (hmore : ∀ (id : Nat) value, values[id]? = some value → more[id]? = some value)
    (reader other : Nat) : ∀ {entries : List (Key × Operand)} {found : List (Key × Value)},
      evaluateEntries reader values entries = .ok found →
        evaluateEntries other more entries = .ok found
  | [], found, h => by simpa only [evaluateEntries] using h
  | (key, item) :: rest, found, h => by
    simp only [evaluateEntries, except_bind_eq_ok] at h ⊢
    obtain ⟨value, hvalue, others, hothers, hfound⟩ := h
    exact ⟨value, evaluate_mono hmore reader other hvalue, others,
      evaluateEntries_mono hmore reader other hothers, hfound⟩
termination_by structural entries => entries

end

end Operand

/-! ### Computing a node -/

namespace CompiledGraph

variable {compiled : CompiledGraph} {values more : List Value} {node : Node} {value : Value}

lemma compute_parameter {target : String} (hoperation : node.operation = .parameter target) :
    compiled.compute values node = .ok value ↔ compiled.parameters.lookup node.id = some value := by
  simp only [compute, hoperation]
  cases compiled.parameters.lookup node.id <;> simp

lemma compute_call {function : Primitive}
    (hoperation : node.operation = .callPrimitive function ∨
      node.operation = .callMethod function) :
    compiled.compute values node = .ok value ↔
      ∃ args, Operand.evaluateItems node.id values node.operands = .ok args ∧
        function.call node.id args = .ok value := by
  rcases hoperation with hoperation | hoperation <;>
    simp only [compute, hoperation, except_bind_eq_ok, liftRun_eq_ok]

lemma compute_callLayer {key : String} (hoperation : node.operation = .callLayer key) :
    compiled.compute values node = .ok value ↔
      ∃ layer args, compiled.layers.lookup key = some layer ∧
        Operand.evaluateItems node.id values node.operands = .ok args ∧
          layer.forward node.id args = .ok value := by
  simp only [compute, hoperation]
  cases compiled.layers.lookup key <;> simp [except_bind_eq_ok, liftRun_eq_ok]

lemma compute_readAttr {name : String} (hoperation : node.operation = .readAttr name) :
    compiled.compute values node = .ok value ↔
      ∃ base, Operand.evaluateItems node.id values node.operands = .ok [base] ∧
        base.getAttr node.id name = .ok value := by
  simp only [compute, hoperation, except_bind_eq_ok]
  constructor
  · rintro ⟨args, hargs, h⟩
    split at h
    · next base => exact ⟨base, hargs, liftRun_eq_ok.1 h⟩
    · cases h
  · rintro ⟨base, hargs, h⟩
    exact ⟨[base], hargs, liftRun_eq_ok.2 h⟩

/-- A node keeps its value when more nodes have values. -/
lemma compute_mono (hmore : ∀ (id : Nat) value, values[id]? = some value → more[id]? = some value)
    (h : compiled.compute values node = .ok value) : compiled.compute more node = .ok value := by
  cases hoperation : node.operation with
  | parameter target => exact (compute_parameter hoperation).2 ((compute_parameter hoperation).1 h)
  | callPrimitive function =>
    obtain ⟨args, hargs, hcall⟩ := (compute_call (Or.inl hoperation)).1 h
    exact (compute_call (Or.inl hoperation)).2
      ⟨args, Operand.evaluateItems_mono hmore _ _ hargs, hcall⟩
  | callMethod function =>
    obtain ⟨args, hargs, hcall⟩ := (compute_call (Or.inr hoperation)).1 h
    exact (compute_call (Or.inr hoperation)).2
      ⟨args, Operand.evaluateItems_mono hmore _ _ hargs, hcall⟩
  | callLayer key =>
    obtain ⟨layer, args, hlayer, hargs, hforward⟩ := (compute_callLayer hoperation).1 h
    exact (compute_callLayer hoperation).2
      ⟨layer, args, hlayer, Operand.evaluateItems_mono hmore _ _ hargs, hforward⟩
  | readAttr name =>
    obtain ⟨base, hargs, hattr⟩ := (compute_readAttr hoperation).1 h
    exact (compute_readAttr hoperation).2 ⟨base, Operand.evaluateItems_mono hmore _ _ hargs, hattr⟩
  | placeholder _ | output => simp [compute, hoperation] at h

end CompiledGraph

/-! ### Runs of compiled graphs -/

/-- The name of a placeholder. -/
def Node.name? (node : Node) : Option String :=
  match node.operation with
  | .placeholder name => some name
  | _ => none

lemma Node.name?_eq_some {node : Node} {name : String} :
    node.name? = some name ↔ node.operation = .placeholder name := by
  unfold Node.name?
  split <;> simp_all

lemma Graph.placeholders_eq (graph : Graph) :
    graph.placeholders = graph.nodes.filterMap Node.name? := rfl

lemma Tracer.placeholders_finish (state : Tracer) (operand : Operand) :
    (state.finish operand).graph.placeholders = state.builder.placeholders := by
  have hgraph : (state.finish operand).graph.nodes =
      state.builder.nodes.toList ++ [⟨state.builder.nodes.size, .output, [operand]⟩] := rfl
  rw [Graph.placeholders_eq, hgraph, List.filterMap_append]
  exact List.append_nil _

/-- The placeholders among nodes, each with its value. -/
def namedValues (nodes : List Node) (values : List Value) : List (String × Value) :=
  (nodes.zip values).filterMap fun entry => entry.1.name?.map fun name => (name, entry.2)

/-- A node takes the next input, or is computed from the values so far; the other nodes follow with
its value behind these. -/
lemma CompiledGraph.run_cons {compiled : CompiledGraph} {node : Node} {rest : List Node}
    {inputs values : List Value} {result : Value} (hopen : node.operation ≠ .output)
    (h : compiled.run (node :: rest) inputs values = .ok result) :
    ∃ value inputs', compiled.run rest inputs' (values ++ [value]) = .ok result ∧
      ((∃ name, node.operation = .placeholder name ∧ inputs = value :: inputs') ∨
        ((∀ name, node.operation ≠ .placeholder name) ∧ inputs = inputs' ∧
          compiled.compute values node = .ok value)) := by
  cases hoperation : node.operation with
  | placeholder name =>
    simp only [run, hoperation] at h
    cases inputs with
    | nil => cases h
    | cons value inputs' => exact ⟨value, inputs', h, Or.inl ⟨name, rfl, rfl⟩⟩
  | output => exact absurd hoperation hopen
  | _ =>
    simp only [run, hoperation, except_bind_eq_ok] at h
    obtain ⟨value, hvalue, h⟩ := h
    exact ⟨value, inputs, h, Or.inr ⟨nofun, rfl, hvalue⟩⟩

/-- A run computes one value for each node, from the values before it. -/
lemma CompiledGraph.run_eq_ok {compiled : CompiledGraph} {id : Nat} {operand : Operand}
    {result : Value} : ∀ {nodes : List Node} {inputs values : List Value},
    (∀ node ∈ nodes, node.operation ≠ .output) →
    compiled.run (nodes ++ [⟨id, .output, [operand]⟩]) inputs values = .ok result →
    ∃ computed : List Value, computed.length = nodes.length ∧
      operand.evaluate id (values ++ computed) = .ok result ∧
      namedValues nodes computed = (⟨nodes⟩ : Graph).placeholders.zip inputs ∧
      ∀ position node value, nodes[position]? = some node → computed[position]? = some value →
        (∀ name, node.operation ≠ .placeholder name) →
        compiled.compute (values ++ computed.take position) node = .ok value
  | [], inputs, values, _, h => by
    simp only [List.nil_append, run, Operand.evaluateItems, except_bind_eq_ok] at h
    obtain ⟨args, ⟨value, hvalue, others, hothers, hargs⟩, h⟩ := h
    cases hothers
    cases hargs
    cases h
    exact ⟨[], rfl, by simpa using hvalue, rfl, by simp⟩
  | node :: rest, inputs, values, hopen, h => by
    have hrest : ∀ other ∈ rest, other.operation ≠ .output :=
      fun other hother => hopen other (List.mem_cons_of_mem _ hother)
    obtain ⟨value, inputs', h, hnode⟩ := run_cons (hopen node (List.mem_cons_self ..)) h
    obtain ⟨computed, hlength, hresult, hnamed, hcomputed⟩ := run_eq_ok hrest h
    refine ⟨value :: computed, by simp [hlength], by simpa using hresult, ?_, ?_⟩
    · rcases hnode with ⟨name, hname, rfl⟩ | ⟨hname, rfl, -⟩
      · simpa [namedValues, Graph.placeholders_eq, Node.name?_eq_some.2 hname] using hnamed
      · have hnone : node.name? = none :=
          Option.eq_none_iff_forall_ne_some.2 fun name h => hname name (Node.name?_eq_some.1 h)
        simpa [namedValues, Graph.placeholders_eq, hnone] using hnamed
    · intro position other found hother hfound hplaceholder
      cases position with
      | zero =>
        obtain rfl := Option.some.inj hother
        obtain rfl := Option.some.inj hfound
        rcases hnode with ⟨name, hname, -⟩ | ⟨-, -, hvalue⟩
        · exact absurd hname (hplaceholder name)
        · simpa using hvalue
      | succ position =>
        have h := hcomputed position other found hother hfound hplaceholder
        simpa using h

/-! ### Parameters -/

/-- The entry that a node adds to the parameters. -/
def Node.parameter? (layers : LayerTable) (node : Node) : Option (Nat × Value) :=
  match node.operation with
  | .parameter target => (layers.resolve? target).map fun value => (node.id, value)
  | _ => none

lemma Node.check_eq_ok {layers : LayerTable} {parameters after : Table Nat Value} {node : Node}
    (h : node.check layers parameters = .ok after) :
    after = parameters ++ (node.parameter? layers).toList := by
  unfold Node.check at h
  split at h
  · cases h
  · cases hoperation : node.operation with
    | parameter target =>
      simp only [hoperation] at h
      cases hvalue : layers.resolve? target with
      | none => simp [hvalue] at h
      | some value =>
        simp only [hvalue, Except.ok.injEq] at h
        simp [Node.parameter?, hoperation, hvalue, ← h]
    | callLayer target =>
      simp only [hoperation] at h
      split at h
      · cases h
        simp [Node.parameter?, hoperation]
      · cases h
    | readAttr name =>
      simp only [hoperation] at h
      split at h
      · cases h
        simp [Node.parameter?, hoperation]
      · cases h
    | _ =>
      simp only [hoperation, Except.ok.injEq] at h
      simp [Node.parameter?, hoperation, h]

lemma foldlM_check_eq_ok {layers : LayerTable} : ∀ {nodes : List Node}
    {parameters after : Table Nat Value}, nodes.foldlM (Node.check layers) parameters = .ok after →
      after = parameters ++ nodes.filterMap (Node.parameter? layers)
  | [], parameters, after, h => by
    cases h
    simp
  | node :: rest, parameters, after, h => by
    rw [List.foldlM_cons, except_bind_eq_ok] at h
    obtain ⟨middle, hmiddle, h⟩ := h
    rw [foldlM_check_eq_ok h, Node.check_eq_ok hmiddle]
    cases hnode : node.parameter? layers <;> simp [hnode]

/-- A compiled graph is the graph with its parameters. -/
lemma Graph.compile_eq_ok {limit : Nat} {graph : Graph} {layers : LayerTable}
    {compiled : CompiledGraph} (h : graph.compile limit layers = .ok compiled) :
    compiled = ⟨graph.nodes, layers, graph.nodes.filterMap (Node.parameter? layers),
      graph.placeholders.length⟩ := by
  unfold Graph.compile at h
  split at h
  · cases h
  · split at h
    · cases h
    · obtain ⟨parameters, hparameters, hcompiled⟩ := except_bind_eq_ok.1 h
      rw [foldlM_check_eq_ok hparameters] at hcompiled
      exact (Except.ok.inj hcompiled).symm

/-- The parameter of a node is what the table of layers has under its target. -/
lemma resolve?_of_lookup {layers : LayerTable} {nodes : List Node}
    (hnumbered : ∀ (position : Nat) (node : Node), nodes[position]? = some node →
      node.id = position)
    {position : Nat} {node : Node} (hnode : nodes[position]? = some node) {target : String}
    (hoperation : node.operation = .parameter target) {value : Value}
    (h : (nodes.filterMap (Node.parameter? layers)).lookup node.id = some value) :
    layers.resolve? target = some value := by
  obtain ⟨before, behind, hsplit, -⟩ := List.lookup_eq_some_iff.1 h
  have hmem : (node.id, value) ∈ nodes.filterMap (Node.parameter? layers) := by
    rw [hsplit]
    simp
  obtain ⟨other, hother, hentry⟩ := List.mem_filterMap.1 hmem
  obtain ⟨place, hplace⟩ := List.getElem?_of_mem hother
  unfold Node.parameter? at hentry
  split at hentry
  · next found hfound =>
    obtain ⟨value', hvalue', hsame⟩ := Option.map_eq_some_iff.1 hentry
    obtain ⟨hid, rfl⟩ := Prod.mk.inj hsame
    -- nodes of one number are one node
    rw [hnumbered place other hplace, hnumbered position node hnode] at hid
    subst hid
    obtain rfl := Option.some.inj (hplace.symm.trans hnode)
    rw [hoperation] at hfound
    cases hfound
    exact hvalue'
  · cases hentry

/-! ### Solutions -/

/-- The values solve the equations of the nodes that a trace has recorded on a frame. -/
structure Tracer.Solves (state : Tracer) (frame : Frame) (values : List Value) : Prop where
  input : ∀ {id : Nat} {node : Node} {path : String} {scope : Scope},
    state.builder.nodes.toList[id]? = some node → node.operation = .placeholder path →
    ⟨path, scope⟩ ∈ state.inputs →
    ∃ value, values[id]? = some value ∧ frame.resolve scope path = .ok value
  parameter : ∀ {id : Nat} {node : Node} {target : String},
    state.builder.nodes.toList[id]? = some node → node.operation = .parameter target →
    ∃ value, values[id]? = some value ∧ state.layers.resolve? target = some value
  call : ∀ {id : Nat} {node : Node} {function : Primitive},
    state.builder.nodes.toList[id]? = some node →
    node.operation = .callPrimitive function ∨ node.operation = .callMethod function →
    ∃ args value, values[id]? = some value ∧
      Operand.evaluateItems id values node.operands = .ok args ∧ function.call id args = .ok value
  layer : ∀ {id : Nat} {node : Node} {key : String},
    state.builder.nodes.toList[id]? = some node → node.operation = .callLayer key →
    ∃ layer args value, state.layers.lookup key = some layer ∧ values[id]? = some value ∧
      Operand.evaluateItems id values node.operands = .ok args ∧ layer.forward id args = .ok value
  attr : ∀ {id : Nat} {node : Node} {name : String},
    state.builder.nodes.toList[id]? = some node → node.operation = .readAttr name →
    ∃ base value, values[id]? = some value ∧
      Operand.evaluateItems id values node.operands = .ok [base] ∧ base.getAttr id name = .ok value

/-- Inputs with distinct names: a name and a value that are paired belong to one binding. -/
lemma resolve_of_mem_zip {frame : Frame} {inputs : List InputBinding} {values : List Value}
    (hvalues : List.Forall₂ (fun input value => frame.resolve input.scope input.name = .ok value)
      inputs values) {name : String} {value : Value}
    (hmem : (name, value) ∈ (inputs.map InputBinding.name).zip values) :
    ∃ input ∈ inputs, input.name = name ∧ frame.resolve input.scope name = .ok value := by
  induction hvalues with
  | nil => cases hmem
  | @cons input found inputs values hfound _ ih =>
    rw [List.map_cons, List.zip_cons_cons, List.mem_cons] at hmem
    rcases hmem with hmem | hmem
    · obtain ⟨rfl, rfl⟩ := Prod.mk.inj hmem
      exact ⟨input, List.mem_cons_self .., rfl, hfound⟩
    · obtain ⟨other, hother, h⟩ := ih hmem
      exact ⟨other, List.mem_cons_of_mem _ hother, h⟩

/-- A placeholder has the value of the binding of its name, when every input has a placeholder of
its own. -/
lemma resolve_of_namedValues {nodes : List Node} {inputs : List InputBinding}
    {given values : List Value}
    {frame : Frame}
    (hgiven : List.Forall₂ (fun input value => frame.resolve input.scope input.name =
      .ok value) inputs given)
    (hlined : inputs.map InputBinding.name = (⟨nodes⟩ : Graph).placeholders)
    (hnodup : (⟨nodes⟩ : Graph).placeholders.Nodup)
    (hnamed : namedValues nodes values = (⟨nodes⟩ : Graph).placeholders.zip given)
    {id : Nat} {node : Node} {path : String} {scope : Scope} {value : Value}
    (hnode : nodes[id]? = some node)
    (hvalue : values[id]? = some value) (hoperation : node.operation = .placeholder path)
    (hinput : ⟨path, scope⟩ ∈ inputs) : frame.resolve scope path = .ok value := by
  have hmem : (path, value) ∈ namedValues nodes values := by
    refine List.mem_filterMap.2 ⟨(node, value), ?_, by simp [Node.name?_eq_some.2 hoperation]⟩
    exact List.mem_of_getElem? (i := id) (by simp [List.getElem?_zip_eq_some, hnode, hvalue])
  rw [hnamed, ← hlined] at hmem
  obtain ⟨other, hother, hname, hresolve⟩ := resolve_of_mem_zip hgiven hmem
  obtain rfl := List.inj_on_of_nodup_map (hlined ▸ hnodup) hother hinput hname
  exact hresolve

/-- An evaluation that succeeds gives the placeholders the values of the inputs, each with one of
its own, and every other node the value that is computed from the values of all nodes. -/
lemma exists_values {last : Tracer} (htidy : last.Tidy) {operand : Operand}
    {compiled : CompiledGraph}
    (hnodes : compiled.nodes = (last.finish operand).graph.nodes)
    (hcount : compiled.inputCount = last.builder.placeholders.length) {given : List Value}
    (hgiven : given.length = last.inputs.length) {result : Value}
    (hexecute : compiled.execute given = .ok result) :
    ∃ values, last.inputs.map InputBinding.name = last.builder.placeholders ∧
      namedValues last.builder.nodes.toList values = last.builder.placeholders.zip given ∧
      (∀ {id : Nat} {node : Node}, last.builder.nodes.toList[id]? = some node →
        ∃ value, values[id]? = some value ∧ ((∀ name, node.operation ≠ .placeholder name) →
          compiled.compute values node = .ok value)) ∧
      operand.evaluate last.builder.nodes.size values = .ok result := by
  unfold CompiledGraph.execute at hexecute
  split at hexecute
  · next harity =>
    rw [hnodes] at hexecute
    obtain ⟨values, hlength, hresult, hnamed, hcomputed⟩ :=
      CompiledGraph.run_eq_ok htidy.open_ended hexecute
    refine ⟨values, htidy.lined (hgiven.symm.trans (harity.trans hcount)), hnamed, ?_, hresult⟩
    intro id node hnode
    have hlt : id < values.length := hlength ▸ (List.getElem?_eq_some_iff.1 hnode).1
    have hvalue := List.getElem?_eq_getElem hlt
    refine ⟨_, hvalue, fun hopen => ?_⟩
    -- the values before a node are among the values of all nodes
    refine CompiledGraph.compute_mono (fun position found hfound => ?_)
      (hcomputed id node _ hnode hvalue hopen)
    rw [List.nil_append, List.getElem?_take] at hfound
    split at hfound
    · exact hfound
    · cases hfound
  · cases hexecute

/-- An evaluation that succeeds on the values of the inputs solves the equations, and its result is
the value of the output. -/
theorem exists_solves {last : Tracer} (htidy : last.Tidy) {operand : Operand} {limit : Nat}
    {compiled : CompiledGraph}
    (hcompile : (last.finish operand).graph.compile limit last.layers = .ok compiled)
    {frame : Frame} {inputs : List Value}
    (hinputs : List.Forall₂ (fun input value => frame.resolve input.scope input.name = .ok value)
      last.inputs inputs) {result : Value} (hexecute : compiled.execute inputs = .ok result) :
    ∃ values, last.Solves frame values ∧
      operand.evaluate last.builder.nodes.size values = .ok result := by
  obtain rfl := Graph.compile_eq_ok hcompile
  obtain ⟨values, hlined, hnamed, hvalue, hresult⟩ := exists_values htidy rfl
    (congrArg List.length (last.placeholders_finish operand)) hinputs.length_eq.symm hexecute
  refine ⟨values, ⟨?_, ?_, ?_, ?_, ?_⟩, hresult⟩
  · intro id node path scope hnode hoperation hinput
    obtain ⟨value, hfound, -⟩ := hvalue hnode
    exact ⟨value, hfound, resolve_of_namedValues hinputs hlined htidy.nodup hnamed hnode
      hfound hoperation hinput⟩
  · intro id node target hnode hoperation
    obtain ⟨value, hfound, hcomputed⟩ := hvalue hnode
    have hlookup := (CompiledGraph.compute_parameter hoperation).1
      (hcomputed (by simp [hoperation]))
    have hparameters : (last.finish operand).graph.nodes.filterMap (Node.parameter? last.layers) =
        last.builder.nodes.toList.filterMap (Node.parameter? last.layers) := by
      have hgraph : (last.finish operand).graph.nodes =
          last.builder.nodes.toList ++ [⟨last.builder.nodes.size, .output, [operand]⟩] := rfl
      rw [hgraph, List.filterMap_append]
      exact List.append_nil _
    simp only [hparameters] at hlookup
    exact ⟨value, hfound, resolve?_of_lookup htidy.numbered hnode hoperation hlookup⟩
  · intro id node function hnode hoperation
    obtain ⟨value, hfound, hcomputed⟩ := hvalue hnode
    obtain ⟨args, hargs, hcall⟩ := (CompiledGraph.compute_call hoperation).1
      (hcomputed (by rcases hoperation with h | h <;> simp [h]))
    rw [htidy.numbered id node hnode] at hargs hcall
    exact ⟨args, value, hfound, hargs, hcall⟩
  · intro id node key hnode hoperation
    obtain ⟨value, hfound, hcomputed⟩ := hvalue hnode
    obtain ⟨layer, args, hlayer, hargs, hforward⟩ :=
      (CompiledGraph.compute_callLayer hoperation).1 (hcomputed (by simp [hoperation]))
    rw [htidy.numbered id node hnode] at hargs hforward
    exact ⟨layer, args, value, hlayer, hfound, hargs, hforward⟩
  · intro id node name hnode hoperation
    obtain ⟨value, hfound, hcomputed⟩ := hvalue hnode
    obtain ⟨base, hargs, hattr⟩ :=
      (CompiledGraph.compute_readAttr hoperation).1 (hcomputed (by simp [hoperation]))
    rw [htidy.numbered id node hnode] at hargs hattr
    exact ⟨base, value, hfound, hargs, hattr⟩

end GuardedTrace
