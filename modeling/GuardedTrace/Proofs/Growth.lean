/-
What a trace only adds to.

While a trace runs its graph, its inputs, its layers and its guards grow: nodes are added behind the
nodes that are there, a layer stays under its key, and no guard is lost.  `Tracer.Extends` says all
of this about two states.  What a step does to a state beside computing is said once, in
`TraceM.Leads.step`, for every relation that computing and moving values respect.

The inputs and the placeholders of the graph grow together.  A *tidy* state has one placeholder for
every name of an input; where no two inputs share a name, the inputs are the placeholders in their
order.
-/
import Mathlib.Tactic
import GuardedTrace.Proofs.Inversion

namespace GuardedTrace

/-! ### Recorded nodes -/

/-- An item of a list with one more item is an item of the list, or the last one. -/
lemma getElem?_append_one {α : Type} {items : List α} {item found : α} {position : Nat}
    (h : (items ++ [item])[position]? = some found) :
    items[position]? = some found ∨ position = items.length ∧ found = item := by
  rw [List.getElem?_append] at h
  split at h
  · exact Or.inl h
  · obtain ⟨hlt, rfl⟩ := List.getElem?_eq_some_iff.1 h
    simp only [List.length_singleton] at hlt
    exact Or.inr ⟨by omega, by simp⟩

/-- The operation is neither an input nor the output of a graph. -/
def Operation.Inner (operation : Operation) : Prop :=
  (∀ name, operation ≠ .placeholder name) ∧ operation ≠ .output

namespace Builder

variable {builder after : Builder} {operation : Operation} {operands : List Operand} {id : Nat}

/-- The names of the placeholders, in order. -/
def placeholders (builder : Builder) : List String :=
  (⟨builder.nodes.toList⟩ : Graph).placeholders

lemma placeholders_of_append {node : Node}
    (h : after.nodes.toList = builder.nodes.toList ++ [node]) :
    after.placeholders = builder.placeholders ++ (⟨[node]⟩ : Graph).placeholders := by
  simp [placeholders, Graph.placeholders, h, List.filterMap_append]

/-- A request is answered by a node that is there, or by a new node behind all others.  A request
without operands is answered by a new node only when there is no node like it. -/
lemma record_cases (h : builder.record operation operands = (id, after)) :
    (after = builder ∧ ∃ node, builder.nodes.toList[id]? = some node ∧
        node.operation = operation ∧ node.operands = operands) ∨
      (id = builder.nodes.size ∧
        after.nodes.toList = builder.nodes.toList ++ [⟨id, operation, operands⟩] ∧
        (operands = [] →
          ∀ node ∈ builder.nodes.toList, ¬ (node.operation = operation ∧ node.operands = []))) := by
  unfold record at h
  cases hfind : builder.find? operation operands with
  | some found =>
    rw [hfind] at h
    obtain ⟨rfl, rfl⟩ := Prod.mk.inj h
    refine Or.inl ⟨rfl, ?_⟩
    simp only [find?, Option.map_eq_some_iff] at hfind
    obtain ⟨offset, hoffset, rfl⟩ := hfind
    obtain ⟨hlt, hsame, -⟩ := Array.findIdx?_eq_some_iff_getElem.1 hoffset
    simp only [Array.getElem_extract, Bool.and_eq_true, decide_eq_true_eq,
      Operand.sameItems_iff] at hsame
    simp only [Array.size_extract] at hlt
    refine ⟨builder.nodes[builder.searchStart operands + offset], ?_, hsame.2, hsame.1⟩
    rw [Array.getElem?_toList, Array.getElem?_eq_getElem]
  | none =>
    rw [hfind] at h
    obtain ⟨rfl, rfl⟩ := Prod.mk.inj h
    refine Or.inr ⟨rfl, by simp, ?_⟩
    rintro rfl node hnode ⟨hop, hargs⟩
    have hstart : builder.searchStart [] = 0 := by
      unfold searchStart behindReads
      simp [Operand.readsItems]
    simp only [find?, hstart, Option.map_eq_none_iff, Array.findIdx?_eq_none_iff] at hfind
    have hmem : node ∈ builder.nodes.extract 0 := by simpa using hnode
    have := hfind node hmem
    simp [hop, hargs, Operand.sameItems] at this

/-- The answer to a request is a node with the operation and the operands asked for. -/
lemma exists_of_record (h : builder.record operation operands = (id, after)) :
    ∃ node, after.nodes.toList[id]? = some node ∧ node.operation = operation ∧
      node.operands = operands := by
  rcases record_cases h with ⟨rfl, hnode⟩ | ⟨rfl, hnodes, -⟩
  · exact hnode
  · exact ⟨⟨builder.nodes.size, operation, operands⟩, by simp [hnodes], rfl, rfl⟩

/-- The nodes are numbered by their positions. -/
def Numbered (builder : Builder) : Prop :=
  ∀ (position : Nat) (node : Node),
    builder.nodes.toList[position]? = some node → node.id = position

/-- The second builder has the nodes of the first one and then others, none of them an input or an
output. -/
structure Extends (builder after : Builder) : Prop where
  nodes : builder.nodes.toList <+: after.nodes.toList
  numbered : builder.Numbered → after.Numbered
  inner : ∀ node ∈ after.nodes.toList, node ∉ builder.nodes.toList → node.operation.Inner
  names : after.placeholders = builder.placeholders

namespace Extends

lemma refl (builder : Builder) : builder.Extends builder :=
  ⟨List.prefix_refl _, id, fun _ h h' => absurd h h', rfl⟩

lemma trans {last : Builder} (h : builder.Extends after) (h' : after.Extends last) :
    builder.Extends last := by
  refine ⟨h.nodes.trans h'.nodes, h'.numbered ∘ h.numbered, ?_, h'.names.trans h.names⟩
  intro node hnode hnew
  by_cases hmid : node ∈ after.nodes.toList
  · exact h.inner node hmid hnew
  · exact h'.inner node hnode hmid

end Extends

lemma numbered_of_append (hnumbered : builder.Numbered)
    (h : after.nodes.toList = builder.nodes.toList ++ [⟨builder.nodes.size, operation, operands⟩]) :
    after.Numbered := by
  intro position node hnode
  rw [h] at hnode
  rcases getElem?_append_one hnode with hnode | ⟨rfl, rfl⟩
  · exact hnumbered position node hnode
  · rfl

lemma extends_record (h : builder.record operation operands = (id, after))
    (hoperation : operation.Inner) : builder.Extends after := by
  rcases record_cases h with ⟨rfl, -⟩ | ⟨rfl, hnodes, -⟩
  · exact Extends.refl _
  · refine ⟨⟨_, hnodes.symm⟩, fun hnumbered => numbered_of_append hnumbered hnodes, ?_, ?_⟩
    · intro node hnode hnew
      rw [hnodes, List.mem_append] at hnode
      obtain rfl := List.mem_singleton.1 (hnode.resolve_left hnew)
      exact hoperation
    · rw [placeholders_of_append hnodes]
      cases operation with
      | placeholder name => exact absurd rfl (hoperation.1 name)
      | _ => simp [Graph.placeholders]

end Builder

namespace Symbolic

variable {builder : Builder}

mutual

lemma extends_operand : ∀ (value : Symbolic) (builder : Builder),
    builder.Extends (value.operand builder).2
  | ⟨kind, support, guards, localName, globalName⟩, builder => by
    have h := extends_operandOfKind kind builder
    simp only [operand]
    split
    · exact Builder.Extends.refl _
    · split <;> simp_all
termination_by structural value => value

lemma extends_operandOfKind : ∀ (kind : Kind) (builder : Builder),
    builder.Extends (operandOfKind kind builder).2
  | .array _, builder | .scalar _, builder | .constant _, builder
  | .host (.elementType _), builder | .host (.device _), builder
  | .host (.primitive _), builder | .layer _ _, builder | .deferred _, builder
  | .builtin _, builder | .iterator _ _, builder | .routine _, builder | .method _ _, builder
  | .library _, builder | .unsupported _ _, builder | .unknown _, builder => by
    simp only [operandOfKind]
    exact Builder.Extends.refl _
  | .sequence kind items, builder => by
    have h := extends_operands items builder
    simp only [operandOfKind]
    split <;> simp_all
  | .dict entries, builder => by
    have h := extends_operandEntries entries builder
    simp only [operandOfKind]
    split <;> simp_all
  | .attr holder name, builder => by
    have h := extends_operand holder builder
    simp only [operandOfKind]
    split
    · next base after heq =>
      rw [heq] at h
      exact h.trans (Builder.extends_record rfl (by simp [Operation.Inner]))
    · simp_all
    · simp_all
termination_by structural kind => kind

lemma extends_operands : ∀ (items : List Symbolic) (builder : Builder),
    builder.Extends (operands items builder).2
  | [], builder => Builder.Extends.refl _
  | item :: rest, builder => by
    have h := extends_operand item builder
    simp only [operands]
    split
    · simp_all
    · next arg after heq =>
      rw [heq] at h
      have hrest := h.trans (extends_operands rest after)
      split <;> simp_all
termination_by structural items => items

lemma extends_operandEntries : ∀ (entries : List (Key × Symbolic)) (builder : Builder),
    builder.Extends (operandEntries entries builder).2
  | [], builder => Builder.Extends.refl _
  | (key, item) :: rest, builder => by
    have h := extends_operand item builder
    simp only [operandEntries]
    split
    · simp_all
    · next arg after heq =>
      rw [heq] at h
      have hrest := h.trans (extends_operandEntries rest after)
      split <;> simp_all
termination_by structural entries => entries

end

end Symbolic

/-! ### States of a trace -/

namespace Tracer

/-- The inputs and the placeholders of the graph fit together. -/
structure Tidy (state : Tracer) : Prop where
  numbered : state.builder.Numbered
  /-- Placeholders read nothing. -/
  bare : ∀ node ∈ state.builder.nodes.toList, ∀ name,
    node.operation = .placeholder name → node.operands = []
  /-- The output is not recorded before the trace is finished. -/
  open_ended : ∀ node ∈ state.builder.nodes.toList, node.operation ≠ .output
  nodup : state.builder.placeholders.Nodup
  named : ∀ input ∈ state.inputs, input.name ∈ state.builder.placeholders
  length_le : state.builder.placeholders.length ≤ state.inputs.length
  /-- As many inputs as placeholders: each input has a placeholder of its own. -/
  lined : state.inputs.length = state.builder.placeholders.length →
    state.inputs.map InputBinding.name = state.builder.placeholders
  distinct : state.inputs.Nodup

lemma tidy_start : Tidy {} := by
  constructor <;> simp [Builder.Numbered, Builder.placeholders, Graph.placeholders]

namespace Tidy

variable {state after : Tracer} {input : InputBinding}

lemma of_eq (h : state.Tidy) (hbuilder : after.builder = state.builder)
    (hinputs : after.inputs = state.inputs) : after.Tidy := by
  obtain ⟨hnumbered, hbare, hopen, hnodup, hnamed, hlength, hlined, hdistinct⟩ := h
  rw [← hbuilder] at hnumbered hbare hopen hnodup
  exact ⟨hnumbered, hbare, hopen, hnodup, hbuilder ▸ hinputs ▸ hnamed, hbuilder ▸ hinputs ▸ hlength,
    hbuilder ▸ hinputs ▸ hlined, hinputs ▸ hdistinct⟩

/-- An input whose name has a placeholder already: the inputs then outnumber the placeholders. -/
lemma add_input (h : state.Tidy) (hbuilder : after.builder = state.builder)
    (hinputs : after.inputs = state.inputs ++ [input])
    (hname : input.name ∈ state.builder.placeholders)
    (hnew : input ∉ state.inputs) : after.Tidy := by
  obtain ⟨hnumbered, hbare, hopen, hnodup, hnamed, hlength, -, hdistinct⟩ := h
  have hmore : after.inputs.length = state.inputs.length + 1 := by simp [hinputs]
  rw [← hbuilder] at hnumbered hbare hopen hnodup hname hnamed hlength
  refine ⟨hnumbered, hbare, hopen, hnodup, ?_, by omega, by omega, ?_⟩
  · simpa [hinputs, or_imp, forall_and] using ⟨hnamed, hname⟩
  · rw [hinputs, List.nodup_append_comm]
    exact List.nodup_cons.2 ⟨hnew, hdistinct⟩

/-- An input with a placeholder of its own. -/
lemma add_placeholder (h : state.Tidy)
    (hnodes : after.builder.nodes.toList =
      state.builder.nodes.toList ++ [⟨state.builder.nodes.size, .placeholder input.name, []⟩])
    (hinputs : after.inputs = state.inputs ++ [input])
    (hfresh : input.name ∉ state.builder.placeholders) : after.Tidy := by
  have hnames : after.builder.placeholders = state.builder.placeholders ++ [input.name] :=
    Builder.placeholders_of_append hnodes
  refine ⟨Builder.numbered_of_append h.numbered hnodes, ?_, ?_, ?_, ?_, ?_, ?_, ?_⟩
  · intro other hother name hname
    rw [hnodes, List.mem_append, List.mem_singleton] at hother
    rcases hother with hother | rfl
    · exact h.bare other hother name hname
    · rfl
  · intro other hother
    rw [hnodes, List.mem_append, List.mem_singleton] at hother
    rcases hother with hother | rfl
    · exact h.open_ended other hother
    · simp
  · rw [hnames, List.nodup_append_comm]
    exact List.nodup_cons.2 ⟨hfresh, h.nodup⟩
  · rw [hnames, hinputs]
    intro other hother
    rcases List.mem_append.1 hother with hother | hother
    · exact List.mem_append_left _ (h.named other hother)
    · rw [List.mem_singleton.1 hother]
      simp
  · simpa [hnames, hinputs] using h.length_le
  · simp only [hnames, hinputs, List.length_append, List.length_singleton, List.map_append,
      List.map_cons, List.map_nil, Nat.add_right_cancel_iff]
    intro hcount
    rw [h.lined hcount]
  · rw [hinputs, List.nodup_append_comm]
    exact List.nodup_cons.2 ⟨fun hmem => hfresh (h.named input hmem), h.distinct⟩

/-- Without a node for it, a name has no placeholder. -/
lemma not_mem_placeholders {path : String} (h : state.Tidy)
    (hnew : ∀ node ∈ state.builder.nodes.toList,
      ¬ (node.operation = .placeholder path ∧ node.operands = [])) :
    path ∉ state.builder.placeholders := by
  intro hpath
  obtain ⟨node, hnode, hname⟩ := List.mem_filterMap.1 hpath
  split at hname
  · next name hoperation =>
    cases hname
    exact hnew node hnode ⟨hoperation, h.bare node hnode _ hoperation⟩
  · cases hname

end Tidy

/-- A trace that ends in one state has one output for each operand. -/
lemma finish_inj {state : Tracer} {operand other : Operand}
    (h : state.finish operand = state.finish other) : operand = other := by
  have hnodes := congrArg (fun output => output.graph.nodes) h
  simp only [finish, Builder.finish] at hnodes
  simpa using hnodes

/-- The second state has everything that the first one has recorded. -/
structure Extends (state after : Tracer) : Prop where
  nodes : state.builder.nodes.toList <+: after.builder.nodes.toList
  inputs : ∀ input ∈ state.inputs, input ∈ after.inputs
  guards : ∀ guard ∈ state.guards, guard ∈ after.guards
  layers : ∀ key layer, state.layers.lookup key = some layer →
    after.layers.lookup key = some layer
  tidy : state.Tidy → after.Tidy

/-- The second state differs from the first one only in what it has recorded in the graph. -/
structure Records (state after : Tracer) : Prop extends state.Extends after where
  stack : after.stack = state.stack
  locals : after.locals = state.locals
  globals : after.globals = state.globals
  guards_eq : after.guards = state.guards

/-- The second state differs from the first one only in the nodes and the inputs of its graph. -/
structure RecordsNodes (state after : Tracer) : Prop extends state.Records after where
  layers_eq : after.layers = state.layers

variable {state after last : Tracer}

namespace Extends

lemma refl (state : Tracer) : state.Extends state :=
  ⟨List.prefix_refl _, fun _ => id, fun _ => id, fun _ _ => id, id⟩

lemma trans (h : state.Extends after) (h' : after.Extends last) : state.Extends last :=
  ⟨h.nodes.trans h'.nodes, fun input hinput => h'.inputs input (h.inputs input hinput),
    fun guard hguard => h'.guards guard (h.guards guard hguard),
    fun key layer hlayer => h'.layers key layer (h.layers key layer hlayer), h'.tidy ∘ h.tidy⟩

/-- A state that differs in nothing that only grows. -/
lemma of_eq (hbuilder : after.builder = state.builder) (hinputs : after.inputs = state.inputs)
    (hguards : ∀ guard ∈ state.guards, guard ∈ after.guards)
    (hlayers : after.layers = state.layers) : state.Extends after := by
  refine ⟨by rw [hbuilder], by rw [hinputs]; exact fun _ => id, hguards,
    by rw [hlayers]; exact fun _ _ => id, fun htidy => htidy.of_eq hbuilder hinputs⟩

lemma of_pc (state : Tracer) (pc : Nat) : state.Extends { state with pc } :=
  of_eq rfl rfl (fun _ => id) rfl

/-- A state with more nodes, none of them a placeholder. -/
lemma of_builder {builder : Builder} (h : state.builder.Extends builder) :
    state.Extends { state with builder } := by
  refine ⟨h.nodes, fun _ => id, fun _ => id, fun _ _ => id, fun htidy => ?_⟩
  refine ⟨h.numbered htidy.numbered, ?_, ?_, ?_, ?_, ?_, ?_, htidy.distinct⟩
  · intro node hnode name hname
    by_cases hold : node ∈ state.builder.nodes.toList
    · exact htidy.bare node hold name hname
    · exact absurd hname ((h.inner node hnode hold).1 name)
  · intro node hnode
    by_cases hold : node ∈ state.builder.nodes.toList
    · exact htidy.open_ended node hold
    · exact (h.inner node hnode hold).2
  · simpa only [h.names] using htidy.nodup
  · simpa only [h.names] using htidy.named
  · simpa only [h.names] using htidy.length_le
  · simpa only [h.names] using htidy.lined

end Extends

lemma Records.trans (h : state.Records after) (h' : after.Records last) : state.Records last :=
  ⟨h.toExtends.trans h'.toExtends, h'.stack.trans h.stack, h'.locals.trans h.locals,
    h'.globals.trans h.globals, h'.guards_eq.trans h.guards_eq⟩

namespace RecordsNodes

lemma refl (state : Tracer) : state.RecordsNodes state :=
  ⟨⟨.refl state, rfl, rfl, rfl, rfl⟩, rfl⟩

lemma trans (h : state.RecordsNodes after) (h' : after.RecordsNodes last) :
    state.RecordsNodes last :=
  ⟨h.toRecords.trans h'.toRecords, h'.layers_eq.trans h.layers_eq⟩

lemma of_builder {builder : Builder} (h : state.builder.Extends builder) :
    state.RecordsNodes { state with builder } :=
  ⟨⟨.of_builder h, rfl, rfl, rfl, rfl⟩, rfl⟩

end RecordsNodes

end Tracer

/-! ### Parts of a trace -/

namespace TraceM

variable {α β : Type} {x : TraceM α} {f : α → TraceM β}

/-- A part of a trace that computes a value and changes nothing but the recorded nodes. -/
def Computes (x : TraceM α) : Prop :=
  ∀ state value after, x state = .ok (value, after) → state.RecordsNodes after

namespace Computes

@[simp] lemma pure (value : α) : Computes (pure value : TraceM α) := by
  intro state result after h
  cases pure_eq_ok.1 h
  exact .refl _

@[simp] lemma bind (hx : Computes x) (hf : ∀ value, Computes (f value)) : Computes (x >>= f) := by
  intro state result after h
  obtain ⟨value, middle, hmiddle, hlast⟩ := bind_eq_ok.1 h
  exact (hx _ _ _ hmiddle).trans (hf _ _ _ _ hlast)

@[simp] lemma map {g : α → β} (hx : Computes x) : Computes (g <$> x) := by
  rw [map_eq_pure_bind]
  exact bind hx fun _ => pure _

@[simp] lemma ite {c : Prop} [Decidable c] {y : TraceM α} (hx : Computes x) (hy : Computes y) :
    Computes (if c then x else y) := by
  split
  · exact hx
  · exact hy

@[simp] lemma breakOff (cause : BreakCause) : Computes (breakOff cause : TraceM α) := by
  intro state value after h
  cases h

@[simp] lemma ofAnswer (answer : Answer α) : Computes (ofAnswer answer) := by
  cases answer <;> simp [TraceM.ofAnswer]

@[simp] lemma ofRun (result : Run α) : Computes (ofRun result) := by
  cases result <;> simp [TraceM.ofRun]

@[simp] lemma ofOption (cause : BreakCause) (value : Option α) :
    Computes (ofOption cause value) := by
  cases value <;> simp [TraceM.ofOption]

@[simp] lemma record {operation : Operation} (h : operation.Inner)
    (operands : List Operand) : Computes (record operation operands) := by
  intro state value after hrecord
  cases hrecord
  exact .of_builder (Builder.extends_record rfl h)

@[simp] lemma operand (value : Symbolic) : Computes (operand value) := by
  intro state result after h
  have hextends := Symbolic.extends_operand value state.builder
  unfold TraceM.operand at h
  split at h
  · next heq =>
    cases h
    rw [heq] at hextends
    exact .of_builder hextends
  · cases h

@[simp] lemma operands (values : List Symbolic) : Computes (operands values) := by
  intro state result after h
  have hextends := Symbolic.extends_operands values state.builder
  unfold TraceM.operands at h
  split at h
  · next heq =>
    cases h
    rw [heq] at hextends
    exact .of_builder hextends
  · cases h

@[simp] lemma unknown (values : List Symbolic) : Computes (unknown values) := by
  intro state value after h
  cases h
  exact ⟨⟨.of_eq rfl rfl (fun _ => id) rfl, rfl, rfl, rfl, rfl⟩, rfl⟩

end Computes

/-! ### Inputs -/

lemma tidy_placeholder {path : String} {scope : Scope} {state after : Tracer} {node : Nat}
    (h : placeholder path scope state = .ok (node, after)) (htidy : state.Tidy) : after.Tidy := by
  obtain ⟨hrecord, hinputs, -⟩ := placeholder_eq_ok h
  rcases Builder.record_cases hrecord with
      ⟨hsame, found, hfound, hoperation, -⟩ | ⟨rfl, hnodes, hnew⟩
  · have hname : path ∈ state.builder.placeholders :=
      List.mem_filterMap.2 ⟨found, List.mem_of_getElem? hfound, by rw [hoperation]⟩
    split at hinputs
    · exact htidy.of_eq hsame hinputs
    · next hinput => exact htidy.add_input hsame hinputs hname hinput
  · have hfresh : path ∉ state.builder.placeholders := htidy.not_mem_placeholders (hnew rfl)
    rw [if_neg fun hmem => hfresh (htidy.named _ hmem)] at hinputs
    exact htidy.add_placeholder hnodes hinputs hfresh

namespace Computes

@[simp] lemma placeholder (path : String) (scope : Scope) : Computes (placeholder path scope) := by
  intro state node after h
  obtain ⟨hrecord, hinputs, hguards, hlayers, hstack, hlocals, hglobals⟩ := placeholder_eq_ok h
  refine ⟨⟨⟨?_, ?_, ?_, ?_, tidy_placeholder h⟩, hstack, hlocals, hglobals, hguards⟩, hlayers⟩
  · rcases Builder.record_cases hrecord with ⟨hsame, -⟩ | ⟨-, hnodes, -⟩
    · rw [hsame]
    · exact ⟨_, hnodes.symm⟩
  · intro input hinput
    rw [hinputs]
    split
    · exact hinput
    · exact List.mem_append_left _ hinput
  · rw [hguards]
    exact fun _ => id
  · rw [hlayers]
    exact fun _ _ => id

@[simp] lemma wrapScalar (path : String) (scope : Scope) (elementType : ElementType)
    (type : TypeName) : Computes (wrapScalar path scope elementType type) := by
  simp [TraceM.wrapScalar]

mutual

lemma wrap (config : Config) (scope : Scope) :
    ∀ (value : Value) (path : String), Computes (wrap config scope value path)
  | .int _, path | .float _, path => by
    simp only [TraceM.wrap]
    split <;> simp
  | .tuple items, path | .list items, path => by
    simp [TraceM.wrap, wrapItems config scope items path 0]
  | .dict entries, path => by
    simp [TraceM.wrap, wrapEntries config scope entries path]
  | .array _, path | .layer _, path | .routine _, path | .primitive _, path | .builtin _, path
  | .library _, path | .object _, path | .boundPrimitive _ _ _, path | .boundRoutine _ _ _, path
  | .none, path | .bool _, path | .str _, path | .slice _, path | .elementType _, path
  | .device _, path => by simp [TraceM.wrap]
termination_by structural value => value

lemma wrapItems (config : Config) (scope : Scope) :
    ∀ (items : List Value) (path : String) (position : Nat),
      Computes (wrapItems config scope items path position)
  | [], _, _ => by simp [TraceM.wrapItems]
  | item :: rest, path, position => by
    simp only [TraceM.wrapItems]
    exact bind (wrap config scope item _) fun _ =>
      bind (wrapItems config scope rest path (position + 1)) fun _ => pure _
termination_by structural items => items

lemma wrapEntries (config : Config) (scope : Scope) :
    ∀ (entries : List (Key × Value)) (path : String),
      Computes (wrapEntries config scope entries path)
  | [], _ => by simp [TraceM.wrapEntries]
  | (key, item) :: rest, path => by
    simp only [TraceM.wrapEntries]
    exact bind (wrap config scope item _) fun _ =>
      bind (wrapEntries config scope rest path) fun _ => pure _
termination_by structural entries => entries

end

@[simp] lemma wrapGlobal (context : TraceContext) (name : String) :
    Computes (wrapGlobal context name) := by
  unfold TraceM.wrapGlobal
  split
  · exact wrap _ _ _ _
  · simp

/-! ### Values -/

@[simp] lemma emitCall (function : Primitive) (args : List Symbolic) :
    Computes (emitCall function args) :=
  bind (operands _) fun _ => bind (record (by simp [Operation.Inner]) _) fun _ => pure _

@[simp] lemma emitMethod (function : Primitive) (receiver : Symbolic) (args : List Symbolic) :
    Computes (emitMethod function receiver args) := by
  refine bind (operand _) fun base => ?_
  split
  · exact bind (operands _) fun _ => bind (record (by simp [Operation.Inner]) _) fun _ => pure _
  · exact breakOff _

@[simp] lemma foldedLiteral (result : Value) (cause : TypeName → UnsupportedCause) :
    Computes (foldedLiteral result cause) := by
  simp [TraceM.foldedLiteral]

@[simp] lemma binaryOp (function : Primitive) (lhs rhs : Symbolic) :
    Computes (binaryOp function lhs rhs) := by
  unfold TraceM.binaryOp
  split
  · simp
  · refine ite (by simp) ?_
    split <;> simp

@[simp] lemma negate (value : Symbolic) : Computes (negate value) := by
  unfold TraceM.negate
  split <;> simp

@[simp] lemma subscript (container key : Symbolic) : Computes (subscript container key) := by
  unfold TraceM.subscript
  refine ite (by simp) ?_
  split <;> simp

@[simp] lemma dictEntries : ∀ pairs : List (Literal × Symbolic), Computes (dictEntries pairs)
  | [] => by simp [TraceM.dictEntries]
  | (literal, value) :: rest =>
    bind (ofOption _ _) fun _ => bind (dictEntries rest) fun _ => pure _

@[simp] lemma buildDict (keys : Symbolic) (values : List Symbolic) :
    Computes (buildDict keys values) := by
  refine bind (ofAnswer _) fun literal => ?_
  split <;> simp

@[simp] lemma arrayRows (array : Symbolic) : ∀ rows : List Nat, Computes (arrayRows array rows)
  | [] => by simp [TraceM.arrayRows]
  | row :: rest =>
    bind (ofRun _) fun _ => bind (emitCall _ _) fun _ => bind (arrayRows array rest) fun _ => pure _

@[simp] lemma unpackItems (value : Symbolic) (expected : Nat) :
    Computes (unpackItems value expected) := by
  unfold TraceM.unpackItems
  split <;> simp

@[simp] lemma foldBuiltin (function : Builtin) (callee : Symbolic) (args : List Symbolic) :
    Computes (foldBuiltin function callee args) := by
  unfold TraceM.foldBuiltin
  split
  · exact bind (ofRun _) fun _ => bind (foldedLiteral _ _) fun _ => pure _
  · split <;> simp

@[simp] lemma callLength (callee container : Symbolic) :
    Computes (callLength callee container) := by
  unfold TraceM.callLength
  split <;> simp

@[simp] lemma callBuiltin (function : Builtin) (callee : Symbolic) (args : List Symbolic) :
    Computes (callBuiltin function callee args) := by
  unfold TraceM.callBuiltin
  split <;> simp

@[simp] lemma staticTruth (value : Symbolic) : Computes (staticTruth value) := by
  unfold TraceM.staticTruth
  split
  · simp
  · split
    all_goals try simp
    all_goals split <;> simp

/-- Attributes of other values than layers. -/
lemma getAttr (config : Config) {holder : Symbolic} (name : String)
    (h : ∀ key node, holder.kind ≠ .layer key node) : Computes (getAttr config holder name) := by
  unfold TraceM.getAttr
  split
  · next hkind => exact absurd hkind (h _ _)
  · split
    · exact bind (ofRun _) fun _ => bind (wrap _ _ _ _) fun _ => pure _
    · simp
  all_goals simp

/-- Calls of other values than layers. -/
lemma callValue (config : Config) {callee : Symbolic} (args : List Symbolic)
    (h : ∀ key node, callee.kind ≠ .layer key node) : Computes (callValue config callee args) := by
  unfold TraceM.callValue
  split
  case h_4 hkind => exact absurd hkind (h _ _)
  all_goals try simp
  · split <;> simp
  · split <;> simp

end Computes

/-! ### Layers -/

/-- A part of a trace that computes a value and changes nothing but what is recorded. -/
def Registers (x : TraceM α) : Prop :=
  ∀ state value after, x state = .ok (value, after) → state.Records after

lemma Computes.registers (h : Computes x) : Registers x :=
  fun state value after hx => (h state value after hx).toRecords

namespace Registers

lemma bind (hx : Registers x) (hf : ∀ value, Registers (f value)) : Registers (x >>= f) := by
  intro state result after h
  obtain ⟨value, middle, hmiddle, hlast⟩ := bind_eq_ok.1 h
  exact (hx _ _ _ hmiddle).trans (hf _ _ _ _ hlast)

lemma register (key : String) (layer : Layer) : Registers (register key layer) := by
  intro state value after h
  cases h
  refine ⟨⟨List.prefix_refl _, fun _ => id, fun _ => id, fun other found hfound => ?_, ?_⟩,
    rfl, rfl, rfl, rfl⟩
  · show (LayerTable.register state.layers key layer).lookup other = some found
    unfold LayerTable.register Table.putIfNew
    split
    · exact hfound
    · rw [List.lookup_append, hfound, Option.some_or]
  · rintro ⟨h₁, h₂, h₃, h₄, h₅, h₆, h₇, h₈⟩
    exact ⟨h₁, h₂, h₃, h₄, h₅, h₆, h₇, h₈⟩

lemma layerAttr (config : Config) (holder : Symbolic) (key : String) (node : Layer)
    (name : String) : Registers (layerAttr config holder key node name) := by
  refine bind (Computes.ofOption _ _).registers fun member => ?_
  split
  · exact (Computes.pure _).registers
  · exact bind (register _ _) fun _ => Computes.registers
      (.bind (.record (by simp [Operation.Inner]) _) fun _ => .pure _)
  · exact (Computes.pure _).registers
  · exact (Computes.pure _).registers
  · split <;> exact (Computes.pure _).registers

lemma callLayer (config : Config) (key : String) (node : Layer) (callee : Symbolic)
    (args : List Symbolic) : Registers (callLayer config key node callee args) := by
  unfold TraceM.callLayer
  split
  · exact (Computes.breakOff _).registers
  · exact (Computes.breakOff _).registers
  · exact bind (Computes.operands _).registers fun _ => bind (register _ _) fun _ =>
      Computes.registers (.bind (.record (by simp [Operation.Inner]) _) fun _ => .pure _)

lemma getAttr (config : Config) (holder : Symbolic) (name : String) :
    Registers (getAttr config holder name) := by
  by_cases h : ∃ key node, holder.kind = .layer key node
  · obtain ⟨key, node, hkind⟩ := h
    unfold TraceM.getAttr
    rw [hkind]
    exact layerAttr _ _ _ _ _
  · push Not at h
    exact (Computes.getAttr config name h).registers

lemma callValue (config : Config) (callee : Symbolic) (args : List Symbolic) :
    Registers (callValue config callee args) := by
  by_cases h : ∃ key node, callee.kind = .layer key node
  · obtain ⟨key, node, hkind⟩ := h
    unfold TraceM.callValue
    simp only [hkind]
    exact callLayer _ _ _ _ _
  · push Not at h
    exact (Computes.callValue config args h).registers

end Registers

/-! ### Instructions -/

/-- A relation between states that computing and moving values lead to. -/
structure Carried (R : Tracer → Tracer → Prop) : Prop where
  refl : ∀ state, R state state
  trans : ∀ {state middle after}, R state middle → R middle after → R state after
  of_nodes : ∀ {state after : Tracer}, state.RecordsNodes after → R state after
  of_eq : ∀ {state after : Tracer}, after.builder = state.builder → after.inputs = state.inputs →
    (∀ guard ∈ state.guards, guard ∈ after.guards) → after.layers = state.layers → R state after

/-- A part of a trace that leads from a state to related states only. -/
def Leads (R : Tracer → Tracer → Prop) (x : TraceM α) : Prop :=
  ∀ state value after, x state = .ok (value, after) → R state after

namespace Leads

variable {R : Tracer → Tracer → Prop} (hR : Carried R)
include hR

lemma of_computes (h : Computes x) : Leads R x :=
  fun state value after hx => hR.of_nodes (h state value after hx)

lemma pure (value : α) : Leads R (pure value : TraceM α) := of_computes hR (Computes.pure value)

lemma bind (hx : Leads R x) (hf : ∀ value, Leads R (f value)) : Leads R (x >>= f) := by
  intro state result after h
  obtain ⟨value, middle, hmiddle, hlast⟩ := bind_eq_ok.1 h
  exact hR.trans (hx _ _ _ hmiddle) (hf _ _ _ _ hlast)

/-- A part that only reads and moves values. -/
lemma of_quiet (h : ∀ state value after, x state = .ok (value, after) →
    after.builder = state.builder ∧ after.inputs = state.inputs ∧ after.guards = state.guards ∧
      after.layers = state.layers) : Leads R x := by
  intro state value after hx
  obtain ⟨hbuilder, hinputs, hguards, hlayers⟩ := h state value after hx
  exact hR.of_eq hbuilder hinputs (by rw [hguards]; exact fun _ => id) hlayers

lemma get : Leads R (get : TraceM Tracer) := by
  refine of_quiet hR fun state value after h => ?_
  cases h
  simp

lemma modify {change : Tracer → Tracer}
    (h : ∀ state : Tracer, (change state).builder = state.builder ∧
      (change state).inputs = state.inputs ∧ (change state).guards = state.guards ∧
      (change state).layers = state.layers) : Leads R (modify change : TraceM Unit) := by
  refine of_quiet hR fun state value after hx => ?_
  cases hx
  exact h state

lemma push (value : Symbolic) : Leads R (push value) := by
  intro state result after h
  cases h
  exact hR.of_eq rfl rfl (fun _ hguard => GuardSet.mem_union.2 (Or.inl hguard)) rfl

lemma pop : Leads R pop := by
  refine of_quiet hR fun state value after h => ?_
  unfold TraceM.pop at h
  split at h
  · cases h
    simp
  · cases h

lemma popTwo : Leads R popTwo := by
  refine of_quiet hR fun state value after h => ?_
  unfold TraceM.popTwo at h
  split at h
  · cases h
    simp
  · cases h

lemma popMany (count : Nat) : Leads R (popMany count) := by
  refine of_quiet hR fun state value after h => ?_
  unfold TraceM.popMany at h
  split at h
  · cases h
    simp
  · cases h

lemma loadLocal (context : TraceContext) (name : String) : Leads R (loadLocal context name) := by
  refine bind hR (get hR) fun state => ?_
  split
  · exact pure hR _
  · exact bind hR (of_computes hR (.ofOption _ _)) fun live =>
      bind hR (of_computes hR (.wrap _ _ _ _)) fun value =>
        bind hR (modify hR fun _ => ⟨rfl, rfl, rfl, rfl⟩) fun _ => pure hR _

lemma loadGlobal (context : TraceContext) (name : String) : Leads R (loadGlobal context name) := by
  refine bind hR (get hR) fun state => ?_
  split
  · exact pure hR _
  · exact bind hR (of_computes hR (.wrapGlobal _ _)) fun value =>
      bind hR (modify hR fun _ => ⟨rfl, rfl, rfl, rfl⟩) fun _ => pure hR _

lemma pushAll : ∀ values : List Symbolic, Leads R (pushAll values)
  | [] => pure hR ()
  | value :: rest => bind hR (pushAll rest) fun _ => push hR value

lemma popJump (target : UInt32) (jumpWhen : Bool) : Leads R (popJump target jumpWhen) :=
  bind hR (pop hR) fun _ => bind hR (of_computes hR (.staticTruth _)) fun _ => pure hR _

lemma pushing {result : TraceM Symbolic} (h : Leads R result) : Leads R (pushing result) :=
  bind hR h fun _ => bind hR (push hR _) fun _ => pure hR _

lemma stackBinary (function : Primitive) : Leads R (stackBinary function) :=
  pushing hR (bind hR (popTwo hR) fun _ => of_computes hR (.binaryOp _ _ _))

lemma buildSlice (count : UInt32) : Leads R (buildSlice count) := by
  unfold TraceM.buildSlice
  split
  · exact bind hR (popMany hR _) fun _ => pure hR _
  · split
    · exact bind hR (popMany hR _) fun _ => pure hR _
    · exact of_computes hR (.breakOff _)

lemma forIter (target : UInt32) : Leads R (forIter target) := by
  refine bind hR (pop hR) fun iterator => bind hR (of_computes hR (.ofAnswer _)) fun result => ?_
  split
  · exact bind hR (push hR _) fun _ => bind hR (push hR _) fun _ => pure hR _
  · exact pure hR _

/-- A step leads to related states only, if reading attributes and calling do. -/
lemma step (context : TraceContext) (instruction : Instruction)
    (hattr : (instruction.opcode = .loadAttr ∨ instruction.opcode = .loadMethod) →
      ∀ name, Leads R (do TraceM.getAttr context.config (← TraceM.pop) name))
    (hcall : (instruction.opcode = .callFunction ∨ instruction.opcode = .callMethod) →
      ∀ count, Leads R (do
        let args ← TraceM.popMany count
        TraceM.callValue context.config (← TraceM.pop) args)) :
    Leads R (step context instruction) := by
  unfold TraceM.step
  cases hop : instruction.opcode with
  | nop | jumpAbsolute => exact pure hR _
  | popTop => exact bind hR (pop hR) fun _ => pure hR _
  | rotTwo =>
    exact bind hR (popTwo hR) fun _ => bind hR (push hR _) fun _ => bind hR (push hR _) fun _ =>
      pure hR _
  | dupTop =>
    refine bind hR (get hR) fun state => ?_
    split
    · exact bind hR (push hR _) fun _ => pure hR _
    · exact of_computes hR (.breakOff _)
  | loadConst => exact pushing hR (bind hR (of_computes hR (.ofOption _ _)) fun _ => pure hR _)
  | loadFast =>
    exact pushing hR (bind hR (of_computes hR (.ofOption _ _)) fun _ => loadLocal hR _ _)
  | storeFast =>
    exact bind hR (of_computes hR (.ofOption _ _)) fun _ => bind hR (pop hR) fun _ =>
      bind hR (modify hR fun _ => ⟨rfl, rfl, rfl, rfl⟩) fun _ => pure hR _
  | loadGlobal =>
    exact pushing hR (bind hR (of_computes hR (.ofOption _ _)) fun _ => loadGlobal hR _ _)
  | loadAttr =>
    exact pushing hR (bind hR (of_computes hR (.ofOption _ _)) fun name => hattr (.inl hop) name)
  | loadMethod =>
    exact pushing hR (bind hR (of_computes hR (.ofOption _ _)) fun name => hattr (.inr hop) name)
  | callFunction => exact pushing hR (hcall (.inl hop) _)
  | callMethod => exact pushing hR (hcall (.inr hop) _)
  | binaryAdd | binarySubtract | binaryMultiply | binaryTrueDivide | binaryFloorDivide
  | binaryModulo =>
    exact stackBinary hR _
  | compareOp => exact bind hR (of_computes hR (.ofOption _ _)) fun _ => stackBinary hR _
  | unaryNegative => exact pushing hR (bind hR (pop hR) fun _ => of_computes hR (.negate _))
  | binarySubscr => exact pushing hR (bind hR (popTwo hR) fun _ => of_computes hR (.subscript _ _))
  | buildTuple | buildList => exact pushing hR (bind hR (popMany hR _) fun _ => pure hR _)
  | buildSlice => exact pushing hR (buildSlice hR _)
  | buildConstKeyMap =>
    exact pushing hR (bind hR (pop hR) fun _ => bind hR (popMany hR _) fun _ =>
      of_computes hR (.buildDict _ _))
  | unpackSequence =>
    exact bind hR (pop hR) fun _ => bind hR (of_computes hR (.unpackItems _ _)) fun _ =>
      bind hR (pushAll hR _) fun _ => pure hR _
  | getIter => exact pushing hR (bind hR (pop hR) fun _ => of_computes hR (.ofAnswer _))
  | forIter => exact forIter hR _
  | popJumpIfFalse | popJumpIfTrue => exact popJump hR _ _
  | returnValue =>
    exact bind hR (pop hR) fun _ => bind hR (of_computes hR (.operand _)) fun _ => pure hR _

end Leads

lemma carried_extends : Carried Tracer.Extends where
  refl := .refl
  trans := .trans
  of_nodes h := h.toExtends
  of_eq := .of_eq

/-- A step of a trace only adds to what is recorded. -/
lemma extends_of_step {context : TraceContext} {instruction : Instruction} {state after : Tracer}
    {flow : Flow} (h : step context instruction state = .ok (flow, after)) :
    state.Extends after := by
  refine Leads.step carried_extends context instruction (fun _ name => ?_)
    (fun _ count => ?_) _ _ _ h
  · exact Leads.bind carried_extends (Leads.pop carried_extends) fun holder =>
      fun _ _ _ hattr => (Registers.getAttr _ holder name _ _ _ hattr).toExtends
  · exact Leads.bind carried_extends (Leads.popMany carried_extends count) fun args =>
      Leads.bind carried_extends (Leads.pop carried_extends) fun callee =>
        fun _ _ _ hcall => (Registers.callValue _ callee args _ _ _ hcall).toExtends

end TraceM

/-! ### Whole traces -/

/-- The place where a program goes on after the instruction at `pc`; none when it returns. -/
def Flow.target? (flow : Flow) (pc : Nat) : Option Nat :=
  match flow with
  | .next => some (pc + 1)
  | .jump target => some target
  | .finish _ => none

section

variable {context : TraceContext} {fuel pc : Nat} {state after last : Tracer} {flow : Flow}
  {instruction : Instruction} {output : TraceOutput}

lemma traceFrom_of_step (hinstruction : context.code.instruction? state.pc = some instruction)
    (hstep : TraceM.step context instruction state = .ok (flow, after))
    (hpc : flow.target? state.pc = some pc) :
    traceFrom context (fuel + 1) state = traceFrom context fuel { after with pc } := by
  rw [traceFrom]
  simp only [hinstruction, StateT.run, hstep]
  cases flow with
  | next =>
    obtain rfl := Option.some.inj hpc
    rfl
  | jump target =>
    obtain rfl := Option.some.inj hpc
    rfl
  | finish operand => cases hpc

lemma traceFrom_of_finish {operand : Operand}
    (hinstruction : context.code.instruction? state.pc = some instruction)
    (hstep : TraceM.step context instruction state = .ok (.finish operand, after)) :
    traceFrom context (fuel + 1) state = (.ok (after.finish operand), after) := by
  rw [traceFrom]
  simp only [hinstruction, StateT.run, hstep]

/-- What the first step of a completed trace does: it leads to a state from which the trace
completes, or it returns. -/
lemma traceFrom_cases (h : traceFrom context (fuel + 1) state = (.ok output, last)) :
    ∃ instruction flow after, context.code.instruction? state.pc = some instruction ∧
      TraceM.step context instruction state = .ok (flow, after) ∧
      ((∃ pc, flow.target? state.pc = some pc ∧
          traceFrom context fuel { after with pc } = (.ok output, last)) ∨
        ∃ operand, flow = .finish operand ∧ output = after.finish operand ∧ last = after) := by
  unfold traceFrom at h
  split at h
  · simp at h
  · next instruction hinstruction =>
    split at h
    · simp at h
    · next after hstep =>
      exact ⟨instruction, .next, after, hinstruction, hstep, Or.inl ⟨_, rfl, h⟩⟩
    · next target after hstep =>
      exact ⟨instruction, .jump target, after, hinstruction, hstep, Or.inl ⟨_, rfl, h⟩⟩
    · next operand after hstep =>
      obtain ⟨houtput, hlast⟩ := Prod.mk.inj h
      exact ⟨instruction, .finish operand, after, hinstruction, hstep,
        Or.inr ⟨operand, rfl, (Except.ok.inj houtput).symm, hlast.symm⟩⟩

/-- A completed trace keeps everything that was recorded when it passed a state. -/
lemma traceFrom_extends (h : traceFrom context fuel state = (.ok output, last)) :
    state.Extends last ∧ ∃ operand, output = last.finish operand := by
  induction fuel generalizing state with
  | zero => simp [traceFrom] at h
  | succ fuel ih =>
    obtain ⟨instruction, flow, after, -, hstep, hflow⟩ := traceFrom_cases h
    have hgrows := TraceM.extends_of_step hstep
    rcases hflow with ⟨pc, -, h⟩ | ⟨operand, -, houtput, rfl⟩
    · exact ⟨(hgrows.trans (.of_pc after pc)).trans (ih h).1, (ih h).2⟩
    · exact ⟨hgrows, operand, houtput⟩

lemma exists_traceFrom {code : Code} {frame : Frame} {config : Config}
    (h : trace code frame config = .ok output) :
    ∃ last, traceFrom ⟨code, frame, config⟩ maxTraceSteps {} = (.ok output, last) :=
  ⟨_, Prod.ext h rfl⟩

end

end GuardedTrace
