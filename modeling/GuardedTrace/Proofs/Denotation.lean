/-
What symbolic values stand for.

A completed trace is looked at beside the values that an evaluation computed for the nodes of its
graph: together they are a *world*.  In a world a symbolic value denotes values of a direct run
(`World.Denotes`): a node denotes its value, a constant its literal, a container the container of
what its items denote, and an unknown value anything.

A constant denotes its literal only, and the operand that represents a value in the graph evaluates
to what the value denotes.
-/
import GuardedTrace.Direct.Step
import GuardedTrace.Proofs.GraphRuns
import GuardedTrace.Proofs.PlainFrames
import GuardedTrace.Proofs.Shapes

namespace GuardedTrace

namespace Frame

/-- Reachable dictionaries are in order, with keys that can be told apart in paths, and reachable
lists are no longer than a word can count. -/
structure Orderly (frame : Frame) : Prop where
  regular : frame.Regular
  ordered : ∀ entries, frame.Reaches (.dict entries) → Table.Ordered entries
  short : ∀ items, frame.Reaches (.list items) → items.length < wordLimit

/-- Reachable tuples are no longer than a word can count. -/
def ShortTuples (frame : Frame) : Prop :=
  ∀ items, frame.Reaches (.tuple items) → items.length < wordLimit

lemma Plain.orderly {frame : Frame} (h : frame.Plain) : frame.Orderly where
  regular := h.regular
  ordered := by
    rintro entries ⟨scope, path, hpath⟩
    rcases h.cases hpath with ⟨hplain, -⟩ | ⟨hpart, -⟩
    · exact hplain.1.1
    · cases hpart with
      | plain hplain _ => exact hplain.1.1
  short := by
    rintro items ⟨scope, path, hpath⟩
    rcases h.cases hpath with ⟨hplain, -⟩ | ⟨hpart, -⟩
    · exact hplain.1
    · cases hpart with
      | plain hplain _ => exact hplain.1

end Frame

/-- A completed trace on a frame, and values that solve the equations of its graph. -/
structure World where
  frame : Frame
  /-- The state in which the trace ended. -/
  last : Tracer
  /-- The values of the nodes. -/
  values : List Value
  /-- Whether objects and attributes occur. -/
  objects : Prop
  orderly : frame.Orderly
  tuples : objects → frame.ShortTuples
  plain : objects ∨ frame.Plain
  solves : last.Solves frame values
  /-- No method is read as a value. -/
  methods : objects → ∀ node ∈ last.builder.nodes.toList, ∀ name,
    node.operation = .readAttr name → Primitive.ofMethod? name = none

namespace World

variable (world : World)

/-- A value that the trace cannot look into is the one that stands where it was read. -/
def Placed (value : Symbolic) : Prop :=
  ∀ held type, value.kind = .unsupported held type → ∀ base scope,
    TraceM.nameAndScope? value = some (base, scope) → world.frame.resolve scope base = .ok held

mutual

/-- A value of a direct run that a symbolic value stands for. -/
def Denotes : Symbolic → Value → Prop
  | ⟨kind, support, guards, localName, globalName⟩, value =>
    DenotesKind kind value ∧ world.Placed ⟨kind, support, guards, localName, globalName⟩
termination_by structural symbolic => symbolic

def DenotesKind : Kind → Value → Prop
  | .array facts, value => world.values[facts.node]? = some value ∧ facts.Fits value ∧ value.Data
  | .scalar facts, value => world.values[facts.node]? = some value ∧ facts.Fits value ∧ value.Data
  | .layer _ node, value => world.objects ∧ value = .layer node
  | .constant literal, value => value = .ofLiteral literal
  -- a query of an array that the trace has answered before it is called
  | .deferred payload, value => world.objects ∧ ∃ id numbers function literal,
    value = .boundPrimitive id (.array numbers) function ∧ payload.constant? = .ok literal ∧
      function.isShapeQuery = true ∧
      ∀ serial, function.call serial [.array numbers] = .ok (.ofLiteral literal)
  | .builtin function, value => value = .builtin function
  | .iterator _ _, _ => False
  | .attr holder name, value => world.objects ∧ ∃ base serial, Denotes holder base ∧
    base.getAttr serial name = .ok value
  | .sequence .list items, value => ∃ values, value = .list values ∧ DenotesItems items values
  | .sequence .tuple items, value => ∃ values, value = .tuple values ∧ DenotesItems items values
  | .sequence .slice items, value => ∃ first second third start stop step,
    DenotesItems items [first, second, third] ∧ MachineM.bound first = .ok start ∧
      MachineM.bound second = .ok stop ∧ MachineM.bound third = .ok step ∧
      value = .slice ⟨start, stop, step⟩
  | .dict entries, value => ∃ values, value = .dict values ∧ Table.Ordered values ∧
    DenotesEntries entries values
  | .routine function, value => world.objects ∧ value = .routine function
  | .method _ _, _ => False
  | .host item, value => value = item.value
  | .library space, value => world.objects ∧ value = .library space
  -- methods are bound anew at every access
  | .unsupported held _, value => world.objects ∧
    (value = held ∨ (held.typeName = .method ∧ value.typeName = .method))
  | .unknown _, _ => True
termination_by structural kind => kind

def DenotesItems : List Symbolic → List Value → Prop
  | [], values => values = []
  | item :: rest, values => ∃ value others, values = value :: others ∧ Denotes item value ∧
    DenotesItems rest others
termination_by structural items => items

def DenotesEntries : List (Key × Symbolic) → List (Key × Value) → Prop
  | [], entries => entries = []
  | (key, item) :: rest, entries => ∃ value others, entries = (key, value) :: others ∧
    Denotes item value ∧ DenotesEntries rest others
termination_by structural entries => entries

end

variable {world} {value : Symbolic} {v : Value}

lemma denotes_iff : world.Denotes value v ↔ world.DenotesKind value.kind v ∧
    world.Placed value := by
  cases value
  rfl

lemma Denotes.kind (h : world.Denotes value v) : world.DenotesKind value.kind v :=
  (denotes_iff.1 h).1

lemma denotesItems_iff {items : List Symbolic} {values : List Value} :
    world.DenotesItems items values ↔ List.Forall₂ world.Denotes items values := by
  induction items generalizing values with
  | nil =>
    simp only [DenotesItems]
    exact List.forall₂_nil_left_iff.symm
  | cons item rest ih =>
    simp only [DenotesItems, ih]
    rw [List.forall₂_cons_left_iff]
    constructor
    · rintro ⟨value, others, rfl, hvalue, hothers⟩
      exact ⟨value, others, hvalue, hothers, rfl⟩
    · rintro ⟨value, others, hvalue, hothers, rfl⟩
      exact ⟨value, others, rfl, hvalue, hothers⟩

lemma denotesEntries_iff {entries : List (Key × Symbolic)} {values : List (Key × Value)} :
    world.DenotesEntries entries values ↔
      List.Forall₂ (Table.Related world.Denotes) entries values := by
  induction entries generalizing values with
  | nil =>
    simp only [DenotesEntries]
    exact List.forall₂_nil_left_iff.symm
  | cons entry rest ih =>
    obtain ⟨key, item⟩ := entry
    simp only [DenotesEntries, ih]
    rw [List.forall₂_cons_left_iff]
    constructor
    · rintro ⟨value, others, rfl, hvalue, hothers⟩
      exact ⟨(key, value), others, ⟨rfl, hvalue⟩, hothers, rfl⟩
    · rintro ⟨⟨key', value⟩, others, ⟨rfl, hvalue⟩, hothers, rfl⟩
      exact ⟨value, others, rfl, hvalue, hothers⟩

/-! ### Derived values -/

lemma placed_of_kind (h : ∀ held type, value.kind ≠ .unsupported held type) : world.Placed value :=
  fun held type hkind => absurd hkind (h held type)

lemma denotes_of_kind (h : ∀ held type, value.kind ≠ .unsupported held type) :
    world.Denotes value v ↔ world.DenotesKind value.kind v :=
  denotes_iff.trans ⟨And.left, fun hkind => ⟨hkind, placed_of_kind h⟩⟩

/-- A value that is derived from others has no name. -/
@[simp] lemma denotes_derived {kind : Kind} {operands : List Symbolic} :
    world.Denotes (Symbolic.derived kind operands) v ↔ world.DenotesKind kind v :=
  denotes_iff.trans ⟨And.left, fun hkind => ⟨hkind, fun _ _ _ _ _ h => nomatch h⟩⟩

@[simp] lemma denotes_ofKind {kind : Kind} :
    world.Denotes (Symbolic.ofKind kind) v ↔ world.DenotesKind kind v :=
  denotes_iff.trans ⟨And.left, fun hkind => ⟨hkind, fun _ _ _ _ _ h => nomatch h⟩⟩

@[simp] lemma denotes_constant {literal : Literal} :
    world.Denotes (Symbolic.constant literal) v ↔ v = .ofLiteral literal := by
  rw [Symbolic.constant, denotes_ofKind, DenotesKind]

/-- Guards and support do not change what a value denotes. -/
@[simp] lemma denotes_inherit {propagation : Propagation} :
    world.Denotes (value.inherit propagation) v ↔ world.Denotes value v := by
  cases value
  rfl

@[simp] lemma denotes_addGuards {guards : GuardSet} :
    world.Denotes (value.addGuards guards) v ↔ world.Denotes value v := by
  cases value
  rfl

/-! ### Constants -/

lemma bound_ofLiteral {literal : Literal} {bound : Option Int64}
    (h : SequenceKind.bound? literal = some bound) :
    MachineM.bound (.ofLiteral literal) = .ok bound := by
  cases literal with
  | none | int _ | bool _ =>
    cases h
    rfl
  | _ => cases h

mutual

/-- A value that is a constant denotes its literal only. -/
lemma eq_of_constant? : ∀ {value : Symbolic} {v : Value} {literal : Literal},
    value.constant? = .ok literal → world.Denotes value v → v = .ofLiteral literal
  | ⟨kind, support, guards, localName, globalName⟩, v, literal, h, hdenotes => by
    simp only [Symbolic.constant?] at h
    split at h
    · next found hkind =>
      obtain rfl := Except.ok.inj h
      exact eq_of_constantOfKind? hkind (Denotes.kind hdenotes)
    · cases h
    · cases h
termination_by structural value => value

lemma eq_of_constantOfKind? : ∀ {kind : Kind} {v : Value} {literal : Literal},
    Symbolic.constantOfKind? kind = .ok (some literal) → world.DenotesKind kind v →
      v = .ofLiteral literal
  | .constant _, v, literal, h, hdenotes => by
    cases h
    exact hdenotes
  | .host (.elementType type), v, literal, h, hdenotes => by
    cases h
    exact hdenotes
  | .host (.device place), v, literal, h, hdenotes => by
    cases h
    exact hdenotes
  | .sequence kind items, v, literal, h, hdenotes => by
    simp only [Symbolic.constantOfKind?, except_map_eq_ok] at h
    obtain ⟨literals, hliterals, hkind⟩ := h
    cases kind with
    | list | tuple =>
      obtain ⟨values, rfl, hvalues⟩ := hdenotes
      cases hkind
      rw [eq_of_constants? hliterals hvalues, Value.ofLiteral]
    | slice =>
      obtain ⟨first, second, third, start, stop, step, hvalues, hstart, hstop, hstep, rfl⟩ :=
        hdenotes
      have hthree := eq_of_constants? hliterals hvalues
      match literals, hkind, hthree with
      | [one, two, three], hkind, hthree =>
        simp only [Value.ofLiterals, List.cons.injEq, and_true] at hthree
        obtain ⟨rfl, rfl, rfl⟩ := hthree
        simp only [SequenceKind.literal?, Option.bind_eq_bind, Option.bind_eq_some_iff,
          Option.some.injEq] at hkind
        obtain ⟨start', hstart', stop', hstop', step', hstep', rfl⟩ := hkind
        rw [bound_ofLiteral hstart'] at hstart
        rw [bound_ofLiteral hstop'] at hstop
        rw [bound_ofLiteral hstep'] at hstep
        cases hstart
        cases hstop
        cases hstep
        rfl
  | .array _, _, _, h, _ | .scalar _, _, _, h, _ | .layer _ _, _, _, h, _ | .deferred _, _, _, h, _
  | .builtin _, _, _, h, _ | .iterator _ _, _, _, h, _ | .attr _ _, _, _, h, _ | .dict _, _, _, h, _
  | .routine _, _, _, h, _ | .method _ _, _, _, h, _ | .host (.primitive _), _, _, h, _
  | .library _, _, _, h, _ | .unsupported _ _, _, _, h, _ | .unknown _, _, _, h, _ => by
    simp [Symbolic.constantOfKind?] at h
termination_by structural kind => kind

lemma eq_of_constants? : ∀ {items : List Symbolic} {values : List Value} {literals : List Literal},
    Symbolic.constants? items = .ok literals → world.DenotesItems items values →
      values = Value.ofLiterals literals
  | [], values, literals, h, hdenotes => by
    cases h
    exact hdenotes
  | item :: rest, values, literals, h, hdenotes => by
    simp only [Symbolic.constants?, except_bind_eq_ok] at h
    obtain ⟨literal, hliteral, others, hothers, h⟩ := h
    obtain ⟨value, tail, rfl, hvalue, htail⟩ := hdenotes
    cases h
    rw [eq_of_constant? hliteral hvalue, eq_of_constants? hothers htail, Value.ofLiterals]
termination_by structural items => items

end

/-! ### Facts -/

lemma facts_fits (node : Nat) (h : world.Denotes value v) : (value.facts node).Fits v := by
  have hkind := h.kind
  unfold Symbolic.facts
  split
  · next heq =>
    rw [heq] at hkind
    exact hkind.2.1
  · next heq =>
    rw [heq] at hkind
    exact hkind.2.1
  · next heq =>
    rw [heq] at hkind
    subst hkind
    exact ArrayFacts.fits_scalar ⟨rfl, rfl⟩
  · next heq =>
    rw [heq] at hkind
    subst hkind
    exact ArrayFacts.fits_scalar ⟨rfl, rfl⟩
  · next heq =>
    rw [heq] at hkind
    subst hkind
    exact ArrayFacts.fits_scalar ⟨rfl, rfl⟩
  · exact ArrayFacts.fits_unknown

/-! ### Operands -/

variable (world) in
/-- The nodes of a builder are among those of the completed trace. -/
def Covers (builder : Builder) : Prop :=
  builder.nodes.toList <+: world.last.builder.nodes.toList

lemma Covers.of_extends {builder after : Builder} (h : world.Covers after)
    (hextends : builder.Extends after) : world.Covers builder :=
  hextends.nodes.trans h

/-- A recorded node is a node of the completed trace. -/
lemma Covers.exists_node {builder after : Builder} {operation : Operation} {operands : List Operand}
    {id : Nat} (h : world.Covers after)
    (hrecord : builder.record operation operands = (id, after)) :
    ∃ node, world.last.builder.nodes.toList[id]? = some node ∧ node.operation = operation ∧
      node.operands = operands := by
  obtain ⟨node, hnode, hparts⟩ := Builder.exists_of_record hrecord
  obtain ⟨others, hothers⟩ := h
  refine ⟨node, ?_, hparts⟩
  rw [← hothers, List.getElem?_append_left (List.getElem?_eq_some_iff.1 hnode).1, hnode]

/-- Of data only arrays have attributes, and those that are no methods do not depend on the serial
number. -/
lemma getAttr_data {base value other : Value} {name : String} {serial serial' : Nat}
    (hbase : base.Data) (hname : Primitive.ofMethod? name = none)
    (h : base.getAttr serial name = .ok value) (h' : base.getAttr serial' name = .ok other) :
    value = other ∧ value.Data := by
  cases base with
  | array numbers =>
    have hsame : Value.arrayAttr serial numbers name = Value.arrayAttr serial' numbers name := by
      unfold Value.arrayAttr
      split <;> simp [hname]
    simp only [Value.getAttr] at h h'
    refine ⟨Except.ok.inj (h.symm.trans (hsame.trans h')), ?_⟩
    unfold Value.arrayAttr at h
    split at h
    · exact data_of_ofSizes h
    · obtain ⟨word, rfl⟩ := exists_of_ofSize h
      trivial
    · cases h
      trivial
    · cases h
      trivial
    · cases h
      trivial
    · simp [hname] at h
  | layer | library | object => exact hbase.elim
  | _ => cases h

lemma sliceBound_of_bound {v : Value} {bound : Option Int64} (h : MachineM.bound v = .ok bound) :
    sliceBound v = .ok bound := by
  cases v with
  | none | int _ | bool _ =>
    cases h
    rfl
  | _ => cases h

/-- A slice operand evaluates to the slice of the bounds that its parts denote. -/
lemma evaluate_slice {reader : Nat} {values : List Value} {one two three : Operand}
    {first second third : Value} {start stop step : Option Int64}
    (h : Operand.evaluateItems reader values [one, two, three] = .ok [first, second, third])
    (hstart : MachineM.bound first = .ok start) (hstop : MachineM.bound second = .ok stop)
    (hstep : MachineM.bound third = .ok step) :
    (Operand.slice one two three).evaluate reader values = .ok (.slice ⟨start, stop, step⟩) := by
  simp only [Operand.evaluateItems, except_bind_eq_ok, Except.ok.injEq] at h
  obtain ⟨_, hone, _, ⟨_, htwo, _, ⟨_, hthree, _, rfl, rfl⟩, rfl⟩, hsame⟩ := h
  simp only [List.cons.injEq, and_true] at hsame
  obtain ⟨rfl, rfl, rfl⟩ := hsame
  simp only [Operand.evaluate, hone, htwo, hthree, ok_bind, sliceBound_of_bound hstart,
    sliceBound_of_bound hstop, sliceBound_of_bound hstep]

/-- The node that reads an attribute of data holds that attribute. -/
lemma evaluate_readAttr {builder after : Builder} {base id serial : Nat} {name : String}
    {holder v : Value} (hrecord : builder.record (.readAttr name) [.node base] = (id, after))
    (hcovers : world.Covers after) (hobjects : world.objects)
    (hholder : ∀ reader, (Operand.node base).evaluate reader world.values = .ok holder)
    (hdata : holder.Data) (hattr : holder.getAttr serial name = .ok v) :
    (∀ reader, (Operand.node id).evaluate reader world.values = .ok v) ∧ v.Data := by
  obtain ⟨node, hnode, hoperation, hoperands⟩ := hcovers.exists_node hrecord
  obtain ⟨found, value, hvalue, hargs, hread⟩ := world.solves.attr hnode hoperation
  rw [hoperands] at hargs
  simp only [Operand.evaluateItems, hholder id, ok_bind, Except.ok.injEq, List.cons.injEq,
    and_true] at hargs
  subst hargs
  have hname := world.methods hobjects node (List.mem_of_getElem? hnode) name hoperation
  obtain ⟨rfl, hvalueData⟩ := getAttr_data hdata hname hread hattr
  exact ⟨fun reader => by simp [Operand.evaluate, hvalue], hvalueData⟩

mutual

/-- The operand of a value evaluates to what the value denotes. -/
lemma evaluate_operand : ∀ {value : Symbolic} {builder after : Builder} {operand : Operand}
    {v : Value}, value.operand builder = (.ok operand, after) → world.Covers after →
      world.Denotes value v → (∀ reader, operand.evaluate reader world.values = .ok v) ∧ v.Data
  | ⟨kind, support, guards, localName, globalName⟩, builder, after, operand, v, h, hcovers,
      hdenotes => by
    simp only [Symbolic.operand] at h
    split at h
    · cases h
    · split at h
      · next heq =>
        cases h
        exact evaluate_operandOfKind heq hcovers (Denotes.kind hdenotes)
      · cases h
      · cases h
termination_by structural value => value

lemma evaluate_operandOfKind : ∀ {kind : Kind} {builder after : Builder} {operand : Operand}
    {v : Value}, Symbolic.operandOfKind kind builder = (.ok (some operand), after) →
      world.Covers after → world.DenotesKind kind v →
      (∀ reader, operand.evaluate reader world.values = .ok v) ∧ v.Data
  | .array facts, builder, after, operand, v, h, _, hdenotes => by
    cases h
    exact ⟨fun reader => by simp [Operand.evaluate, hdenotes.1], hdenotes.2.2⟩
  | .scalar facts, builder, after, operand, v, h, _, hdenotes => by
    cases h
    exact ⟨fun reader => by simp [Operand.evaluate, hdenotes.1], hdenotes.2.2⟩
  | .constant literal, builder, after, operand, v, h, _, hdenotes => by
    cases h
    cases hdenotes
    exact ⟨fun reader => rfl, Value.data_ofLiteral literal⟩
  | .host (.elementType type), builder, after, operand, v, h, _, hdenotes => by
    cases h
    cases hdenotes
    exact ⟨fun reader => rfl, trivial⟩
  | .host (.device place), builder, after, operand, v, h, _, hdenotes => by
    cases h
    cases hdenotes
    exact ⟨fun reader => rfl, trivial⟩
  | .sequence kind items, builder, after, operand, v, h, hcovers, hdenotes => by
    simp only [Symbolic.operandOfKind] at h
    rcases hargs : Symbolic.operands items builder with ⟨_ | args, builder'⟩
    · simp [hargs] at h
    · cases kind with
      | list | tuple =>
        simp only [hargs] at h
        cases h
        obtain ⟨values, rfl, hvalues⟩ := hdenotes
        obtain ⟨heval, hdata⟩ := evaluate_operands hargs hcovers hvalues
        exact ⟨fun reader => by simp only [Operand.evaluate, heval reader]; rfl,
          Value.dataItems_iff.2 hdata⟩
      | slice =>
        obtain ⟨first, second, third, start, stop, step, hvalues, hstart, hstop, hstep, rfl⟩ :=
          hdenotes
        rw [hargs] at h
        match args, hargs, h with
        | [one, two, three], hargs, h =>
          cases h
          obtain ⟨heval, -⟩ := evaluate_operands hargs hcovers hvalues
          exact ⟨fun reader => evaluate_slice (heval reader) hstart hstop hstep, trivial⟩
        | [], _, h | [_], _, h | [_, _], _, h | _ :: _ :: _ :: _ :: _, _, h => simp at h
  | .dict entries, builder, after, operand, v, h, hcovers, hdenotes => by
    simp only [Symbolic.operandOfKind] at h
    rcases hargs : Symbolic.operandEntries entries builder with ⟨_ | args, builder'⟩
    · simp [hargs] at h
    · simp only [hargs] at h
      cases h
      obtain ⟨values, rfl, hordered, hvalues⟩ := hdenotes
      obtain ⟨heval, hdata⟩ := evaluate_operandEntries hargs hcovers hvalues
      refine ⟨fun reader => ?_, Value.dataEntries_iff.2 hdata⟩
      simp only [Operand.evaluate, heval reader, Except.map, Table.ofListOrdered_eq_self hordered]
  | .attr holder name, builder, after, operand, v, h, hcovers, hdenotes => by
    simp only [Symbolic.operandOfKind] at h
    split at h
    · next base middle hholder =>
      rcases hrecord : middle.record (.readAttr name) [.node base] with ⟨id, builder'⟩
      rw [hrecord] at h
      cases h
      obtain ⟨hobjects, base', serial, hbase, hattr⟩ := hdenotes
      have hmiddle : world.Covers middle :=
        hcovers.of_extends (Builder.extends_record hrecord (by simp [Operation.Inner]))
      obtain ⟨heval, hdata⟩ := evaluate_operand hholder hmiddle hbase
      exact evaluate_readAttr hrecord hcovers hobjects heval hdata hattr
    · cases h
    · cases h
  | .layer _ _, _, _, _, _, h, _, _ | .deferred _, _, _, _, _, h, _, _
  | .builtin _, _, _, _, _, h, _, _ | .iterator _ _, _, _, _, _, h, _, _
  | .routine _, _, _, _, _, h, _, _ | .method _ _, _, _, _, _, h, _, _
  | .host (.primitive _), _, _, _, _, h, _, _ | .library _, _, _, _, _, h, _, _
  | .unsupported _ _, _, _, _, _, h, _, _ | .unknown _, _, _, _, _, h, _, _ => by
    simp [Symbolic.operandOfKind] at h
termination_by structural kind => kind

lemma evaluate_operands : ∀ {items : List Symbolic} {builder after : Builder} {args : List Operand}
    {values : List Value}, Symbolic.operands items builder = (.ok args, after) →
      world.Covers after → world.DenotesItems items values →
      (∀ reader, Operand.evaluateItems reader world.values args = .ok values) ∧
        ∀ value ∈ values, value.Data
  | [], builder, after, args, values, h, _, hdenotes => by
    cases h
    cases hdenotes
    exact ⟨fun reader => rfl, by simp⟩
  | item :: rest, builder, after, args, values, h, hcovers, hdenotes => by
    simp only [Symbolic.operands] at h
    split at h
    · cases h
    · next arg middle hitem =>
      rcases hrest : Symbolic.operands rest middle with ⟨_ | others, builder'⟩
      · simp [hrest] at h
      · rw [hrest] at h
        cases h
        obtain ⟨value, tail, rfl, hvalue, htail⟩ := hdenotes
        have hextends := Symbolic.extends_operands rest middle
        rw [hrest] at hextends
        obtain ⟨heval, hdata⟩ := evaluate_operand hitem (hcovers.of_extends hextends) hvalue
        obtain ⟨hevals, hdatas⟩ := evaluate_operands hrest hcovers htail
        exact ⟨fun reader => by simp [Operand.evaluateItems, heval reader, hevals reader],
          by simpa using ⟨hdata, hdatas⟩⟩
termination_by structural items => items

lemma evaluate_operandEntries : ∀ {entries : List (Key × Symbolic)} {builder after : Builder}
    {args : List (Key × Operand)} {values : List (Key × Value)},
      Symbolic.operandEntries entries builder = (.ok args, after) → world.Covers after →
      world.DenotesEntries entries values →
      (∀ reader, Operand.evaluateEntries reader world.values args = .ok values) ∧
        ∀ entry ∈ values, entry.2.Data
  | [], builder, after, args, values, h, _, hdenotes => by
    cases h
    cases hdenotes
    exact ⟨fun reader => rfl, by simp⟩
  | (key, item) :: rest, builder, after, args, values, h, hcovers, hdenotes => by
    simp only [Symbolic.operandEntries] at h
    split at h
    · cases h
    · next arg middle hitem =>
      rcases hrest : Symbolic.operandEntries rest middle with ⟨_ | others, builder'⟩
      · simp [hrest] at h
      · rw [hrest] at h
        cases h
        obtain ⟨value, tail, rfl, hvalue, htail⟩ := hdenotes
        have hextends := Symbolic.extends_operandEntries rest middle
        rw [hrest] at hextends
        obtain ⟨heval, hdata⟩ := evaluate_operand hitem (hcovers.of_extends hextends) hvalue
        obtain ⟨hevals, hdatas⟩ := evaluate_operandEntries hrest hcovers htail
        exact ⟨fun reader => by simp [Operand.evaluateEntries, heval reader, hevals reader],
          List.forall_mem_cons.2 ⟨hdata, hdatas⟩⟩
termination_by structural entries => entries

end

end World

end GuardedTrace
