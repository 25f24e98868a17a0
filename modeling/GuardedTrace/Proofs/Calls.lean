/-
Calls of a trace beside the calls of a run.

A trace calls builtins, primitives, methods of arrays, layers, and queries of arrays that it has
answered before.  A call that is recorded as a node cannot fail in the run.  Two things can still go
wrong: a query takes a slice as its index although a run refuses it, and the facts that are inferred
for the result of a layer need not fit the result.
-/
import GuardedTrace.Proofs.Operations

namespace GuardedTrace

/-- The result of calling a value that is no routine. -/
def Value.invoke? (serial : Nat) (args : List Value) : Value → Option (Run Value)
  | .primitive function => some (function.call serial args)
  | .builtin function => some (function.call args)
  | .layer node => some (node.forward serial args)
  | .boundPrimitive _ receiver function => some (function.call serial (receiver :: args))
  | .routine _ | .boundRoutine .. => Option.none
  | other => some (.error (.type (.notCallable other.typeName)))

/-- A slice as the argument of a query that the trace has answered: a trace takes a slice of the
answer, a run refuses it. -/
def Symbolic.queriedBySlice (callee : Symbolic) (args : List Symbolic) : Bool :=
  match callee.kind, args.map Symbolic.constant? with
  | .deferred _, [.ok (.slice _)] => true
  | _, _ => false

/-- The facts of a value are not those of the value it stands for. -/
def Symbolic.Misfits (value : Symbolic) (v : Value) : Prop :=
  ∃ facts, value.kind = .array facts ∧ ¬ facts.Fits v

/-! ### Facts of layers -/

namespace Layer

mutual

/-- The facts of the result of a layer are those of its node, unless the layer hands its input
on. -/
lemma outputFacts_node (id : Nat) (dynamicShapes : Bool) : ∀ (layer : Layer)
    (input : Option ArrayFacts), (layer.outputFacts id dynamicShapes input).node = id ∨
      (input = some (layer.outputFacts id dynamicShapes input) ∧
        ∀ serial args v, layer.forward serial args = .ok v → args = [v])
  | ⟨_, typeName, kind, members⟩, input => by
    cases kind with
    | leaf function =>
      left
      cases function with
      | sum => cases input <;> rfl
      | _ => rfl
    | scale | list | container => exact Or.inl rfl
    | sequential =>
      simp only [outputFacts]
      cases hfacts : chainFacts id dynamicShapes members input with
      | none => exact Or.inl rfl
      | some facts =>
        rcases chainFacts_node id dynamicShapes members input hfacts with hnode | ⟨hinput, hsame⟩
        · exact Or.inl hnode
        · refine Or.inr ⟨hinput, fun serial args v h => ?_⟩
          match args, h with
          | [x], h => rw [hsame serial x v (by simpa [forward] using h)]
          | [], h | _ :: _ :: _, h => simp [forward] at h
termination_by structural layer => layer

lemma chainFacts_node (id : Nat) (dynamicShapes : Bool) : ∀ (members : List (String × Value))
    (input : Option ArrayFacts) {facts : ArrayFacts},
    chainFacts id dynamicShapes members input = some facts → facts.node = id ∨
      (input = some facts ∧ ∀ serial x v, forwardMembers serial members x = .ok v → x = v)
  | [], input, facts, h => Or.inr ⟨h, fun _ _ _ h => by simpa [forwardMembers] using h⟩
  | (_, .layer child) :: rest, input, facts, h => by
    simp only [chainFacts] at h
    rcases chainFacts_node id dynamicShapes rest _ h with hnode | ⟨hchild, hrest⟩
    · exact Or.inl hnode
    · rw [← Option.some.inj hchild]
      rcases outputFacts_node id dynamicShapes child input with hnode | ⟨hinput, hsame⟩
      · exact Or.inl hnode
      · refine Or.inr ⟨hinput, fun serial x v h => ?_⟩
        simp only [forwardMembers] at h
        split at h
        · next output hforward =>
          obtain rfl := (List.cons.inj (hsame serial [x] output hforward)).1
          exact hrest serial x v h
        · cases h
  | (_, .none) :: rest, input, facts, h | (_, .bool _) :: rest, input, facts, h
  | (_, .int _) :: rest, input, facts, h | (_, .float _) :: rest, input, facts, h
  | (_, .str _) :: rest, input, facts, h | (_, .tuple _) :: rest, input, facts, h
  | (_, .list _) :: rest, input, facts, h | (_, .dict _) :: rest, input, facts, h
  | (_, .slice _) :: rest, input, facts, h | (_, .array _) :: rest, input, facts, h
  | (_, .elementType _) :: rest, input, facts, h | (_, .device _) :: rest, input, facts, h
  | (_, .routine _) :: rest, input, facts, h | (_, .boundPrimitive _ _ _) :: rest, input, facts, h
  | (_, .boundRoutine _ _ _) :: rest, input, facts, h | (_, .primitive _) :: rest, input, facts, h
  | (_, .builtin _) :: rest, input, facts, h | (_, .library _) :: rest, input, facts, h
  | (_, .object _) :: rest, input, facts, h => by
    simp only [chainFacts] at h
    simpa only [forwardMembers] using chainFacts_node id dynamicShapes rest input h
termination_by structural members => members

end

end Layer

namespace World

variable {world : World} {state after : Tracer} {value callee container : Symbolic}
  {args : List Symbolic} {values : List Value} {v c : Value}

variable (world) in
/-- The completed trace is true to a use of a layer. -/
structure Serves (use : LayerUse) : Prop where
  layer : world.last.layers.lookup use.key = some use.layer
  parameter : ∀ name numbers, use.parameter = some (name, numbers) →
    world.last.layers.resolve? (use.key ++ "." ++ name) = some (.array numbers)

/-! ### Builtins -/

lemma call_of_foldBuiltin {function : Builtin}
    (h : TraceM.foldBuiltin function callee args state = .ok (value, after))
    (hlast : after.Extends world.last) (hargs : List.Forall₂ world.Denotes args values) :
    ∃ v, world.Denotes value v ∧ function.call values = .ok v := by
  unfold TraceM.foldBuiltin at h
  cases hfound : TraceM.constantArgs? args with
  | some found =>
    obtain ⟨rfl, -⟩ := eq_of_constantArgs? hfound hargs
    simp only [hfound, TraceM.bind_eq_ok, TraceM.ofRun_eq_ok, TraceM.pure_eq_ok,
      Prod.mk.injEq] at h
    obtain ⟨result, _, ⟨hresult, rfl⟩, literal, _, hliteral, rfl, rfl⟩ := h
    exact ⟨result, denotes_inherit.2 (denotes_ofKind.2 (eq_of_foldedLiteral hliteral)), hresult⟩
  | none =>
    simp only [hfound] at h
    split at h
    · next arg =>
      split at h
      · simp only [TraceM.bind_eq_ok, TraceM.pure_eq_ok, Prod.mk.injEq] at h
        obtain ⟨result, _, hresult, rfl, rfl⟩ := h
        obtain ⟨v, hv, hcall⟩ := call_of_emitCall hresult hlast hargs
        refine ⟨v, denotes_inherit.2 hv, ?_⟩
        cases hargs with
        | cons _ hrest =>
          cases hrest
          exact hcall 0
      · exact absurd h TraceM.breakOff_ne_ok
    · exact absurd h TraceM.breakOff_ne_ok

/-- A length that is known is the length in the run. -/
lemma length_of_length? {length : Nat} (h : container.length? = some length)
    (hc : world.Denotes container c) : c.length = .ok length := by
  have hkind := hc.kind
  unfold Symbolic.length? at h
  split at h
  · next heq =>
    cases h
    rw [heq] at hkind
    obtain ⟨items, rfl, hitems⟩ := hkind
    rw [(denotesItems_iff.1 hitems).length_eq]
    rfl
  · next heq =>
    cases h
    rw [heq] at hkind
    obtain ⟨items, rfl, hitems⟩ := hkind
    rw [(denotesItems_iff.1 hitems).length_eq]
    rfl
  · next heq =>
    cases h
    rw [heq] at hkind
    obtain ⟨entries, rfl, -, hentries⟩ := hkind
    rw [(denotesEntries_iff.1 hentries).length_eq]
    rfl
  · next literal heq =>
    rw [heq] at hkind
    cases hkind
    cases literal with
    | tuple items | list items =>
      cases h
      simp [Value.ofLiteral, Value.length, length_ofLiterals]
    | _ => cases h
  · next heq =>
    rw [heq] at hkind
    obtain ⟨-, rfl⟩ := hkind
    simp [Value.length, h]
  · next heq =>
    rw [heq] at hkind
    obtain ⟨shape, hshape, hhead⟩ := Option.bind_eq_some_iff.1 h
    obtain ⟨rest, rfl⟩ := List.head?_eq_some_iff.1 hhead
    rcases Value.array_or_number (hkind.2.1.shape _ hshape) with
        ⟨numbers, rfl, hnumbers⟩ | ⟨-, hnone⟩
    · simp [Value.length, hnumbers]
    · cases hnone
  · cases h

lemma reportedAt_zero {sizes : List Nat} (h : Primitive.reportedAt sizes 0 = .ok v) :
    ∃ size rest, sizes = size :: rest ∧ Value.ofSize size = .ok v := by
  unfold Primitive.reportedAt at h
  split at h
  · next extent hextent =>
    obtain ⟨position, hposition, hextent⟩ := Option.bind_eq_some_iff.1 hextent
    have hzero : position = 0 := by
      simp only [position?, Int64.toInt_zero, lt_self_iff_false, if_false,
        Option.ite_none_right_eq_some, Option.some.injEq, Int.toNat_zero] at hposition
      exact hposition.2.symm
    subst hzero
    obtain ⟨rest, rfl⟩ := List.head?_eq_some_iff.1 (List.head?_eq_getElem? ▸ hextent)
    exact ⟨extent, rest, rfl, h⟩
  · cases h

lemma call_len {length : Nat} (h : c.length = .ok length) :
    Builtin.len.call [c] = Value.ofSize length := by
  show c.length.bind Value.ofSize = _
  rw [h, Except.bind]

lemma call_of_callLength (h : TraceM.callLength callee container state = .ok (value, after))
    (hlast : after.Extends world.last) (hc : world.Denotes container c) :
    ∃ v, world.Denotes value v ∧ Builtin.len.call [c] = .ok v := by
  unfold TraceM.callLength at h
  cases hlength : container.length? with
  | some length =>
    simp only [hlength, TraceM.bind_eq_ok, TraceM.ofRun_eq_ok, TraceM.pure_eq_ok,
      Prod.mk.injEq] at h
    obtain ⟨word, _, ⟨hword, rfl⟩, rfl, rfl⟩ := h
    refine ⟨.int word, denotes_inherit.2 (denotes_ofKind.2 rfl), ?_⟩
    rw [call_len (length_of_length? hlength hc), Value.ofSize, hword, Except.map]
  | none =>
    cases hkind : container.kind with
    | array facts =>
      -- the node asks for the first size
      simp only [hlength, hkind, TraceM.bind_eq_ok, TraceM.pure_eq_ok, Prod.mk.injEq] at h
      obtain ⟨result, _, hresult, rfl, rfl⟩ := h
      obtain ⟨v, hv, hcall⟩ := call_of_emitMethod hresult hlast hc
        (.cons (denotes_constant.2 rfl) .nil)
      refine ⟨v, denotes_inherit.2 hv, ?_⟩
      cases Primitive.succeeds_of_call (hcall 0) with
      | size _ hsize =>
        obtain ⟨size, rest, hshape, hv⟩ := reportedAt_zero hsize
        simp only [Primitive.reported, if_true] at hshape
        refine (call_len ?_).trans hv
        simp only [Value.length, hshape]
      | binary hkernel => cases hkernel
    | _ =>
      simp only [hlength, hkind] at h
      exact call_of_foldBuiltin h hlast (.cons hc .nil)

lemma call_of_callBuiltin {function : Builtin}
    (h : TraceM.callBuiltin function callee args state = .ok (value, after))
    (hlast : after.Extends world.last) (hargs : List.Forall₂ world.Denotes args values) :
    ∃ v, world.Denotes value v ∧ function.call values = .ok v := by
  unfold TraceM.callBuiltin at h
  split at h
  · cases hargs with
    | cons hc hrest =>
      cases hrest
      exact call_of_callLength h hlast hc
  · exact call_of_foldBuiltin h hlast hargs

/-! ### Methods, layers and queries -/

/-- The method that a lazy attribute names is bound to what its holder denotes. -/
lemma eq_of_arrayMethod? {holder : Symbolic} {name : String} {function : Primitive} {base : Value}
    {serial : Nat} (h : TraceM.arrayMethod? holder name = some function)
    (hholder : world.Denotes holder base) (hattr : base.getAttr serial name = .ok c) :
    c = .boundPrimitive (.created serial) base function := by
  unfold TraceM.arrayMethod? at h
  split at h
  · next hnode =>
    have hdata : base.Data := by
      have hkind := hholder.kind
      unfold Symbolic.isNode at hnode
      split at hnode
      · next heq =>
        rw [heq] at hkind
        exact hkind.2.2
      · next heq =>
        rw [heq] at hkind
        exact hkind.2.2
      · cases hnode
    cases base with
    | array numbers =>
      simp only [Value.getAttr] at hattr
      unfold Value.arrayAttr at hattr
      split at hattr
      case h_6 =>
        rw [h] at hattr
        exact (Except.ok.inj hattr).symm
      all_goals cases h
    | layer _ | library _ | object _ => exact hdata.elim
    | _ => cases hattr
  · cases h

/-- The first argument of a call, by its facts. -/
lemma value_of_inputFacts? {facts : ArrayFacts} (h : TraceM.inputFacts? args = some facts)
    (hargs : List.Forall₂ world.Denotes args [v]) : world.values[facts.node]? = some v := by
  cases hargs with
  | @cons arg _ _ _ harg hrest =>
    have hkind := harg.kind
    unfold TraceM.inputFacts? at h
    simp only at h
    split at h
    · next heq =>
      cases h
      rw [heq] at hkind
      exact hkind.1
    · next heq =>
      cases h
      rw [heq] at hkind
      exact hkind.1
    · cases h

/-- A layer that is called succeeds in the run. -/
lemma forward_of_callLayer {config : Config} {key : String} {node : Layer}
    (h : TraceM.callLayer config key node callee args state = .ok (value, after))
    (hlast : after.Extends world.last) (hargs : List.Forall₂ world.Denotes args values)
    (hlayer : world.last.layers.lookup key = some node) :
    ∃ v, (world.Denotes value v ∨ value.Misfits v) ∧
      ∀ serial, node.forward serial values = .ok v := by
  obtain ⟨-, -, operands, builder, id, builder', hoperands, hrecord, rfl, rfl⟩ :=
    TraceM.callLayer_eq_ok h
  have hcovers : world.Covers builder' := hlast.nodes
  have hbuilder : world.Covers builder :=
    hcovers.of_extends (Builder.extends_record hrecord (by simp [Operation.Inner]))
  obtain ⟨heval, hdata⟩ := evaluate_operands hoperands hbuilder (denotesItems_iff.2 hargs)
  obtain ⟨found, hfound, hoperation, hsame⟩ := hcovers.exists_node hrecord
  obtain ⟨layer, inputs, v, hlookup, hv, hinputs, hforward⟩ := world.solves.layer hfound hoperation
  obtain rfl := Option.some.inj (hlayer.symm.trans hlookup)
  rw [hsame, heval id] at hinputs
  obtain rfl := Except.ok.inj hinputs
  have hserial : ∀ serial, node.forward serial values = .ok v := fun serial =>
    (Layer.forward_serial serial id node values hdata).1.trans hforward
  refine ⟨v, ?_, hserial⟩
  by_cases hfits : (node.outputFacts id config.dynamicShapes (TraceM.inputFacts? args)).Fits v
  · refine Or.inl (denotes_derived.2
      ⟨?_, hfits, (Layer.forward_serial id id node values hdata).2 v hforward⟩)
    rcases node.outputFacts_node id config.dynamicShapes (TraceM.inputFacts? args) with
      hnode | ⟨hinput, hsame⟩
    · rw [hnode]
      exact hv
    · obtain rfl := hsame id values v hforward
      exact value_of_inputFacts? hinput hargs
  · exact Or.inr ⟨_, rfl, hfits⟩

/-- An item of the tuple of sizes is the size that the query reports for the index. -/
lemma reportedAt_of_itemAt {sizes : List Nat} {items : List Value} {index : Int64}
    (hitems : List.Forall₂ (fun size item => Value.ofSize size = .ok item) sizes items)
    (h : Value.itemAt items index = .ok v) : Primitive.reportedAt sizes index = .ok v := by
  unfold Value.itemAt at h
  unfold Primitive.reportedAt
  rw [hitems.length_eq]
  cases hposition : position? index items.length with
  | none => simp [hposition] at h
  | some position =>
    rw [hposition, Option.bind_some] at h
    rw [Option.bind_some]
    rcases forall₂_getElem? hitems position with ⟨-, hnone⟩ | ⟨size, item, hsize, hitem, hword⟩
    · simp [hnone] at h
    · simp only [hitem, Except.ok.injEq] at h
      simp only [hsize, hword, h]

/-- A query with an index reports an item of what it reports without one. -/
lemma query_meets {function : Primitive} {numbers : NumArray} {literal key item : Literal}
    (hquery : function.isShapeQuery = true) (serial : Nat)
    (hcall : function.call serial [.array numbers] = .ok (.ofLiteral literal))
    (h : literal.getItem key = .ok item) :
    Meets (∃ bounds, key = .slice bounds) (fun v => v = .ofLiteral item)
      (function.call serial [.array numbers, .ofLiteral key]) := by
  simp only [Literal.getItem, except_bind_eq_ok] at h
  obtain ⟨result, hresult, h⟩ := h
  split at h
  · next hliteral =>
    obtain rfl := Except.ok.inj h
    obtain rfl := Value.eq_ofLiteral_of_literal? hliteral
    generalize Value.ofLiteral literal = answer at hcall hresult
    cases Primitive.succeeds_of_call hcall with
    | unary hkernel _ => cases function <;> cases hkernel <;> cases hquery
    | sum _ | sumNumber _ => cases hquery
    | dim hdim =>
      obtain ⟨word, rfl⟩ := exists_of_ofSize hdim
      cases hresult
    | sizes hfunction hsizes =>
      obtain ⟨items, hitems, rfl⟩ := except_map_eq_ok.1 hsizes
      cases key with
      | int index =>
        have hreported := reportedAt_of_itemAt (mapM_eq_ok.1 hitems) hresult
        rcases hfunction with rfl | rfl <;> exact meets_of_eq rfl hreported
      | slice bounds => rcases hfunction with rfl | rfl <;> exact ⟨bounds, rfl⟩
      | _ => cases hresult
  · cases h

lemma callDeferred_meets (h : callee.callDeferred args = .ok value) (hc : world.Denotes callee c)
    (hargs : List.Forall₂ world.Denotes args values) (serial : Nat) :
    ∃ run, c.invoke? serial values = some run ∧
      Meets (callee.queriedBySlice args = true) (world.Denotes value) run := by
  unfold Symbolic.callDeferred at h
  split at h
  · next payload hkind =>
    have hdenotes := hc.kind
    rw [hkind] at hdenotes
    obtain ⟨-, id, numbers, function, literal, rfl, hliteral, hquery, hcall⟩ := hdenotes
    refine ⟨_, rfl, ?_⟩
    simp only [hliteral, ok_bind] at h
    cases hargs with
    | nil =>
      obtain rfl := Except.ok.inj h
      exact meets_of_eq (denotes_derived.2 rfl) (hcall serial)
    | @cons index v rest _ hindex hrest =>
      cases hrest with
      | cons _ _ => cases h
      | nil =>
        simp only [except_bind_eq_ok] at h
        obtain ⟨key, hkey, h⟩ := h
        obtain rfl := eq_of_constant? hkey hindex
        cases hitem : literal.getItem key with
        | error error => simp [hitem] at h
        | ok item =>
          simp only [hitem] at h
          obtain rfl := Except.ok.inj h
          refine (query_meets hquery serial (hcall serial) hitem).imp ?_ ?_
          · rintro ⟨bounds, rfl⟩
            simp only [Symbolic.queriedBySlice, hkind, List.map_cons, List.map_nil, hkey]
          · exact fun v hv => denotes_derived.2 hv
  · cases h

lemma exists_invoke {relaxed : Prop} {P : Value → Prop} {run : Run Value} (serial : Nat)
    (hinvoke : c.invoke? serial values = some run) (h : run = .ok v) (hv : P v) :
    ∃ run, c.invoke? serial values = some run ∧ Meets relaxed P run :=
  ⟨run, hinvoke, meets_of_eq hv h⟩

/-- A primitive with constant arguments is folded, and recorded as a call otherwise. -/
lemma call_of_callPrimitive {config : Config} {function : Primitive}
    (hkind : callee.kind = .host (.primitive function))
    (h : TraceM.callValue config callee args state = .ok (value, after))
    (hlast : after.Extends world.last) (hargs : List.Forall₂ world.Denotes args values)
    (serial : Nat) :
    ∃ v, world.Denotes value v ∧ function.call serial values = .ok v := by
  simp only [TraceM.callValue, hkind] at h
  cases hfound : TraceM.constantArgs? args with
  | some found =>
    obtain ⟨rfl, hdata⟩ := eq_of_constantArgs? hfound hargs
    simp only [hfound, TraceM.bind_eq_ok, TraceM.ofRun_eq_ok, TraceM.pure_eq_ok, Prod.mk.injEq] at h
    obtain ⟨result, _, ⟨hresult, rfl⟩, literal, _, hliteral, rfl, rfl⟩ := h
    exact ⟨result, denotes_inherit.2 (denotes_ofKind.2 (eq_of_foldedLiteral hliteral)),
      (Primitive.call_serial hdata serial 0).trans hresult⟩
  | none =>
    simp only [hfound, TraceM.bind_eq_ok, TraceM.pure_eq_ok, Prod.mk.injEq] at h
    obtain ⟨result, _, hresult, rfl, rfl⟩ := h
    obtain ⟨v, hv, hcall⟩ := call_of_emitCall hresult hlast hargs
    exact ⟨v, denotes_inherit.2 hv, hcall serial⟩

/-- A method that is read from an array is recorded as a call on the array. -/
lemma invoke_of_callAttr {config : Config} {holder : Symbolic} {name : String}
    (hkind : callee.kind = .attr holder name)
    (h : TraceM.callValue config callee args state = .ok (value, after))
    (hlast : after.Extends world.last) (hc : world.Denotes callee c)
    (hargs : List.Forall₂ world.Denotes args values) (serial : Nat) :
    ∃ v, world.Denotes value v ∧ c.invoke? serial values = some (.ok v) := by
  have hdenotes := hc.kind
  rw [hkind] at hdenotes
  obtain ⟨-, base, made, hbase, hattr⟩ := hdenotes
  simp only [TraceM.callValue, hkind] at h
  cases hmethod : TraceM.arrayMethod? holder name with
  | none =>
    simp only [hmethod] at h
    exact absurd h TraceM.breakOff_ne_ok
  | some function =>
    simp only [hmethod, TraceM.bind_eq_ok, TraceM.pure_eq_ok, Prod.mk.injEq] at h
    obtain ⟨result, _, hresult, rfl, rfl⟩ := h
    obtain rfl := eq_of_arrayMethod? hmethod hbase hattr
    obtain ⟨v, hv, hcall⟩ := call_of_emitMethod hresult hlast hbase hargs
    exact ⟨v, denotes_inherit.2 hv, congrArg some (hcall serial)⟩

/-- A call that a trace goes through succeeds in the run, unless a query is asked for a slice. -/
lemma callValue_meets {config : Config}
    (h : TraceM.callValue config callee args state = .ok (value, after))
    (hlast : after.Extends world.last) (hc : world.Denotes callee c)
    (hargs : List.Forall₂ world.Denotes args values)
    (hserves : world.objects → ∀ use, LayerUse.ofCall? callee = some use → world.Serves use)
    (serial : Nat) :
    ∃ run, c.invoke? serial values = some run ∧ Meets (callee.queriedBySlice args = true)
      (fun v => world.Denotes value v ∨ (world.objects ∧ value.Misfits v)) run := by
  have hkind := hc.kind
  cases hcallee : callee.kind with
  | deferred payload =>
    simp only [TraceM.callValue, hcallee, TraceM.ofAnswer_eq_ok] at h
    obtain ⟨run, hrun, hmeets⟩ := callDeferred_meets h.1 hc hargs serial
    exact ⟨run, hrun, hmeets.imp id fun v hv => Or.inl hv⟩
  | builtin function =>
    simp only [TraceM.callValue, hcallee] at h
    rw [hcallee] at hkind
    subst hkind
    obtain ⟨v, hv, hcall⟩ := call_of_callBuiltin h hlast hargs
    exact exists_invoke serial rfl hcall (Or.inl hv)
  | host item =>
    rw [hcallee] at hkind
    subst hkind
    cases item with
    | primitive function =>
      obtain ⟨v, hv, hcall⟩ := call_of_callPrimitive hcallee h hlast hargs serial
      exact exists_invoke serial rfl hcall (Or.inl hv)
    | elementType _ | device _ =>
      simp only [TraceM.callValue, hcallee] at h
      exact absurd h TraceM.breakOff_ne_ok
  | layer key node =>
    simp only [TraceM.callValue, hcallee] at h
    rw [hcallee] at hkind
    obtain ⟨hobjects, rfl⟩ := hkind
    have huse : LayerUse.ofCall? callee = some ⟨key, node, none⟩ := by
      simp [LayerUse.ofCall?, hcallee]
    obtain ⟨v, hv, hforward⟩ := forward_of_callLayer h hlast hargs (hserves hobjects _ huse).layer
    exact exists_invoke serial rfl (hforward serial)
      (hv.imp id fun hmisfits => ⟨hobjects, hmisfits⟩)
  | attr holder name =>
    obtain ⟨v, hv, hinvoke⟩ := invoke_of_callAttr hcallee h hlast hc hargs serial
    exact exists_invoke serial hinvoke rfl (Or.inl hv)
  | unsupported held type =>
    simp only [TraceM.callValue, hcallee] at h
    cases held with
    | _ => exact absurd h TraceM.breakOff_ne_ok
  | _ =>
    simp only [TraceM.callValue, hcallee] at h
    exact absurd h TraceM.breakOff_ne_ok

end World

end GuardedTrace
