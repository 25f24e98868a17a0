/-
What a successful part of a trace has done.

Each lemma reads a part of a trace backwards: from its success to the state that it started from and
the state that it left.  No lemma about traces has to look into the definition of a part that is
inverted here.
-/
import GuardedTrace.Proofs.Results
import GuardedTrace.Trace.Run

namespace GuardedTrace.TraceM

variable {α β : Type} {x : TraceM α} {f : α → TraceM β} {state after : Tracer}

lemma bind_eq_ok {state : Tracer} {result : β × Tracer} :
    (x >>= f) state = .ok result ↔
      ∃ value middle, x state = .ok (value, middle) ∧ f value middle = .ok result := by
  show Except.bind (x state) (fun p => f p.1 p.2) = _ ↔ _
  cases h : x state with
  | error cause => simp [Except.bind]
  | ok p =>
    obtain ⟨value, middle⟩ := p
    constructor
    · intro hf
      exact ⟨value, middle, rfl, hf⟩
    · rintro ⟨_, _, heq, hf⟩
      cases heq
      exact hf

lemma pure_eq_ok {state : Tracer} {value : α} {result : α × Tracer} :
    (pure value : TraceM α) state = .ok result ↔ result = (value, state) :=
  ⟨fun h => (Except.ok.inj h).symm, fun h => h ▸ rfl⟩

lemma get_bind {next : Tracer → TraceM β} (state : Tracer) :
    (get >>= next) state = next state state := rfl

/-! ### Answers -/

lemma breakOff_ne_ok {cause : BreakCause} {result : α × Tracer} :
    (breakOff cause : TraceM α) state ≠ .ok result := nofun

lemma ofOption_eq_ok {cause : BreakCause} {option : Option α} {state after : Tracer} {value : α} :
    ofOption cause option state = .ok (value, after) ↔ option = some value ∧ after = state := by
  cases option with
  | none => exact ⟨nofun, fun h => nomatch h.1⟩
  | some found =>
    constructor
    · intro h
      cases h
      exact ⟨rfl, rfl⟩
    · rintro ⟨hvalue, rfl⟩
      cases hvalue
      rfl

lemma ofRun_eq_ok {run : Run α} {state after : Tracer} {value : α} :
    ofRun run state = .ok (value, after) ↔ run = .ok value ∧ after = state := by
  cases run with
  | error error => exact ⟨nofun, fun h => nomatch h.1⟩
  | ok found =>
    constructor
    · intro h
      cases h
      exact ⟨rfl, rfl⟩
    · rintro ⟨hvalue, rfl⟩
      cases hvalue
      rfl

lemma ofAnswer_eq_ok {answer : Answer α} {value : α} :
    ofAnswer answer state = .ok (value, after) ↔ answer = .ok value ∧ after = state := by
  cases answer with
  | error error => exact ⟨nofun, fun h => nomatch h.1⟩
  | ok found =>
    constructor
    · intro h
      cases h
      exact ⟨rfl, rfl⟩
    · rintro ⟨hvalue, rfl⟩
      cases hvalue
      rfl

/-! ### The stack -/

lemma push_eq_ok {value : Symbolic} {result : Unit × Tracer} :
    push value state = .ok result ↔ result = ((), { state with
      guards := GuardSet.union state.guards value.guards
      stack := value :: state.stack }) :=
  ⟨fun h => (Except.ok.inj h).symm, fun h => h ▸ rfl⟩

lemma pop_eq_ok {value : Symbolic} :
    pop state = .ok (value, after) ↔
      ∃ rest, state.stack = value :: rest ∧ after = { state with stack := rest } := by
  unfold pop
  cases state.stack with
  | nil => simp
  | cons top rest =>
    simp only [Except.ok.injEq, Prod.mk.injEq, List.cons.injEq]
    constructor
    · rintro ⟨rfl, rfl⟩
      exact ⟨rest, ⟨rfl, rfl⟩, rfl⟩
    · rintro ⟨_, ⟨rfl, rfl⟩, rfl⟩
      exact ⟨rfl, rfl⟩

lemma popTwo_eq_ok {second top : Symbolic} :
    popTwo state = .ok ((second, top), after) ↔
      ∃ rest, state.stack = top :: second :: rest ∧ after = { state with stack := rest } := by
  unfold popTwo
  rcases state.stack with _ | ⟨first, _ | ⟨other, rest⟩⟩
  · simp
  · simp
  · simp only [Except.ok.injEq, Prod.mk.injEq, List.cons.injEq]
    constructor
    · rintro ⟨⟨rfl, rfl⟩, rfl⟩
      exact ⟨rest, ⟨rfl, rfl, rfl⟩, rfl⟩
    · rintro ⟨_, ⟨rfl, rfl, rfl⟩, rfl⟩
      exact ⟨⟨rfl, rfl⟩, rfl⟩

lemma popMany_eq_ok {count : Nat} {values : List Symbolic} :
    popMany count state = .ok (values, after) ↔
      ∃ rest, state.stack = values.reverse ++ rest ∧ values.length = count ∧
        after = { state with stack := rest } := by
  unfold popMany
  constructor
  · intro h
    split at h
    · next hcount =>
      obtain ⟨rfl, rfl⟩ := Prod.mk.inj (Except.ok.inj h)
      exact ⟨state.stack.drop count, by simp, by simpa using hcount, rfl⟩
    · cases h
  · rintro ⟨rest, hstack, rfl, rfl⟩
    have hlength : values.length = values.reverse.length := by simp
    rw [if_pos (by simp [hstack]), hstack, hlength, List.take_left, List.drop_left]
    simp

/-- What pushing a result leaves: the result on top, and its guards among the guards. -/
lemma pushing_eq_ok {result : TraceM Symbolic} {flow : Flow} :
    pushing result state = .ok (flow, after) ↔
      flow = .next ∧ ∃ value middle, result state = .ok (value, middle) ∧ after = { middle with
        guards := GuardSet.union middle.guards value.guards
        stack := value :: middle.stack } := by
  unfold pushing
  simp only [bind_eq_ok, push_eq_ok, pure_eq_ok, Prod.mk.injEq]
  constructor
  · rintro ⟨value, middle, hresult, _, _, ⟨-, rfl⟩, rfl, rfl⟩
    exact ⟨rfl, value, middle, hresult, rfl⟩
  · rintro ⟨rfl, value, middle, hresult, rfl⟩
    exact ⟨value, middle, hresult, (), _, ⟨trivial, rfl⟩, rfl, rfl⟩

/-! ### The graph -/

lemma record_eq_ok {operation : Operation} {operands : List Operand} {id : Nat} :
    record operation operands state = .ok (id, after) ↔
      ∃ builder, state.builder.record operation operands = (id, builder) ∧
        after = { state with builder } := by
  constructor
  · intro h
    obtain ⟨rfl, rfl⟩ := Prod.mk.inj (Except.ok.inj h)
    exact ⟨_, rfl, rfl⟩
  · rintro ⟨builder, hrecord, rfl⟩
    simp only [record, hrecord]

lemma operand_eq_ok {value : Symbolic} {arg : Operand} :
    operand value state = .ok (arg, after) ↔
      ∃ builder, value.operand state.builder = (.ok arg, builder) ∧
        after = { state with builder } := by
  unfold operand
  rcases value.operand state.builder with ⟨_ | found, builder⟩
  · simp
  · simp only [Except.ok.injEq, Prod.mk.injEq]
    constructor
    · rintro ⟨rfl, rfl⟩
      exact ⟨builder, ⟨rfl, rfl⟩, rfl⟩
    · rintro ⟨_, ⟨rfl, rfl⟩, rfl⟩
      exact ⟨rfl, rfl⟩

lemma operands_eq_ok {values : List Symbolic} {args : List Operand} :
    operands values state = .ok (args, after) ↔
      ∃ builder, Symbolic.operands values state.builder = (.ok args, builder) ∧
        after = { state with builder } := by
  unfold operands
  rcases Symbolic.operands values state.builder with ⟨_ | found, builder⟩
  · simp
  · simp only [Except.ok.injEq, Prod.mk.injEq]
    constructor
    · rintro ⟨rfl, rfl⟩
      exact ⟨builder, ⟨rfl, rfl⟩, rfl⟩
    · rintro ⟨_, ⟨rfl, rfl⟩, rfl⟩
      exact ⟨rfl, rfl⟩

/-- A layer is registered under its key. -/
lemma register_eq_ok {key : String} {layer : Layer} {result : Unit × Tracer} :
    register key layer state = .ok result ↔
      result = ((), { state with layers := state.layers.register key layer }) :=
  ⟨fun h => (Except.ok.inj h).symm, fun h => h ▸ rfl⟩

/-- The answer to a request for a placeholder: its node, and the binding among the inputs. -/
lemma placeholder_eq_ok {path : String} {scope : Scope} {state after : Tracer} {node : Nat}
    (h : placeholder path scope state = .ok (node, after)) :
    (state.builder.record (.placeholder path) []) = (node, after.builder) ∧
      after.inputs = (if (⟨path, scope⟩ : InputBinding) ∈ state.inputs then state.inputs
        else state.inputs ++ [⟨path, scope⟩]) ∧
      after.guards = state.guards ∧ after.layers = state.layers ∧ after.stack = state.stack ∧
      after.locals = state.locals ∧ after.globals = state.globals := by
  have heq : placeholder path scope state =
      .ok ((state.builder.record (.placeholder path) []).1,
        if (⟨path, scope⟩ : InputBinding) ∈ state.inputs then
          { state with builder := (state.builder.record (.placeholder path) []).2 }
        else { state with
          builder := (state.builder.record (.placeholder path) []).2
          inputs := state.inputs ++ [⟨path, scope⟩] }) := rfl
  rw [heq] at h
  obtain ⟨rfl, rfl⟩ := Prod.mk.inj (Except.ok.inj h)
  split <;> exact ⟨rfl, rfl, rfl, rfl, rfl, rfl, rfl⟩

/-! ### Names -/

/-- A local name is known, or it is wrapped now and then known. -/
lemma loadLocal_eq_ok {context : TraceContext} {name : String} {state after : Tracer}
    {value : Symbolic} : loadLocal context name state = .ok (value, after) ↔
      (state.locals.lookup name = some value ∧ after = state) ∨
        (state.locals.lookup name = none ∧ ∃ live middle,
          context.frame.lookup? .locals name = some live ∧
          wrap context.config .locals live name state = .ok (value, middle) ∧
          after = { middle with locals := middle.locals.put name value }) := by
  rw [loadLocal, get_bind]
  cases state.locals.lookup name with
  | some found =>
    simp only [pure_eq_ok, Prod.mk.injEq, Option.some.injEq, reduceCtorEq, false_and, or_false]
    exact ⟨fun h => ⟨h.1.symm, h.2⟩, fun h => ⟨h.1.symm, h.2⟩⟩
  | none =>
    simp only [bind_eq_ok, ofOption_eq_ok, reduceCtorEq, false_and, true_and, false_or]
    constructor
    · rintro ⟨live, _, ⟨hlive, rfl⟩, wrapped, middle, hwrap, _, _, hstore, hpure⟩
      cases pure_eq_ok.1 hpure
      cases hstore
      exact ⟨live, middle, hlive, hwrap, rfl⟩
    · rintro ⟨live, middle, hlive, hwrap, rfl⟩
      exact ⟨live, state, ⟨hlive, rfl⟩, value, middle, hwrap, (), _, rfl, rfl⟩

/-- A global name is known, or it is wrapped now and then known. -/
lemma loadGlobal_eq_ok {context : TraceContext} {name : String} {state after : Tracer}
    {value : Symbolic} : loadGlobal context name state = .ok (value, after) ↔
      (state.globals.lookup name = some value ∧ after = state) ∨
        (state.globals.lookup name = none ∧ ∃ middle,
          wrapGlobal context name state = .ok (value, middle) ∧
          after = { middle with globals := middle.globals.put name value }) := by
  rw [loadGlobal, get_bind]
  cases state.globals.lookup name with
  | some found =>
    simp only [pure_eq_ok, Prod.mk.injEq, Option.some.injEq, reduceCtorEq, false_and, or_false]
    exact ⟨fun h => ⟨h.1.symm, h.2⟩, fun h => ⟨h.1.symm, h.2⟩⟩
  | none =>
    simp only [bind_eq_ok, reduceCtorEq, false_and, true_and, false_or]
    constructor
    · rintro ⟨wrapped, middle, hwrap, _, _, hstore, hpure⟩
      cases pure_eq_ok.1 hpure
      cases hstore
      exact ⟨middle, hwrap, rfl⟩
    · rintro ⟨middle, hwrap, rfl⟩
      exact ⟨value, middle, hwrap, (), _, rfl, rfl⟩

/-- A global name that is bound, or one of a builtin. -/
lemma wrapGlobal_eq_ok {context : TraceContext} {name : String} {state after : Tracer}
    {value : Symbolic} : wrapGlobal context name state = .ok (value, after) ↔
      (∃ live, context.frame.lookup? .globals name = some live ∧
        wrap context.config .globals live name state = .ok (value, after)) ∨
      (context.frame.lookup? .globals name = none ∧
        ∃ function, Builtin.ofName? name = some function ∧
        value = wrapBuiltin name function ∧ after = state) := by
  unfold wrapGlobal
  cases context.frame.lookup? .globals name with
  | some live => simp
  | none =>
    simp only [bind_eq_ok, ofOption_eq_ok, pure_eq_ok, Prod.mk.injEq, reduceCtorEq, false_and,
      exists_false, true_and, false_or]
    constructor
    · rintro ⟨function, _, ⟨hfunction, rfl⟩, rfl, rfl⟩
      exact ⟨function, hfunction, rfl, rfl⟩
    · rintro ⟨function, hfunction, rfl, rfl⟩
      exact ⟨function, _, ⟨hfunction, rfl⟩, rfl, rfl⟩

/-! ### Nodes and layers -/

/-- The call of a primitive is recorded behind its operands. -/
lemma emitCall_eq_ok {function : Primitive} {args : List Symbolic} {value : Symbolic} :
    emitCall function args state = .ok (value, after) ↔
      ∃ operands builder id builder', Symbolic.operands args state.builder =
        (.ok operands, builder) ∧
        builder.record (.callPrimitive function) operands = (id, builder') ∧
        value = Symbolic.derived (nodeResult id function args) args ∧
        after = { state with builder := builder' } := by
  unfold emitCall
  simp only [bind_eq_ok, operands_eq_ok, record_eq_ok, pure_eq_ok, Prod.mk.injEq]
  constructor
  · rintro ⟨operands, _, ⟨builder, hoperands, rfl⟩, id, _, ⟨builder', hrecord, rfl⟩, rfl, rfl⟩
    exact ⟨operands, builder, id, builder', hoperands, hrecord, rfl, rfl⟩
  · rintro ⟨operands, builder, id, builder', hoperands, hrecord, rfl, rfl⟩
    exact ⟨operands, _, ⟨builder, hoperands, rfl⟩, id, _, ⟨builder', hrecord, rfl⟩, rfl, rfl⟩

/-- The call of a layer is recorded behind its operands, and the layer is registered. -/
lemma callLayer_eq_ok {config : Config} {key : String} {node : Layer} {callee value : Symbolic}
    {args : List Symbolic} (h : callLayer config key node callee args state = .ok (value, after)) :
    node.kind ≠ .list ∧ node.kind ≠ .container ∧
      ∃ operands builder id builder', Symbolic.operands args state.builder =
        (.ok operands, builder) ∧
        builder.record (.callLayer key) operands = (id, builder') ∧
        value = Symbolic.derived
          (.array (node.outputFacts id config.dynamicShapes (inputFacts? args))) (callee :: args) ∧
        after = { state with builder := builder', layers := state.layers.register key node } := by
  unfold callLayer at h
  cases hkind : node.kind with
  | list | container =>
    simp only [hkind] at h
    exact absurd h breakOff_ne_ok
  | _ =>
    simp only [hkind, bind_eq_ok, operands_eq_ok, register_eq_ok, record_eq_ok, pure_eq_ok,
      Prod.mk.injEq] at h
    obtain ⟨operands, _, ⟨builder, hoperands, rfl⟩, _, _, ⟨-, rfl⟩, id, _, ⟨builder', hrecord, rfl⟩,
      rfl, rfl⟩ := h
    exact ⟨nofun, nofun, operands, builder, id, builder', hoperands, hrecord, rfl, rfl⟩

/-- What is known of a member of a layer that is no array. -/
def memberKind (holder : Symbolic) (key name : String) : Value → Kind
  | .layer child => .layer (key ++ "." ++ name) child
  | .routine function => .routine function
  | .primitive function => .host (.primitive function)
  | other => (other.literal?.map Kind.constant).getD (.attr holder name)

/-- An array among the members of a layer is recorded, and the layer is registered; nothing else is
recorded for a member. -/
lemma layerAttr_eq_ok {config : Config} {holder value : Symbolic} {key name : String} {node : Layer}
    (h : layerAttr config holder key node name state = .ok (value, after)) :
    (∃ numbers id builder, node.member? name = some (.array numbers) ∧
        state.builder.record (.parameter (key ++ "." ++ name)) [] = (id, builder) ∧
        value = Symbolic.derived (.array (.ofArray id numbers config.dynamicShapes)) [holder] ∧
        after = { state with builder, layers := state.layers.register key node }) ∨
      ∃ member, node.member? name = some member ∧ (∀ numbers, member ≠ .array numbers) ∧
        value = Symbolic.derived (memberKind holder key name member) [holder] ∧ after = state := by
  simp only [layerAttr, bind_eq_ok, ofOption_eq_ok] at h
  obtain ⟨member, _, ⟨hmember, rfl⟩, h⟩ := h
  cases member with
  | array numbers =>
    simp only [bind_eq_ok, register_eq_ok, record_eq_ok, pure_eq_ok, Prod.mk.injEq] at h
    obtain ⟨_, _, ⟨-, rfl⟩, id, _, ⟨builder, hrecord, rfl⟩, rfl, rfl⟩ := h
    exact Or.inl ⟨numbers, id, builder, hmember, hrecord, rfl, rfl⟩
  | layer child | routine function | primitive function =>
    obtain ⟨rfl, rfl⟩ := Prod.mk.inj (pure_eq_ok.1 h)
    exact Or.inr ⟨_, hmember, nofun, rfl, rfl⟩
  | _ =>
    refine Or.inr ⟨_, hmember, nofun, ?_⟩
    simp only [memberKind] at h ⊢
    generalize Value.literal? _ = literal at h ⊢
    cases literal with
    | none => exact Prod.mk.inj (pure_eq_ok.1 h)
    | some literal => exact Prod.mk.inj (pure_eq_ok.1 h)

end GuardedTrace.TraceM
