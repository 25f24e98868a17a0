/-
What all values of a trace have.

A state of a trace has an inherited property *throughout* when all values on its stack and in its
tables have it, and the guards that the trace has collected are as the property says.  Every
instruction keeps this, provided that what the trace wraps from its frame has the property.
-/
import GuardedTrace.Proofs.InheritedProperties

namespace GuardedTrace

/-- All values of the state have a property, and the collected guards have what it says of
guards. -/
structure Tracer.Throughout (G : GuardSet → Prop) (V : Symbolic → Prop)
    (state : Tracer) : Prop where
  guards : G state.guards
  stack : ∀ value ∈ state.stack, value.Throughout V
  locals : ∀ name value, state.locals.lookup name = some value → value.Throughout V
  globals : ∀ name value, state.globals.lookup name = some value → value.Throughout V

lemma Tracer.Throughout.of_pc {G : GuardSet → Prop} {V : Symbolic → Prop} {state : Tracer}
    (h : state.Throughout G V) (pc : Nat) : Tracer.Throughout G V { state with pc } :=
  ⟨h.guards, h.stack, h.locals, h.globals⟩

namespace TraceM

variable {α β : Type} {x : TraceM α} {f : α → TraceM β} {P Q : α → Prop} {R : β → Prop}

/-! ### Results -/

/-- Every result of a part of a trace has a property. -/
def Returns (P : α → Prop) (x : TraceM α) : Prop :=
  ∀ state value after, x state = .ok (value, after) → P value

namespace Returns

lemma any (x : TraceM α) : Returns (fun _ => True) x := fun _ _ _ _ => trivial

lemma pure {value : α} (h : P value) : Returns P (pure value : TraceM α) := by
  intro state result after hx
  cases pure_eq_ok.1 hx
  exact h

lemma bind (hx : Returns P x) (hf : ∀ value, P value → Returns R (f value)) :
    Returns R (x >>= f) := by
  intro state result after h
  obtain ⟨value, middle, hmiddle, hlast⟩ := bind_eq_ok.1 h
  exact hf value (hx _ _ _ hmiddle) _ _ _ hlast

lemma bind_any (hf : ∀ value, Returns R (f value)) : Returns R (x >>= f) :=
  bind (any x) fun value _ => hf value

lemma breakOff {cause : BreakCause} : Returns P (breakOff cause : TraceM α) := nofun

lemma ofAnswer {answer : Answer α} (h : ∀ value, answer = .ok value → P value) :
    Returns P (ofAnswer answer) := by
  intro state value after hx
  exact h value (ofAnswer_eq_ok.1 hx).1

lemma ite {c : Prop} [Decidable c] {y : TraceM α} (hx : Returns P x) (hy : Returns P y) :
    Returns P (if c then x else y) := by
  split
  · exact hx
  · exact hy

end Returns

section

variable {G : GuardSet → Prop} {V : Symbolic → Prop} {value key callee : Symbolic}
  {args : List Symbolic}

lemma throughoutKind_of_concatenated? {function : Primitive} {kind : Kind}
    (hvalue : value.Throughout V)
    (hkey : key.Throughout V) (h : concatenated? function value.kind key.kind = some kind) :
    Symbolic.ThroughoutKind V kind := by
  have hhead := hvalue.parts
  have htail := hkey.parts
  have happend {head tail : List Symbolic} (hhead : Symbolic.ThroughoutItems V head)
      (htail : Symbolic.ThroughoutItems V tail) : Symbolic.ThroughoutItems V (head ++ tail) := by
    rw [Symbolic.throughoutItems_iff] at hhead htail ⊢
    exact List.forall_mem_append.2 ⟨hhead, htail⟩
  unfold concatenated? at h
  split at h
  · next heq heq' =>
    cases h
    rw [heq] at hhead
    rw [heq'] at htail
    exact happend hhead htail
  · next heq heq' =>
    cases h
    rw [heq] at hhead
    rw [heq'] at htail
    exact happend hhead htail
  · cases h

variable (hV : Symbolic.Inherited G V)

include hV

lemma Returns.unknown (h : ∀ arg ∈ args, arg.Throughout V) :
    Returns (Symbolic.Throughout V) (unknown args) := by
  intro state value after hx
  cases hx
  exact hV.derived trivial h

lemma Returns.emitCall {function : Primitive} (h : ∀ arg ∈ args, arg.Throughout V) :
    Returns (Symbolic.Throughout V) (emitCall function args) :=
  bind_any fun _ => bind_any fun _ => pure (hV.derived (Symbolic.throughoutKind_nodeResult _ _ _) h)

lemma Returns.emitMethod {function : Primitive} (hvalue : value.Throughout V)
    (h : ∀ arg ∈ args, arg.Throughout V) :
    Returns (Symbolic.Throughout V) (emitMethod function value args) := by
  refine bind_any fun operand => ?_
  split
  · exact bind_any fun _ => bind_any fun _ => pure (hV.derived
      (Symbolic.throughoutKind_nodeResult _ _ _) (List.forall_mem_cons.2 ⟨hvalue, h⟩))
  · exact breakOff

lemma Returns.binaryOp {function : Primitive} (hvalue : value.Throughout V)
    (hkey : key.Throughout V) :
    Returns (Symbolic.Throughout V) (binaryOp function value key) := by
  have hboth : ∀ arg ∈ [value, key], arg.Throughout V := by simpa using ⟨hvalue, hkey⟩
  unfold TraceM.binaryOp
  split
  · exact bind_any fun _ => bind_any fun _ => pure (hV.derived trivial hboth)
  · refine ite (emitCall hV hboth) ?_
    split
    · next kind hkind =>
      exact pure (hV.derived (throughoutKind_of_concatenated? hvalue hkey hkind) hboth)
    · exact unknown hV hboth

lemma Returns.negate (hvalue : value.Throughout V) :
    Returns (Symbolic.Throughout V) (negate value) := by
  have hone : ∀ arg ∈ [value], arg.Throughout V := by simpa using hvalue
  unfold TraceM.negate
  split
  · exact bind_any fun _ => bind_any fun _ => pure (hV.derived trivial hone)
  · exact ite (emitCall hV hone) (unknown hV hone)

lemma Returns.layerAttr {config : Config} {path name : String} {layer : Layer}
    (hvalue : value.Throughout V) :
    Returns (Symbolic.Throughout V) (layerAttr config value path layer name) := by
  refine bind_any fun member => ?_
  split
  · exact pure (hV.derived_one trivial hvalue)
  · exact bind_any fun _ => bind_any fun _ => pure (hV.derived_one trivial hvalue)
  · exact pure (hV.derived_one trivial hvalue)
  · exact pure (hV.derived_one trivial hvalue)
  · split
    · exact pure (hV.derived_one trivial hvalue)
    · exact pure (hV.lazyAttr hvalue name)

/-- An attribute of a value that stands at a place is wrapped from the place of the attribute. -/
lemma Returns.getAttr {context : TraceContext} {At : Scope → String → Value → Prop} {name : String}
    (hB : Binds context V At) (hname : name ∈ context.code.names) (hvalue : value.Throughout V) :
    Returns (Symbolic.Throughout V) (getAttr context.config value name) := by
  unfold TraceM.getAttr
  split
  · exact layerAttr hV hvalue
  · next held type hkind =>
    split
    · next base scope hplace =>
      intro state result after h
      simp only [bind_eq_ok, ofRun_eq_ok, pure_eq_ok, Prod.mk.injEq] at h
      obtain ⟨live, _, ⟨hlive, rfl⟩, wrapped, _, hwrapped, rfl, -⟩ := h
      have hat : At scope (base ++ "." ++ name) live := hB.attr hvalue.self hkind hplace hname hlive
      exact hV.addGuards (hB.wrap hV _ hwrapped hat) (hV.guards_of hvalue)
    · exact pure (hV.constOrLazyAttr hvalue name)
  · refine pure ?_
    cases hattr : value.constAttr? name with
    | none => exact hV.lazyAttr hvalue name
    | some attr => exact hV.of_constAttr? hvalue hattr
  · exact pure (hV.constOrLazyAttr hvalue name)
  · exact pure (hV.lazyAttr hvalue name)
  · exact bind_any fun member => pure (hV.wrapMember hvalue member)
  · exact unknown hV (by simpa using hvalue)

lemma Returns.subscript (hvalue : value.Throughout V) (hkey : key.Throughout V) :
    Returns (Symbolic.Throughout V) (subscript value key) := by
  have hboth : ∀ arg ∈ [value, key], arg.Throughout V := by simpa using ⟨hvalue, hkey⟩
  unfold TraceM.subscript
  refine ite (ite (emitCall hV hboth) (ofAnswer fun _ => hV.of_getItem hvalue hkey)) ?_
  split
  · exact ite (emitCall hV hboth) breakOff
  · exact breakOff

omit hV in
lemma Returns.dictEntries : ∀ {pairs : List (Literal × Symbolic)},
    (∀ pair ∈ pairs, pair.2.Throughout V) →
    Returns (fun entries => ∀ entry ∈ entries, entry.2.Throughout V) (dictEntries pairs)
  | [], _ => pure (by simp)
  | (literal, value) :: rest, h => by
    obtain ⟨hvalue, hrest⟩ := List.forall_mem_cons.1 h
    exact bind_any fun _ => bind (dictEntries hrest) fun _ hothers =>
      pure (List.forall_mem_cons.2 ⟨hvalue, hothers⟩)

lemma Returns.buildDict (hkeys : key.Throughout V) (hargs : ∀ arg ∈ args, arg.Throughout V) :
    Returns (Symbolic.Throughout V) (buildDict key args) := by
  refine bind_any fun literal => ?_
  split
  · refine ite (bind (dictEntries fun pair hpair => hargs _ (List.of_mem_zip hpair).2)
      fun entries hentries => ?_)
      breakOff
    refine pure (hV.derived ?_ (List.forall_mem_cons.2 ⟨hkeys, hargs⟩))
    exact Symbolic.throughoutEntries_iff.2 fun entry hentry =>
      hentries entry (Table.mem_of_mem_ofListOrdered hentry)
  · exact breakOff

lemma Returns.arrayRows (hvalue : value.Throughout V) : ∀ rows : List Nat,
    Returns (fun items => ∀ item ∈ items, item.Throughout V) (arrayRows value rows)
  | [] => pure (by simp)
  | row :: rest => by
    refine bind_any fun index => bind (emitCall hV ?_) fun item hitem =>
      bind (arrayRows hvalue rest) fun others hothers =>
        pure (List.forall_mem_cons.2 ⟨hitem, hothers⟩)
    simpa using ⟨hvalue, hV.constant _⟩

lemma Returns.unpackItems {expected : Nat} (hvalue : value.Throughout V) :
    Returns (fun items => ∀ item ∈ items, item.Throughout V) (unpackItems value expected) := by
  unfold TraceM.unpackItems
  split
  · exact bind_any fun rows => ite (arrayRows hV hvalue _) breakOff
  · exact bind (ofAnswer fun _ => hV.of_items hvalue) fun items hitems => ite (pure hitems) breakOff

lemma throughout_inheritAll {result : Symbolic} (h : result.Throughout V)
    (hcallee : callee.Throughout V)
    (hargs : ∀ arg ∈ args, arg.Throughout V) :
    (result.inherit (Symbolic.propagate (callee :: args))).Throughout V :=
  hV.inherit h (hV.propagate (List.forall_mem_cons.2 ⟨hcallee, hargs⟩))

lemma Returns.foldBuiltin {function : Builtin} (hcallee : callee.Throughout V)
    (hargs : ∀ arg ∈ args, arg.Throughout V) :
    Returns (Symbolic.Throughout V) (foldBuiltin function callee args) := by
  unfold TraceM.foldBuiltin
  dsimp only
  split
  · exact bind_any fun _ => bind_any fun _ =>
      pure (throughout_inheritAll hV (hV.ofKind trivial) hcallee hargs)
  · split
    · exact ite (bind (emitCall hV hargs) fun result hresult =>
        pure (throughout_inheritAll hV hresult hcallee hargs))
        breakOff
    · exact breakOff

lemma Returns.callLength (hcallee : callee.Throughout V) (hvalue : value.Throughout V) :
    Returns (Symbolic.Throughout V) (callLength callee value) := by
  have hone : ∀ arg ∈ [value], arg.Throughout V := by simpa using hvalue
  unfold TraceM.callLength
  dsimp only
  split
  · exact bind_any fun _ => pure (throughout_inheritAll hV (hV.ofKind trivial) hcallee hone)
  · refine bind (emitMethod hV hvalue ?_) fun result hresult =>
      pure (throughout_inheritAll hV hresult hcallee hone)
    simpa using hV.constant _
  · exact foldBuiltin hV hcallee hone

lemma Returns.callBuiltin {function : Builtin} (hcallee : callee.Throughout V)
    (hargs : ∀ arg ∈ args, arg.Throughout V) :
    Returns (Symbolic.Throughout V) (callBuiltin function callee args) := by
  unfold TraceM.callBuiltin
  split
  · exact callLength hV hcallee (hargs _ (List.mem_cons_self ..))
  · exact foldBuiltin hV hcallee hargs

lemma Returns.callLayer {config : Config} {path : String} {layer : Layer}
    (hcallee : callee.Throughout V)
    (hargs : ∀ arg ∈ args, arg.Throughout V) :
    Returns (Symbolic.Throughout V) (callLayer config path layer callee args) := by
  unfold TraceM.callLayer
  split
  · exact breakOff
  · exact breakOff
  · exact bind_any fun _ => bind_any fun _ => bind_any fun _ =>
      pure (hV.derived trivial (List.forall_mem_cons.2 ⟨hcallee, hargs⟩))

lemma Returns.callValue {config : Config} (hcallee : callee.Throughout V)
    (hargs : ∀ arg ∈ args, arg.Throughout V) :
    Returns (Symbolic.Throughout V) (callValue config callee args) := by
  have hparts := hcallee.parts
  unfold TraceM.callValue
  dsimp only
  split
  · exact ofAnswer fun _ => hV.of_callDeferred hcallee hargs
  · exact callBuiltin hV hcallee hargs
  · split
    · exact bind_any fun _ => bind_any fun _ =>
        pure (throughout_inheritAll hV (hV.ofKind trivial) hcallee hargs)
    · exact bind (emitCall hV hargs) fun result hresult =>
        pure (throughout_inheritAll hV hresult hcallee hargs)
  · exact callLayer hV hcallee hargs
  · next holder name hkind =>
    rw [hkind] at hparts
    split
    · exact bind (emitMethod hV hparts hargs) fun result hresult =>
        pure (throughout_inheritAll hV hresult hcallee hargs)
    · exact breakOff
  all_goals exact breakOff

end

/-! ### States -/

/-- A part of a trace keeps what its states have throughout, and all its results have a property. -/
def Keeps (G : GuardSet → Prop) (V : Symbolic → Prop) (P : α → Prop) (x : TraceM α) : Prop :=
  ∀ state value after, state.Throughout G V → x state = .ok (value, after) →
    after.Throughout G V ∧ P value

namespace Keeps

variable {G : GuardSet → Prop} {V : Symbolic → Prop}

/-- What only records nodes and layers keeps all values and guards. -/
lemma of_registers (h : Registers x) (hx : Returns P x) : Keeps G V P x := by
  intro state value after hstate heq
  have hrecords := h state value after heq
  refine ⟨⟨?_, ?_, ?_, ?_⟩, hx state value after heq⟩
  · rw [hrecords.guards_eq]
    exact hstate.guards
  · rw [hrecords.stack]
    exact hstate.stack
  · rw [hrecords.locals]
    exact hstate.locals
  · rw [hrecords.globals]
    exact hstate.globals

lemma of_computes (h : Computes x) (hx : Returns P x) : Keeps G V P x := of_registers h.registers hx

lemma pure {value : α} (h : P value) : Keeps G V P (pure value : TraceM α) :=
  of_computes (.pure value) (.pure h)

lemma breakOff {cause : BreakCause} : Keeps G V P (breakOff cause : TraceM α) :=
  of_computes (.breakOff cause) .breakOff

lemma bind (hx : Keeps G V P x) (hf : ∀ value, P value → Keeps G V R (f value)) :
    Keeps G V R (x >>= f) := by
  intro state result after hstate h
  obtain ⟨value, middle, hmiddle, hlast⟩ := bind_eq_ok.1 h
  obtain ⟨hsound, hvalue⟩ := hx _ _ _ hstate hmiddle
  exact hf value hvalue _ _ _ hsound hlast

lemma get : Keeps G V (Tracer.Throughout G V) (get : TraceM Tracer) := by
  intro state value after hstate h
  cases h
  exact ⟨hstate, hstate⟩

lemma ofOption {cause : BreakCause} {option : Option α}
    (h : ∀ value, option = some value → P value) :
    Keeps G V P (ofOption cause option) :=
  of_computes (.ofOption cause option) fun _ _ _ hx => h _ (ofOption_eq_ok.1 hx).1

lemma push (hV : Symbolic.Inherited G V) {value : Symbolic} (h : value.Throughout V) :
    Keeps G V (fun _ => True) (push value) := by
  intro state result after hstate heq
  cases heq
  have hguards : G (GuardSet.union state.guards value.guards) :=
    hV.union hstate.guards (hV.guards_of h)
  exact ⟨⟨hguards, List.forall_mem_cons.2 ⟨h, hstate.stack⟩, hstate.locals,
    hstate.globals⟩, trivial⟩

/-- What is popped was on the stack. -/
lemma of_pops {rest : List Symbolic} {state : Tracer} (hstate : state.Throughout G V)
    (hrest : ∀ value ∈ rest, value ∈ state.stack) :
    Tracer.Throughout G V { state with stack := rest } :=
  ⟨hstate.guards, fun value hvalue => hstate.stack value (hrest value hvalue),
    hstate.locals, hstate.globals⟩

lemma pop : Keeps G V (Symbolic.Throughout V) pop := by
  intro state value after hstate heq
  obtain ⟨rest, hstack, rfl⟩ := pop_eq_ok.1 heq
  exact ⟨of_pops hstate (by simp +contextual [hstack]), hstate.stack value (by simp [hstack])⟩

lemma popTwo : Keeps G V (fun pair => pair.1.Throughout V ∧ pair.2.Throughout V) popTwo := by
  rintro state ⟨second, top⟩ after hstate heq
  obtain ⟨rest, hstack, rfl⟩ := popTwo_eq_ok.1 heq
  exact ⟨of_pops hstate (by simp +contextual [hstack]), hstate.stack second (by simp [hstack]),
    hstate.stack top (by simp [hstack])⟩

lemma popMany (count : Nat) : Keeps G V (fun values => ∀ value ∈ values, value.Throughout V)
    (popMany count) := by
  intro state values after hstate heq
  obtain ⟨rest, hstack, -, rfl⟩ := popMany_eq_ok.1 heq
  exact ⟨of_pops hstate (by simp +contextual [hstack]),
    fun value hvalue => hstate.stack value (by simp [hstack, hvalue])⟩

lemma pushAll (hV : Symbolic.Inherited G V) :
    ∀ {values : List Symbolic}, (∀ value ∈ values, value.Throughout V) →
    Keeps G V (fun _ => True) (pushAll values)
  | [], _ => pure trivial
  | value :: rest, h => by
    obtain ⟨hvalue, hrest⟩ := List.forall_mem_cons.1 h
    exact bind (pushAll hV hrest) fun _ _ => push hV hvalue

lemma storeLocal {name : String} {value : Symbolic} (h : value.Throughout V) :
    Keeps G V (fun _ => True)
      (modify fun state => { state with locals := state.locals.put name value } : TraceM Unit) := by
  intro state result after hstate heq
  cases heq
  exact ⟨⟨hstate.guards, hstate.stack, Table.forall_lookup_put hstate.locals h,
    hstate.globals⟩, trivial⟩

section

variable {context : TraceContext} {At : Scope → String → Value → Prop} (hV : Symbolic.Inherited G V)
  (hB : Binds context V At)

include hV hB

lemma wrap {scope : Scope} {name : String} {live : Value}
    (hname : name ∈ context.code.varNames ∨ name ∈ context.code.names)
    (hlive : context.frame.lookup? scope name = some live) :
    Keeps G V (Symbolic.Throughout V) (wrap context.config scope live name) :=
  of_computes (.wrap _ _ _ _) fun _ _ _ h => hB.wrap hV _ h (hB.root hname hlive)

lemma wrapGlobal {name : String} (hname : name ∈ context.code.names) :
    Keeps G V (Symbolic.Throughout V) (wrapGlobal context name) := by
  unfold TraceM.wrapGlobal
  cases hlookup : context.frame.lookup? .globals name with
  | some live => exact wrap hV hB (Or.inr hname) hlookup
  | none =>
    refine bind (ofOption (P := fun _ => True) fun _ _ => trivial) fun function _ => pure ?_
    exact Symbolic.throughout_iff.2 ⟨hB.builtin hname hlookup, trivial⟩

lemma loadLocal {name : String} (hname : name ∈ context.code.varNames) :
    Keeps G V (Symbolic.Throughout V) (loadLocal context name) := by
  intro state value after hstate h
  rcases loadLocal_eq_ok.1 h with ⟨hknown, rfl⟩ | ⟨-, live, middle, hlive, hwrap, rfl⟩
  · exact ⟨hstate, hstate.locals name value hknown⟩
  · obtain ⟨hmiddle, hvalue⟩ := wrap hV hB (Or.inl hname) hlive _ _ _ hstate hwrap
    exact ⟨⟨hmiddle.guards, hmiddle.stack, Table.forall_lookup_put hmiddle.locals hvalue,
      hmiddle.globals⟩, hvalue⟩

lemma loadGlobal {name : String} (hname : name ∈ context.code.names) :
    Keeps G V (Symbolic.Throughout V) (loadGlobal context name) := by
  intro state value after hstate h
  rcases loadGlobal_eq_ok.1 h with ⟨hknown, rfl⟩ | ⟨-, middle, hwrap, rfl⟩
  · exact ⟨hstate, hstate.globals name value hknown⟩
  · obtain ⟨hmiddle, hvalue⟩ := wrapGlobal hV hB hname _ _ _ hstate hwrap
    exact ⟨⟨hmiddle.guards, hmiddle.stack, hmiddle.locals,
      Table.forall_lookup_put hmiddle.globals hvalue⟩, hvalue⟩

end

/-! ### Instructions -/

section

variable (hV : Symbolic.Inherited G V)

include hV

lemma pushing {result : TraceM Symbolic} (h : Keeps G V (Symbolic.Throughout V) result) :
    Keeps G V (fun _ => True) (pushing result) :=
  bind h fun _ hvalue => bind (push hV hvalue) fun _ _ => pure trivial

lemma stackBinary (function : Primitive) : Keeps G V (fun _ => True) (stackBinary function) :=
  pushing hV (bind popTwo fun _ hpair =>
    of_computes (.binaryOp _ _ _) (.binaryOp hV hpair.1 hpair.2))

lemma buildSlice (count : UInt32) : Keeps G V (Symbolic.Throughout V) (buildSlice count) := by
  unfold TraceM.buildSlice
  split
  · refine bind (popMany 2) fun parts hparts => pure (hV.sequence ?_)
    exact List.forall_mem_append.2 ⟨hparts, by simpa using hV.constant _⟩
  · split
    · exact bind (popMany 3) fun parts hparts => pure (hV.sequence hparts)
    · exact breakOff

lemma forIter (target : UInt32) : Keeps G V (fun _ => True) (forIter target) := by
  refine bind pop fun iterator hiterator =>
    bind (of_computes (.ofAnswer _) (.ofAnswer fun _ hadvance => hadvance))
      fun result hadvance => ?_
  split
  · next item next =>
    obtain ⟨hitem, hnext⟩ := hV.of_advance hiterator hadvance
    exact bind (push hV hnext) fun _ _ => bind (push hV hitem) fun _ _ => pure trivial
  · exact pure trivial

omit hV in
lemma popJump (target : UInt32) (jumpWhen : Bool) :
    Keeps G V (fun _ => True) (popJump target jumpWhen) :=
  bind pop fun _ _ => bind (of_computes (.staticTruth _) (.any _)) fun _ _ => pure trivial

/-- Every instruction keeps what states have throughout. -/
lemma step {context : TraceContext} {At : Scope → String → Value → Prop} (hB : Binds context V At)
    (instruction : Instruction) : Keeps G V (fun _ => True) (step context instruction) := by
  have hvarName {operand : UInt32} {cause : BreakCause} :
      Keeps G V (fun name => name ∈ context.code.varNames)
        (TraceM.ofOption cause (context.code.varName? operand)) :=
    ofOption fun name hname => List.mem_of_getElem? hname
  have hname {operand : UInt32} {cause : BreakCause} :
      Keeps G V (fun name => name ∈ context.code.names)
        (TraceM.ofOption cause (context.code.name? operand)) :=
    ofOption fun name hname => List.mem_of_getElem? hname
  unfold TraceM.step
  cases instruction.opcode with
  | nop | jumpAbsolute => exact pure trivial
  | popTop => exact bind pop fun _ _ => pure trivial
  | rotTwo =>
    exact bind popTwo fun _ hpair => bind (push hV hpair.2) fun _ _ =>
      bind (push hV hpair.1) fun _ _ =>
      pure trivial
  | dupTop =>
    refine bind get fun state hstate => ?_
    split
    · next top rest hstack =>
      have htop : top.Throughout V := hstate.stack top (by simp [hstack])
      exact bind (push hV htop) fun _ _ => pure trivial
    · exact breakOff
  | loadConst =>
    exact pushing hV (bind (ofOption (P := fun _ => True) fun _ _ => trivial) fun literal _ =>
      pure (hV.constant literal))
  | loadFast => exact pushing hV (bind hvarName fun _ hname => loadLocal hV hB hname)
  | storeFast =>
    exact bind hvarName fun _ _ => bind pop fun _ hvalue =>
      bind (storeLocal hvalue) fun _ _ => pure trivial
  | loadGlobal => exact pushing hV (bind hname fun _ hname => loadGlobal hV hB hname)
  | loadAttr | loadMethod =>
    exact pushing hV (bind hname fun _ hname => bind pop fun _ hholder =>
      of_registers (.getAttr _ _ _) (.getAttr hV hB hname hholder))
  | callFunction | callMethod =>
    exact pushing hV (bind (popMany _) fun _ hargs => bind pop fun _ hcallee =>
      of_registers (.callValue _ _ _) (.callValue hV hcallee hargs))
  | binaryAdd | binarySubtract | binaryMultiply | binaryTrueDivide | binaryFloorDivide
  | binaryModulo =>
    exact stackBinary hV _
  | compareOp =>
    exact bind (ofOption (P := fun _ => True) fun _ _ => trivial) fun _ _ => stackBinary hV _
  | unaryNegative =>
    exact pushing hV (bind pop fun _ hvalue => of_computes (.negate _) (.negate hV hvalue))
  | binarySubscr =>
    exact pushing hV (bind popTwo fun _ hpair =>
      of_computes (.subscript _ _) (.subscript hV hpair.1 hpair.2))
  | buildTuple | buildList =>
    exact pushing hV (bind (popMany _) fun _ hitems => pure (hV.sequence hitems))
  | buildSlice => exact pushing hV (buildSlice hV _)
  | buildConstKeyMap =>
    exact pushing hV (bind pop fun _ hkeys => bind (popMany _) fun _ hargs =>
      of_computes (.buildDict _ _) (.buildDict hV hkeys hargs))
  | unpackSequence =>
    exact bind pop fun _ hvalue =>
      bind (of_computes (.unpackItems _ _) (.unpackItems hV hvalue)) fun _ hitems =>
      bind (pushAll hV hitems) fun _ _ => pure trivial
  | getIter =>
    exact pushing hV (bind pop fun _ hvalue =>
      of_computes (.ofAnswer _) (.ofAnswer fun _ => hV.of_iterate hvalue))
  | forIter => exact forIter hV _
  | popJumpIfFalse | popJumpIfTrue => exact popJump _ _
  | returnValue =>
    exact bind pop fun _ _ => bind (of_computes (.operand _) (.any _)) fun _ _ => pure trivial

end

end Keeps

end TraceM


/-! ### Whole traces -/

section

variable {code : Code} {frame : Frame} {config : Config} {output : TraceOutput}
  {G : GuardSet → Prop}
  {V : Symbolic → Prop} {At : Scope → String → Value → Prop}

lemma traceFrom_throughout (hV : Symbolic.Inherited G V)
    (hB : Binds ⟨code, frame, config⟩ V At) {fuel : Nat}
    {state last : Tracer} (hstate : state.Throughout G V)
    (h : traceFrom ⟨code, frame, config⟩ fuel state = (.ok output, last)) :
    last.Throughout G V := by
  induction fuel generalizing state with
  | zero => simp [traceFrom] at h
  | succ fuel ih =>
    obtain ⟨instruction, flow, after, -, hstep, hflow⟩ := traceFrom_cases h
    obtain ⟨hafter, -⟩ := TraceM.Keeps.step hV hB instruction _ _ _ hstate hstep
    rcases hflow with ⟨pc, -, h⟩ | ⟨operand, -, -, rfl⟩
    · exact ih (hafter.of_pc pc) h
    · exact hafter

/-- The guards of a completed trace are as an inherited property says. -/
lemma guards_of_trace (hV : Symbolic.Inherited G V) (hB : Binds ⟨code, frame, config⟩ V At)
    (htrace : trace code frame config = .ok output) : G output.guards := by
  obtain ⟨last, hfrom⟩ := exists_traceFrom htrace
  have hstart : Tracer.Throughout G V {} := ⟨hV.empty, nofun, nofun, nofun⟩
  have hlast := traceFrom_throughout hV hB hstart hfrom
  obtain ⟨-, operand, rfl⟩ := traceFrom_extends hfrom
  exact hlast.guards

end

end GuardedTrace
