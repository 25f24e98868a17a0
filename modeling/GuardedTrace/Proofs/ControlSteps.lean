/-
Steps that decide where a program goes on.

Instructions that iterate, branch and return: the direct run follows the trace.  With them the
direct run follows the trace over every instruction.
-/
import GuardedTrace.Proofs.ComputingSteps

namespace GuardedTrace.World

variable {world : World} {context : TraceContext} {code : Code} {instruction : Instruction}
  {state after middle : Tracer} {flow : Flow} {machine : Machine} {value : Symbolic}
  {rest args : List Symbolic} {v : Value}

/-! ### Iterating -/

lemma pushAll_eq_ok {items : List Symbolic} {result : Unit × Tracer}
    (h : TraceM.pushAll items state = .ok result) :
    result.2.stack = items ++ state.stack ∧ result.2.locals = state.locals ∧
      result.2.globals = state.globals := by
  induction items generalizing result with
  | nil =>
    obtain rfl := TraceM.pure_eq_ok.1 h
    exact ⟨rfl, rfl, rfl⟩
  | cons item rest ih =>
    simp only [TraceM.pushAll, TraceM.bind_eq_ok, TraceM.push_eq_ok] at h
    obtain ⟨_, middle, hrest, rfl⟩ := h
    obtain ⟨hstack, hlocals, hglobals⟩ := ih hrest
    exact ⟨congrArg (item :: ·) hstack, hlocals, hglobals⟩

lemma follows_unpackSequence (hop : instruction.opcode = .unpackSequence)
    (hrelated : world.Related state machine)
    (h : TraceM.step context instruction state = .ok (flow, after))
    (hlast : after.Extends world.last) :
    world.Follows context.code instruction state flow after
      (MachineM.step context.code context.frame.globals instruction) machine := by
  simp only [TraceM.step, hop, TraceM.bind_eq_ok, TraceM.pop_eq_ok, TraceM.pure_eq_ok,
    Prod.mk.injEq] at h
  obtain ⟨value, _, ⟨rest, hstack, rfl⟩, items, middle, hitems, _, last, hpushed, rfl, rfl⟩ := h
  have hrecords := TraceM.Computes.unpackItems _ _ _ _ _ hitems
  obtain ⟨hafter, hlocals, hglobals⟩ := pushAll_eq_ok hpushed
  have hmiddle : middle.Extends world.last :=
    (TraceM.Leads.pushAll TraceM.carried_extends items _ _ _ hpushed).trans hlast
  have hslots := hrelated.stack
  rw [hstack] at hslots
  simp only [MachineM.step, hop]
  refine MachineM.gives_bind (gives_pop hslots ?_ fun v slots hv hrest => ?_)
  · exact fun hiterator => .iterator (by simp [hstack, Instruction.taken, hop]) hiterator
  obtain ⟨values, hvalues, hlength, hdenotes⟩ := iterate_of_unpackItems hitems hmiddle hv
  refine MachineM.gives_bind (MachineM.gives_ofRun (meets_of_eq ?_ hvalues))
  rw [if_pos hlength]
  refine MachineM.gives_bind (gives_pushAll (MachineM.gives_pure (Or.inl ⟨trivial, ?_⟩)))
  refine hrelated.of_stack (hlocals.trans hrecords.locals) (hglobals.trans hrecords.globals) rfl ?_
  rw [hafter, hrecords.stack]
  exact List.rel_append (stacked_values hdenotes) hrest

lemma follows_getIter (hop : instruction.opcode = .getIter) (hrelated : world.Related state machine)
    (h : TraceM.step context instruction state = .ok (flow, after)) :
    world.Follows context.code instruction state flow after
      (MachineM.step context.code context.frame.globals instruction) machine := by
  simp only [TraceM.step, hop, TraceM.pushing_eq_ok, TraceM.bind_eq_ok, TraceM.pop_eq_ok,
    TraceM.ofAnswer_eq_ok, Symbolic.iterate, except_map_eq_ok] at h
  obtain ⟨rfl, _, _, ⟨value, _, ⟨rest, hstack, rfl⟩, ⟨items, hitems, rfl⟩, rfl⟩, rfl⟩ := h
  have hslots := hrelated.stack
  rw [hstack] at hslots
  simp only [MachineM.step, hop]
  refine MachineM.gives_bind (gives_pop hslots ?_ fun v slots hv hrest => ?_)
  · exact fun hiterator => .iterator (by simp [hstack, Instruction.taken, hop]) hiterator
  obtain ⟨values, hvalues, hdenotes⟩ := iterate_of_items hitems hv
  refine MachineM.gives_bind (MachineM.gives_ofRun (meets_of_eq ?_ hvalues))
  refine MachineM.gives_bind (MachineM.gives_pushSlot (MachineM.gives_pure (Or.inl ⟨trivial, ?_⟩)))
  exact hrelated.of_stack rfl rfl rfl (.cons ⟨items, 0, rfl, by simpa using hdenotes⟩ hrest)

lemma follows_forIter (hop : instruction.opcode = .forIter) (hrelated : world.Related state machine)
    (h : TraceM.step context instruction state = .ok (flow, after)) :
    world.Follows context.code instruction state flow after
      (MachineM.step context.code context.frame.globals instruction) machine := by
  simp only [TraceM.step, hop, TraceM.forIter, TraceM.bind_eq_ok, TraceM.pop_eq_ok,
    TraceM.ofAnswer_eq_ok] at h
  obtain ⟨value, _, ⟨rest, hstack, rfl⟩, advanced, _, ⟨hadvance, rfl⟩, h⟩ := h
  have hslots := hrelated.stack
  rw [hstack] at hslots
  unfold Symbolic.advance at hadvance
  split at hadvance
  · next items position hkind =>
    simp only [MachineM.step, hop, MachineM.forIter]
    refine MachineM.gives_bind (gives_popSlot hslots fun slot slots hslot hrest => ?_)
    obtain ⟨values, rfl, hvalues⟩ : ∃ values, slot = .iterator values ∧
        List.Forall₂ world.Denotes (items.drop position) values := by
      cases slot with
      | value v =>
        have hdenotes : world.DenotesKind value.kind v := Denotes.kind hslot
        rw [hkind] at hdenotes
        exact hdenotes.elim
      | iterator values =>
        obtain ⟨all, place, hsame, hvalues⟩ := hslot
        rw [hkind] at hsame
        cases hsame
        exact ⟨values, rfl, hvalues⟩
    split at hadvance
    · next hnone =>
      obtain rfl := Except.ok.inj hadvance
      obtain ⟨rfl, rfl⟩ := Prod.mk.inj (TraceM.pure_eq_ok.1 h)
      rw [List.drop_eq_nil_of_le (List.getElem?_eq_none_iff.1 hnone)] at hvalues
      cases hvalues
      exact MachineM.gives_pure (Or.inl ⟨rfl, hrelated.of_stack rfl rfl rfl hrest⟩)
    · next item hitem =>
      obtain rfl := Except.ok.inj hadvance
      simp only [TraceM.bind_eq_ok, TraceM.push_eq_ok, TraceM.pure_eq_ok, Prod.mk.injEq] at h
      obtain ⟨_, _, ⟨-, rfl⟩, _, _, ⟨-, rfl⟩, rfl, rfl⟩ := h
      obtain ⟨hlt, rfl⟩ := List.getElem?_eq_some_iff.1 hitem
      rw [List.drop_eq_getElem_cons hlt] at hvalues
      cases hvalues with
      | cons hitem hothers =>
        refine MachineM.gives_bind (MachineM.gives_pushSlot (MachineM.gives_bind
          (MachineM.gives_push (MachineM.gives_pure (Or.inl ⟨trivial, ?_⟩)))))
        exact hrelated.of_stack rfl rfl rfl
          (.cons (denotes_addGuards.2 hitem) (.cons ⟨items, position + 1, rfl, hothers⟩ hrest))
  · cases hadvance

/-! ### Branching and returning -/

/-- A sequence or dictionary counts as true in the run when it has items in the trace. -/
lemma truthy_of_length? {length : Nat}
    (hcontainer : (∃ kind items, value.kind = .sequence kind items) ∨
      ∃ entries, value.kind = .dict entries)
    (hlength : value.length? = some length) (hv : world.Denotes value v) :
    v.truthy = .ok (decide (0 < length)) := by
  have hfound := length_of_length? hlength hv
  have hkind := hv.kind
  rcases hcontainer with ⟨kind, items, hk⟩ | ⟨entries, hk⟩
  · rw [hk] at hkind
    cases kind with
    | list | tuple =>
      obtain ⟨values, rfl, -⟩ := hkind
      cases hfound
      cases values <;> simp [Value.truthy]
    | slice =>
      obtain ⟨_, _, _, _, _, _, -, -, -, -, rfl⟩ := hkind
      cases hfound
  · rw [hk] at hkind
    obtain ⟨values, rfl, -⟩ := hkind
    cases hfound
    cases values <;> simp [Value.truthy]

/-- The truth that a trace settles is the truth in the run. -/
lemma truthy_of_staticTruth {truth : Bool} (h : TraceM.staticTruth value state = .ok (truth, after))
    (hv : world.Denotes value v) : v.truthy = .ok truth := by
  have hkind := hv.kind
  unfold TraceM.staticTruth at h
  cases hliteral : value.constant? with
  | ok literal =>
    obtain rfl := eq_of_constant? hliteral hv
    simp only [hliteral, TraceM.ofRun_eq_ok] at h
    exact h.1
  | error error =>
    simp only [hliteral] at h
    cases hk : value.kind with
    | sequence kind items =>
      cases hlength : value.length? with
      | none =>
        simp only [hk, hlength] at h
        exact absurd h TraceM.breakOff_ne_ok
      | some length =>
        simp only [hk, hlength, TraceM.pure_eq_ok, Prod.mk.injEq] at h
        rw [truthy_of_length? (Or.inl ⟨kind, items, hk⟩) hlength hv, h.1]
    | dict entries =>
      cases hlength : value.length? with
      | none =>
        simp only [hk, hlength] at h
        exact absurd h TraceM.breakOff_ne_ok
      | some length =>
        simp only [hk, hlength, TraceM.pure_eq_ok, Prod.mk.injEq] at h
        rw [truthy_of_length? (Or.inr ⟨entries, hk⟩) hlength hv, h.1]
    | layer key node =>
      rw [hk] at hkind
      obtain ⟨-, rfl⟩ := hkind
      simp only [hk] at h
      cases hsize : node.length? with
      | none | some size =>
        simp only [hsize, TraceM.pure_eq_ok, Prod.mk.injEq] at h
        simp only [Value.truthy, hsize, h.1]
    | routine function | library space =>
      rw [hk] at hkind
      obtain ⟨-, rfl⟩ := hkind
      simp only [hk, TraceM.pure_eq_ok, Prod.mk.injEq] at h
      simp only [Value.truthy, h.1]
    | builtin function =>
      rw [hk] at hkind
      obtain rfl := hkind
      simp only [hk, TraceM.pure_eq_ok, Prod.mk.injEq] at h
      simp only [Value.truthy, h.1]
    | host item =>
      rw [hk] at hkind
      obtain rfl := hkind
      simp only [hk, TraceM.pure_eq_ok, Prod.mk.injEq] at h
      cases item <;> simp only [HostItem.value, Value.truthy, h.1]
    | method function receiver =>
      rw [hk] at hkind
      exact hkind.elim
    | _ =>
      simp only [hk] at h
      exact absurd h TraceM.breakOff_ne_ok

lemma follows_popJump {target : UInt32} {jumpWhen : Bool} (htaken : instruction.taken = 1)
    (hrelated : world.Related state machine)
    (h : TraceM.popJump target jumpWhen state = .ok (flow, after)) :
    world.Follows code instruction state flow after (MachineM.popJump target jumpWhen) machine := by
  simp only [TraceM.popJump, TraceM.bind_eq_ok, TraceM.pop_eq_ok, TraceM.pure_eq_ok,
    Prod.mk.injEq] at h
  obtain ⟨value, _, ⟨rest, hstack, rfl⟩, truth, middle, htruth, rfl, rfl⟩ := h
  have hrecords := TraceM.Computes.staticTruth _ _ _ _ htruth
  have hslots := hrelated.stack
  rw [hstack] at hslots
  refine MachineM.gives_bind (gives_pop hslots ?_ fun v slots hv hrest => ?_)
  · exact fun hiterator => .iterator (by simp [hstack, htaken]) hiterator
  refine MachineM.gives_bind
    (MachineM.gives_ofRun (meets_of_eq ?_ (truthy_of_staticTruth htruth hv)))
  refine MachineM.gives_pure (Or.inl ⟨?_, ?_⟩)
  · split
    · exact rfl
    · exact trivial
  · exact hrelated.of_stack hrecords.locals hrecords.globals rfl (hrecords.stack ▸ hrest)

lemma follows_returnValue (hop : instruction.opcode = .returnValue)
    (hrelated : world.Related state machine)
    (h : TraceM.step context instruction state = .ok (flow, after))
    (hlast : after.Extends world.last) :
    world.Follows context.code instruction state flow after
      (MachineM.step context.code context.frame.globals instruction) machine := by
  simp only [TraceM.step, hop, TraceM.bind_eq_ok, TraceM.pop_eq_ok, TraceM.operand_eq_ok,
    TraceM.pure_eq_ok, Prod.mk.injEq] at h
  obtain ⟨value, _, ⟨rest, hstack, rfl⟩, operand, _, ⟨builder, hoperand, rfl⟩, rfl, rfl⟩ := h
  have hcovers : world.Covers builder := hlast.nodes
  have hslots := hrelated.stack
  rw [hstack] at hslots
  simp only [MachineM.step, hop]
  refine MachineM.gives_bind (gives_pop hslots ?_ fun v slots hv hrest => ?_)
  · exact fun hiterator => .iterator (by simp [hstack, Instruction.taken, hop]) hiterator
  · exact MachineM.gives_pure (Or.inl ⟨(evaluate_operand hoperand hcovers hv).1,
      hrelated.of_stack rfl rfl rfl hrest⟩)

/-- A direct run follows a trace over one instruction. -/
theorem follows_step (hframe : context.frame = world.frame)
    (hvarNames : ∀ name ∈ context.code.varNames, Text.isIdentifier name.toList = true)
    (hnames : ∀ name ∈ context.code.names, Text.isIdentifier name.toList = true)
    (hobjects : instruction.opcode.readsAttr = true → world.objects)
    (hserves : world.objects →
      ∀ use, LayerUse.of? context.code instruction state.stack = some use → world.Serves use)
    (hrelated : world.Related state machine)
    (h : TraceM.step context instruction state = .ok (flow, after))
    (hlast : after.Extends world.last) :
    world.Follows context.code instruction state flow after
      (MachineM.step context.code context.frame.globals instruction) machine := by
  have hbinary {function : Primitive} (hkernel : (kernel? function).isSome)
      (hop : instruction.opcode.isArithmetic = true) (htaken : instruction.taken = 2)
      (h : TraceM.stackBinary function state = .ok (flow, after)) :
      world.Follows context.code instruction state flow after
        (MachineM.stackBinary function) machine :=
    follows_stackBinary hkernel hop htaken hrelated h hlast
  cases hop : instruction.opcode with
  | nop | jumpAbsolute =>
    simp only [TraceM.step, hop, TraceM.pure_eq_ok, Prod.mk.injEq] at h
    obtain ⟨rfl, rfl⟩ := h
    simp only [MachineM.step, hop]
    exact MachineM.gives_pure (Or.inl ⟨by first | exact trivial | exact rfl, hrelated⟩)
  | popTop => exact follows_popTop hop hrelated h
  | rotTwo => exact follows_rotTwo hop hrelated h
  | dupTop => exact follows_dupTop hop hrelated h
  | loadConst => exact follows_loadConst hop hrelated h
  | loadFast => exact follows_loadFast hop hframe hvarNames hrelated h hlast
  | storeFast => exact follows_storeFast hop hrelated h
  | loadGlobal => exact follows_loadGlobal hop hframe hnames hrelated h hlast
  | loadAttr | loadMethod =>
    have hreads : instruction.opcode.readsAttr = true := by rw [hop]; rfl
    exact follows_loadAttr hreads hnames (hobjects hreads)
      (hserves (hobjects hreads)) hrelated h hlast
  | callFunction | callMethod =>
    exact follows_call (by rw [hop]; rfl) hserves hrelated h hlast
  | binaryAdd | binarySubtract | binaryMultiply | binaryTrueDivide | binaryFloorDivide
  | binaryModulo =>
    simp only [TraceM.step, hop] at h
    simp only [MachineM.step, hop]
    exact hbinary rfl (by rw [hop]; rfl) (by simp only [Instruction.taken, hop]) h
  | compareOp =>
    simp only [TraceM.step, hop, TraceM.bind_eq_ok, TraceM.ofOption_eq_ok] at h
    obtain ⟨function, _, ⟨hfunction, rfl⟩, h⟩ := h
    simp only [MachineM.step, hop]
    refine MachineM.gives_bind (MachineM.gives_ofOption hfunction ?_)
    refine hbinary ?_ (by rw [hop]; rfl) (by simp only [Instruction.taken, hop]) h
    have hcomparison := List.mem_of_getElem? hfunction
    simp only [Primitive.comparisons, List.mem_cons, List.not_mem_nil, or_false] at hcomparison
    rcases hcomparison with rfl | rfl | rfl | rfl | rfl | rfl <;> rfl
  | unaryNegative => exact follows_unaryNegative hop hrelated h hlast
  | binarySubscr => exact follows_binarySubscr hop hrelated h hlast
  | buildTuple =>
    simp only [TraceM.step, hop] at h
    simp only [MachineM.step, hop]
    exact follows_build (fun _ _ => denotes_tuple)
      (by simp only [Instruction.taken, hop]) hrelated h
  | buildList =>
    simp only [TraceM.step, hop] at h
    simp only [MachineM.step, hop]
    exact follows_build (fun _ _ => denotes_list) (by simp only [Instruction.taken, hop]) hrelated h
  | buildSlice => exact follows_buildSlice hop hrelated h
  | buildConstKeyMap => exact follows_buildConstKeyMap hop hrelated h
  | unpackSequence => exact follows_unpackSequence hop hrelated h hlast
  | getIter => exact follows_getIter hop hrelated h
  | forIter => exact follows_forIter hop hrelated h
  | popJumpIfFalse | popJumpIfTrue =>
    simp only [TraceM.step, hop] at h
    simp only [MachineM.step, hop]
    exact follows_popJump (by simp only [Instruction.taken, hop]) hrelated h
  | returnValue => exact follows_returnValue hop hrelated h hlast

end GuardedTrace.World
