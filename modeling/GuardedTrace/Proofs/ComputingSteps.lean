/-
Steps that compute.

Instructions that read attributes, call, calculate, take items and build containers: the direct run
follows the trace.
-/
import GuardedTrace.Proofs.StepRelation

namespace GuardedTrace.World

variable {world : World} {context : TraceContext} {code : Code} {instruction : Instruction}
  {state after middle : Tracer} {flow : Flow} {machine : Machine} {value : Symbolic}
  {rest args : List Symbolic} {v : Value}

/-! ### Computing -/

/-- A result is pushed in the run as in the trace. -/
lemma follows_pushed (hrelated : world.Related state machine)
    (hlocals : middle.locals = state.locals)
    (hglobals : middle.globals = state.globals) {slots : List Slot}
    (hslots : world.Stacked middle.stack slots) {created : Nat} {guards : GuardSet}
    (h : world.Denotes value v ∨ (world.objects ∧ Misjudges code instruction state
      { middle with guards, stack := value :: middle.stack }
      { machine with stack := .value v :: slots, created })) :
    (world.Answers .next .next ∧
        world.Related { middle with guards, stack := value :: middle.stack }
          { machine with stack := .value v :: slots, created }) ∨
      (world.objects ∧ Misjudges code instruction state
        { middle with guards, stack := value :: middle.stack }
        { machine with stack := .value v :: slots, created }) :=
  h.imp (fun hv => ⟨trivial, related_push hrelated hlocals hglobals hslots hv⟩) id

lemma follows_loadAttr (hop : instruction.opcode.readsAttr = true)
    (hnames : ∀ name ∈ context.code.names, Text.isIdentifier name.toList = true)
    (hobjects : world.objects)
    (hserves : ∀ use, LayerUse.of? context.code instruction state.stack = some use →
      world.Serves use)
    (hrelated : world.Related state machine)
    (h : TraceM.step context instruction state = .ok (flow, after))
    (hlast : after.Extends world.last) :
    world.Follows context.code instruction state flow after
      (MachineM.step context.code context.frame.globals instruction) machine := by
  have hcases : instruction.opcode = .loadAttr ∨ instruction.opcode = .loadMethod := by
    cases hop' : instruction.opcode <;> simp [hop', Opcode.readsAttr] at hop ⊢
  have htrace : TraceM.step context instruction = TraceM.pushing (do
      let name ← TraceM.ofOption (.badOperand instruction.operand)
        (context.code.name? instruction.operand)
      let holder ← TraceM.pop
      TraceM.getAttr context.config holder name) := by
    rcases hcases with hop | hop <;> simp only [TraceM.step, hop]
  have hstep : MachineM.step context.code context.frame.globals instruction = MachineM.pushing (do
      let name ← MachineM.ofOption (.noName instruction.operand.toNat)
        (context.code.name? instruction.operand)
      let base ← MachineM.pop
      let serial ← MachineM.serial
      MachineM.ofRun (base.getAttr serial name)) := by
    rcases hcases with hop | hop <;> simp only [MachineM.step, hop]
  have huse {name : String} {holder : Symbolic}
      (hname : context.code.name? instruction.operand = some name)
      (hstack : state.stack.head? = some holder) :
      LayerUse.of? context.code instruction state.stack = LayerUse.ofAttr? name holder := by
    rcases hcases with hop | hop <;> simp [LayerUse.of?, hop, hname, hstack]
  have htaken : instruction.taken = 1 := by
    rcases hcases with hop | hop <;> simp [Instruction.taken, hop]
  rw [htrace] at h
  rw [hstep]
  simp only [TraceM.pushing_eq_ok, TraceM.bind_eq_ok, TraceM.ofOption_eq_ok, TraceM.pop_eq_ok] at h
  obtain ⟨rfl, value, middle,
      ⟨name, _, ⟨hname, rfl⟩, holder, _, ⟨rest, hstack, rfl⟩, hattr⟩, rfl⟩ := h
  have hidentifier := hnames name (List.mem_of_getElem? hname)
  have hslots := hrelated.stack
  rw [hstack] at hslots
  refine MachineM.gives_pushing (MachineM.gives_bind (MachineM.gives_ofOption hname ?_))
  refine MachineM.gives_bind (gives_popTop hslots ?_ fun b slots htop hb hrest => ?_)
  · exact fun hiterator => .iterator (by simp [hstack, htaken]) hiterator
  · refine MachineM.gives_bind (MachineM.gives_serial (MachineM.gives_ofRun ?_))
    have hrecords := TraceM.Registers.getAttr _ _ _ _ _ _ hattr
    refine (getAttr_meets hidentifier hobjects hattr (extends_of_pushed hlast) hb ?_ _).imp ?_ ?_
    · rw [← huse hname (by rw [hstack]; rfl)]
      exact hserves
    · rintro (hputOff | hmistaken)
      · exact .postponed ⟨value, middle.stack, rfl, Or.inr ⟨hop, hputOff⟩⟩
      · refine .mistaken (.array hop hname ?_ ?_ hmistaken)
        · rw [hstack]
          rfl
        · rw [htop]
          rfl
    · intro v hv
      refine follows_pushed hrelated hrecords.locals hrecords.globals (hrecords.stack ▸ hrest)
        (hv.imp id fun hmisread =>
          ⟨hobjects, value, v, rfl, rfl, Or.inl ⟨hop, name, holder, hname, ?_, hmisread⟩⟩)
      rw [hstack]
      rfl

lemma mem_take_of_append {values taken rest : List Symbolic} {count : Nat}
    (hvalues : values = taken ++ rest) (hcount : taken.length = count) (hvalue : value ∈ taken) :
    value ∈ values.take count := by
  rw [hvalues, ← hcount, List.take_left]
  exact hvalue

lemma gives_callValue {relaxed : Prop} {P : Request → Machine → Prop}
    {c : Value} {values : List Value}
    (h : ∀ serial, ∃ run, c.invoke? serial values = some run ∧ Meets relaxed (fun v => ∀ created,
      P .next { machine with stack := .value v :: machine.stack, created }) run) :
    MachineM.Gives relaxed P (MachineM.callValue c values) machine := by
  obtain ⟨run, hrun, hmeets⟩ := h machine.created
  cases c with
  | primitive _ | layer _ | boundPrimitive _ _ _ =>
    obtain rfl := Option.some.inj hrun
    refine MachineM.gives_pushing (MachineM.gives_bind (MachineM.gives_serial ?_))
    exact MachineM.gives_ofRun (hmeets.imp id fun v hv => hv _)
  | builtin _ =>
    obtain rfl := Option.some.inj hrun
    refine MachineM.gives_pushing (MachineM.gives_ofRun ?_)
    exact hmeets.imp id fun v hv => hv _
  | routine _ | boundRoutine _ _ _ => cases hrun
  | _ =>
    obtain rfl := Option.some.inj hrun
    exact MachineM.gives_fail hmeets

lemma follows_call (hop : instruction.opcode.calls = true)
    (hserves : world.objects →
      ∀ use, LayerUse.of? context.code instruction state.stack = some use → world.Serves use)
    (hrelated : world.Related state machine)
    (h : TraceM.step context instruction state = .ok (flow, after))
    (hlast : after.Extends world.last) :
    world.Follows context.code instruction state flow after
      (MachineM.step context.code context.frame.globals instruction) machine := by
  have hcases : instruction.opcode = .callFunction ∨ instruction.opcode = .callMethod := by
    cases hop' : instruction.opcode <;> simp [hop', Opcode.calls] at hop ⊢
  have htrace : TraceM.step context instruction = TraceM.pushing (do
      let args ← TraceM.popMany instruction.operand.toNat
      let callee ← TraceM.pop
      TraceM.callValue context.config callee args) := by
    rcases hcases with hop | hop <;> simp only [TraceM.step, hop]
  have hstep : MachineM.step context.code context.frame.globals instruction = (do
      let args ← MachineM.popMany instruction.operand.toNat
      let callee ← MachineM.pop
      MachineM.callValue callee args) := by
    rcases hcases with hop | hop <;> simp only [MachineM.step, hop]
  have huse : LayerUse.of? context.code instruction state.stack =
      (state.stack[instruction.operand.toNat]?).bind LayerUse.ofCall? := by
    rcases hcases with hop | hop <;> simp only [LayerUse.of?, hop]
  have htaken : instruction.taken = instruction.operand.toNat + 1 := by
    rcases hcases with hop | hop <;> simp only [Instruction.taken, hop]
  rw [htrace] at h
  rw [hstep]
  simp only [TraceM.pushing_eq_ok, TraceM.bind_eq_ok, TraceM.popMany_eq_ok, TraceM.pop_eq_ok] at h
  obtain ⟨rfl, value, middle, ⟨args, _, ⟨below, hstack, hcount, rfl⟩, callee, _, ⟨rest, rfl, rfl⟩,
    hcall⟩, rfl⟩ := h
  have hmem : ∀ value ∈ args.reverse ++ [callee], value ∈ state.stack.take instruction.taken :=
    fun value hvalue => mem_take_of_append (by simpa using hstack) (by simp [hcount, htaken]) hvalue
  have hcallee : state.stack[instruction.operand.toNat]? = some callee := by
    rw [hstack, ← hcount, List.getElem?_append_right (by simp)]
    simp
  have hslots := hrelated.stack
  rw [hstack] at hslots
  refine MachineM.gives_bind (gives_popMany hslots hcount
    (fun value hvalue => .iterator (hmem value (by simp [hvalue])))
    fun values slots _ hvalues hbelow => ?_)
  refine MachineM.gives_bind (gives_pop hbelow (.iterator (hmem callee (by simp)))
    fun c slots' hc hrest => ?_)
  have hrecords := TraceM.Registers.callValue _ _ _ _ _ _ hcall
  refine gives_callValue fun serial => ?_
  obtain ⟨run, hrun, hmeets⟩ := callValue_meets hcall (extends_of_pushed hlast) hc hvalues
    (fun hobjects use hofCall => hserves hobjects use (by rw [huse, hcallee]; exact hofCall)) serial
  refine ⟨run, hrun, hmeets.imp ?_ ?_⟩
  · exact fun hquery => .slipped (Instruction.slips_of_query hcases hstack hcount hquery)
  · intro v hv created
    exact follows_pushed hrelated hrecords.locals hrecords.globals (hrecords.stack ▸ hrest)
      (hv.imp id fun hmisfits => ⟨hmisfits.1, value, v, rfl, rfl, Or.inr ⟨hop, hmisfits.2⟩⟩)

lemma follows_stackBinary {function : Primitive} (hkernel : (kernel? function).isSome)
    (hop : instruction.opcode.isArithmetic = true) (htaken : instruction.taken = 2)
    (hrelated : world.Related state machine)
    (h : TraceM.stackBinary function state = .ok (flow, after)) (hlast : after.Extends world.last) :
    world.Follows code instruction state flow after (MachineM.stackBinary function) machine := by
  simp only [TraceM.stackBinary, TraceM.pushing_eq_ok, TraceM.bind_eq_ok] at h
  obtain ⟨rfl, value, middle, ⟨⟨lhs, rhs⟩, _, hpop, hbinary⟩, rfl⟩ := h
  obtain ⟨rest, hstack, rfl⟩ := TraceM.popTwo_eq_ok.1 hpop
  have hslots := hrelated.stack
  rw [hstack] at hslots
  have hrecords := TraceM.Computes.binaryOp _ _ _ _ _ _ hbinary
  refine MachineM.gives_pushing
    (MachineM.gives_bind (gives_pop hslots ?_ fun r slots hr hrest => ?_))
  · exact fun hiterator => .iterator (by simp [hstack, htaken]) hiterator
  refine MachineM.gives_bind (gives_pop hrest ?_ fun l slots' hl hrest' => ?_)
  · exact fun hiterator => .iterator (by simp [hstack, htaken]) hiterator
  refine MachineM.gives_ofRun ?_
  refine (binaryOp_meets hkernel hbinary (extends_of_pushed hlast) hl hr).imp ?_ ?_
  · exact fun hunknown => .postponed ⟨value, middle.stack, rfl, Or.inl ⟨hop, hunknown⟩⟩
  · intro v hv
    exact follows_pushed hrelated hrecords.locals hrecords.globals (hrecords.stack ▸ hrest')
      (Or.inl hv)

lemma follows_unaryNegative (hop : instruction.opcode = .unaryNegative)
    (hrelated : world.Related state machine)
    (h : TraceM.step context instruction state = .ok (flow, after))
    (hlast : after.Extends world.last) :
    world.Follows context.code instruction state flow after
      (MachineM.step context.code context.frame.globals instruction) machine := by
  simp only [TraceM.step, hop, TraceM.pushing_eq_ok, TraceM.bind_eq_ok, TraceM.pop_eq_ok] at h
  obtain ⟨rfl, value, middle, ⟨arg, _, ⟨rest, hstack, rfl⟩, hnegate⟩, rfl⟩ := h
  have hslots := hrelated.stack
  rw [hstack] at hslots
  have hrecords := TraceM.Computes.negate _ _ _ _ hnegate
  simp only [MachineM.step, hop]
  refine MachineM.gives_pushing
    (MachineM.gives_bind (gives_pop hslots ?_ fun v slots hv hrest => ?_))
  · exact fun hiterator => .iterator (by simp [hstack, Instruction.taken, hop]) hiterator
  refine MachineM.gives_ofRun ((negate_meets hnegate (extends_of_pushed hlast) hv).imp ?_ ?_)
  · have hop' : instruction.opcode.isArithmetic = true := by simp [hop, Opcode.isArithmetic]
    exact fun hunknown => .postponed ⟨value, middle.stack, rfl, Or.inl ⟨hop', hunknown⟩⟩
  · intro result hresult
    exact follows_pushed hrelated hrecords.locals hrecords.globals (hrecords.stack ▸ hrest)
      (Or.inl hresult)

lemma follows_binarySubscr (hop : instruction.opcode = .binarySubscr)
    (hrelated : world.Related state machine)
    (h : TraceM.step context instruction state = .ok (flow, after))
    (hlast : after.Extends world.last) :
    world.Follows context.code instruction state flow after
      (MachineM.step context.code context.frame.globals instruction) machine := by
  simp only [TraceM.step, hop, TraceM.pushing_eq_ok, TraceM.bind_eq_ok] at h
  obtain ⟨rfl, value, middle, ⟨⟨container, key⟩, _, hpop, hsubscript⟩, rfl⟩ := h
  obtain ⟨rest, hstack, rfl⟩ := TraceM.popTwo_eq_ok.1 hpop
  have hslots := hrelated.stack
  rw [hstack] at hslots
  have hrecords := TraceM.Computes.subscript _ _ _ _ _ hsubscript
  simp only [MachineM.step, hop]
  refine MachineM.gives_pushing
    (MachineM.gives_bind (gives_pop hslots ?_ fun k slots hk hrest => ?_))
  · exact fun hiterator => .iterator (by simp [hstack, Instruction.taken, hop]) hiterator
  refine MachineM.gives_bind (gives_pop hrest ?_ fun c slots' hc hrest' => ?_)
  · exact fun hiterator => .iterator (by simp [hstack, Instruction.taken, hop]) hiterator
  refine MachineM.gives_bind (MachineM.gives_serial (MachineM.gives_ofRun ?_))
  refine (subscript_meets hsubscript (extends_of_pushed hlast) hc hk _).imp ?_ ?_
  · exact fun htruth => .slipped (Instruction.slips_of_index hop hstack htruth)
  · intro v hv
    exact follows_pushed hrelated hrecords.locals hrecords.globals (hrecords.stack ▸ hrest')
      (Or.inl hv)

/-! ### Building -/

/-- A container of popped values is built in the run as well. -/
lemma follows_build {container : List Value → Value} {kind : SequenceKind}
    (hkind : ∀ args values, List.Forall₂ world.Denotes args values →
      world.Denotes (Symbolic.sequence kind args) (container values))
    (htaken : instruction.taken = instruction.operand.toNat)
    (hrelated : world.Related state machine)
    (h : TraceM.pushing (do
      let items ← TraceM.popMany instruction.operand.toNat
      pure (Symbolic.sequence kind items)) state = .ok (flow, after)) :
    world.Follows code instruction state flow after (MachineM.pushing (do
      let items ← MachineM.popMany instruction.operand.toNat
      pure (container items))) machine := by
  simp only [TraceM.pushing_eq_ok, TraceM.bind_eq_ok, TraceM.popMany_eq_ok, TraceM.pure_eq_ok,
    Prod.mk.injEq] at h
  obtain ⟨rfl, _, _, ⟨args, _, ⟨rest, hstack, hcount, rfl⟩, rfl, rfl⟩, rfl⟩ := h
  have hslots := hrelated.stack
  rw [hstack] at hslots
  refine MachineM.gives_pushing (MachineM.gives_bind (gives_popMany hslots hcount
    (fun value hvalue => .iterator ?_) fun values slots _ hvalues hrest => ?_))
  · exact mem_take_of_append hstack (by simp [hcount, htaken]) (by simpa using hvalue)
  · exact MachineM.gives_pure (Or.inl ⟨trivial,
      hrelated.of_stack rfl rfl rfl (.cons (hkind args values hvalues) hrest)⟩)

lemma denotes_tuple {values : List Value} (h : List.Forall₂ world.Denotes args values) :
    world.Denotes (Symbolic.sequence .tuple args) (.tuple values) :=
  denotes_derived.2 ⟨values, rfl, denotesItems_iff.2 h⟩

lemma denotes_list {values : List Value} (h : List.Forall₂ world.Denotes args values) :
    world.Denotes (Symbolic.sequence .list args) (.list values) :=
  denotes_derived.2 ⟨values, rfl, denotesItems_iff.2 h⟩

/-- Values bound a slice, unless one of them is no bound. -/
lemma bounds_meet (values : List Value) :
    Meets (∃ v ∈ values, ∀ bound, MachineM.bound v ≠ .ok bound)
      (fun bounds => List.Forall₂
        (fun value bound => MachineM.bound value = .ok bound) values bounds)
      (values.mapM MachineM.bound) := by
  by_cases hrefused : ∃ v ∈ values, ∀ bound, MachineM.bound v ≠ .ok bound
  · cases hbounds : values.mapM MachineM.bound with
    | ok bounds => exact mapM_eq_ok.1 hbounds
    | error error => exact hrefused
  · push Not at hrefused
    obtain ⟨bounds, hbounds⟩ : ∃ bounds,
        List.Forall₂ (fun value bound => MachineM.bound value = .ok bound) values bounds := by
      induction values with
      | nil => exact ⟨[], .nil⟩
      | cons v rest ih =>
        obtain ⟨bounds, hbounds⟩ := ih fun other hother => hrefused other (by simp [hother])
        obtain ⟨bound, hbound⟩ := hrefused v (by simp)
        exact ⟨bound :: bounds, .cons hbound hbounds⟩
    exact meets_of_eq hbounds (mapM_eq_ok.2 hbounds)

/-- A slice is built from two or three popped values; the third bound is absent otherwise. -/
lemma buildSlice_eq_ok {count : UInt32} (h : TraceM.buildSlice count state = .ok (value, after)) :
    (count = 2 ∨ count = 3) ∧ ∃ args rest, state.stack = args.reverse ++ rest ∧
      args.length = count.toNat ∧ after = { state with stack := rest } ∧
      ((∃ first second, args = [first, second] ∧
          value = Symbolic.sequence .slice [first, second, Symbolic.constant .none]) ∨
        ∃ first second third, args = [first, second, third] ∧
          value = Symbolic.sequence .slice [first, second, third]) := by
  unfold TraceM.buildSlice at h
  split at h
  · next hcount =>
    simp only [TraceM.bind_eq_ok, TraceM.popMany_eq_ok, TraceM.pure_eq_ok, Prod.mk.injEq] at h
    obtain ⟨args, _, ⟨rest, hstack, hargs, rfl⟩, rfl, rfl⟩ := h
    refine ⟨Or.inl hcount, args, rest, hstack, by simp [hargs, hcount], rfl, Or.inl ?_⟩
    obtain ⟨first, second, rfl⟩ := List.length_eq_two.1 hargs
    exact ⟨first, second, rfl, rfl⟩
  · split at h
    · next hcount =>
      simp only [TraceM.bind_eq_ok, TraceM.popMany_eq_ok, TraceM.pure_eq_ok, Prod.mk.injEq] at h
      obtain ⟨args, _, ⟨rest, hstack, hargs, rfl⟩, rfl, rfl⟩ := h
      refine ⟨Or.inr hcount, args, rest, hstack, by simp [hargs, hcount], rfl, Or.inr ?_⟩
      obtain ⟨first, second, third, rfl⟩ := List.length_eq_three.1 hargs
      exact ⟨first, second, third, rfl, rfl⟩
    · exact absurd h TraceM.breakOff_ne_ok

lemma follows_buildSlice (hop : instruction.opcode = .buildSlice)
    (hrelated : world.Related state machine)
    (h : TraceM.step context instruction state = .ok (flow, after)) :
    world.Follows context.code instruction state flow after
      (MachineM.step context.code context.frame.globals instruction) machine := by
  simp only [TraceM.step, hop, TraceM.pushing_eq_ok] at h
  obtain ⟨rfl, value, middle, h, rfl⟩ := h
  obtain ⟨hcount, args, rest, hstack, hargs, rfl, hvalue⟩ := buildSlice_eq_ok h
  have hmem : ∀ value ∈ args, value ∈ state.stack.take instruction.taken := fun value hvalue =>
    mem_take_of_append hstack (by simp [Instruction.taken, hop, hargs]) (by simpa using hvalue)
  have hslots := hrelated.stack
  rw [hstack] at hslots
  simp only [MachineM.step, hop, MachineM.buildSlice, if_pos hcount]
  refine MachineM.gives_pushing (MachineM.gives_bind (gives_popMany hslots hargs
    (fun value hvalue => .iterator (hmem value hvalue))
      fun values slots hpopped hvalues hrest => ?_))
  refine MachineM.gives_bind (MachineM.gives_ofRun ((bounds_meet values).imp ?_ ?_))
  · rintro ⟨v, hv, hrefused⟩
    have htaken : instruction.taken = (values.reverse.map Slot.value).length := by
      simp [Instruction.taken, hop, ← hargs, hvalues.length_eq]
    refine .mistaken (.bound hop ?_ hrefused)
    rw [hpopped, htaken, List.take_left]
    exact List.mem_map_of_mem (by simpa using hv)
  · intro bounds hbounds
    rcases hvalue with ⟨first, second, rfl, rfl⟩ | ⟨first, second, third, rfl, rfl⟩
    · simp only [List.forall₂_cons_left_iff, List.forall₂_nil_left_iff] at hvalues
      obtain ⟨a, _, ha, ⟨b, _, hb, rfl, rfl⟩, rfl⟩ := hvalues
      simp only [List.forall₂_cons_left_iff, List.forall₂_nil_left_iff] at hbounds
      obtain ⟨start, _, hstart, ⟨stop, _, hstop, rfl, rfl⟩, rfl⟩ := hbounds
      refine MachineM.gives_pure (Or.inl ⟨trivial, hrelated.of_stack rfl rfl rfl (.cons ?_ hrest)⟩)
      refine denotes_derived.2 ⟨a, b, .none, start, stop, none, ?_, hstart, hstop, rfl, rfl⟩
      exact denotesItems_iff.2 (.cons ha (.cons hb (.cons (denotes_constant.2 rfl) .nil)))
    · simp only [List.forall₂_cons_left_iff, List.forall₂_nil_left_iff] at hvalues
      obtain ⟨a, _, ha, ⟨b, _, hb, ⟨c, _, hc, rfl, rfl⟩, rfl⟩, rfl⟩ := hvalues
      simp only [List.forall₂_cons_left_iff, List.forall₂_nil_left_iff] at hbounds
      obtain ⟨start, _, hstart, ⟨stop, _, hstop, ⟨step, _, hstep, rfl, rfl⟩, rfl⟩, rfl⟩ := hbounds
      refine MachineM.gives_pure (Or.inl ⟨trivial, hrelated.of_stack rfl rfl rfl (.cons ?_ hrest)⟩)
      refine denotes_derived.2 ⟨a, b, c, start, stop, step, ?_, hstart, hstop, hstep, rfl⟩
      exact denotesItems_iff.2 (.cons ha (.cons hb (.cons hc .nil)))

lemma follows_buildConstKeyMap (hop : instruction.opcode = .buildConstKeyMap)
    (hrelated : world.Related state machine)
    (h : TraceM.step context instruction state = .ok (flow, after)) :
    world.Follows context.code instruction state flow after
      (MachineM.step context.code context.frame.globals instruction) machine := by
  simp only [TraceM.step, hop, TraceM.pushing_eq_ok, TraceM.bind_eq_ok, TraceM.pop_eq_ok,
    TraceM.popMany_eq_ok] at h
  obtain ⟨rfl, value, middle,
      ⟨keys, _, ⟨below, hstack, rfl⟩, args, _, ⟨rest, rfl, hargs, rfl⟩, hdict⟩, rfl⟩ := h
  have hmem : ∀ value ∈ keys :: args.reverse, value ∈ state.stack.take instruction.taken :=
    fun value hvalue => mem_take_of_append hstack (by simp [Instruction.taken, hop, hargs]) hvalue
  have hslots := hrelated.stack
  rw [hstack] at hslots
  have hrecords := TraceM.Computes.buildDict _ _ _ _ _ hdict
  simp only [MachineM.step, hop, MachineM.buildDict]
  refine MachineM.gives_pushing (MachineM.gives_bind (gives_pop hslots
    (.iterator (hmem keys (by simp))) fun k slots hk hbelow => ?_))
  refine MachineM.gives_bind (gives_popMany hbelow hargs
    (fun value hvalue => .iterator (hmem value (by simp [hvalue])))
    fun values slots _ hvalues hrest => ?_)
  obtain ⟨items, found, rfl, hlength, hfound, hv⟩ := denotes_buildDict hdict hk hvalues
  simp only [if_pos hlength]
  refine MachineM.gives_bind (MachineM.gives_ofRun (meets_of_eq ?_ hfound))
  exact MachineM.gives_pure (follows_pushed hrelated hrecords.locals hrecords.globals
    (hrecords.stack ▸ hrest) (Or.inl hv))

end GuardedTrace.World
