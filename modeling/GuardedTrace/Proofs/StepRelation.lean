/-
One step of a trace beside one step of a direct run.

A state of a completed trace and a machine that are related stay related after an instruction,
unless the direct run fails where a trace goes on (`Relaxes`), or the trace has inferred something
of the result that does not hold (`Misjudges`).  A trace goes on by design where it puts an
operation off (`Postpones`); it also takes operands that a run refuses (`Instruction.slips`,
`Mistakes`).
-/
import GuardedTrace.Proofs.Machines

namespace GuardedTrace

/-! ### Where a trace goes on -/

namespace Opcode

/-- Whether an opcode computes a number, a truth value or a concatenation. -/
def isArithmetic : Opcode → Bool
  | binaryAdd | binarySubtract | binaryMultiply | binaryTrueDivide | binaryFloorDivide
  | binaryModulo | compareOp | unaryNegative => true
  | _ => false

def readsAttr : Opcode → Bool
  | loadAttr | loadMethod => true
  | _ => false

def calls : Opcode → Bool
  | callFunction | callMethod => true
  | _ => false

end Opcode

/-- The number of entries of the stack that an instruction takes as values. -/
def Instruction.taken (instruction : Instruction) : Nat :=
  match instruction.opcode with
  | .storeFast | .loadAttr | .loadMethod | .unaryNegative | .unpackSequence | .getIter
  | .popJumpIfFalse | .popJumpIfTrue | .returnValue => 1
  | .binaryAdd | .binarySubtract | .binaryMultiply | .binaryTrueDivide | .binaryFloorDivide
  | .binaryModulo | .compareOp | .binarySubscr => 2
  | .buildTuple | .buildList | .buildSlice => instruction.operand.toNat
  | .callFunction | .callMethod | .buildConstKeyMap => instruction.operand.toNat + 1
  | _ => 0

/-- A trace puts the operation of an instruction off: the result is unknown, or it is an attribute
that is read when it is used. -/
def Postpones (instruction : Instruction) (after : Tracer) : Prop :=
  ∃ value rest, after.stack = value :: rest ∧
    ((instruction.opcode.isArithmetic = true ∧ value.IsUnknown) ∨
      (instruction.opcode.readsAttr = true ∧ value.IsPutOff))

namespace Instruction

/-- A trace slips where it takes operands that a run refuses whatever they stand for: an iterator
for a value, a truth value for the index of a sequence, a slice for the index of a query of an array
that has been answered. -/
def slips (instruction : Instruction) (stack : List Symbolic) : Bool :=
  (stack.take instruction.taken).any Symbolic.isIterator ||
    match instruction.opcode, stack with
    | .binarySubscr, key :: container :: _ => container.indexedByTruth key
    | .callFunction, _ | .callMethod, _ =>
      ((stack.drop instruction.operand.toNat).head?.map fun callee =>
        callee.queriedBySlice (stack.take instruction.operand.toNat).reverse).getD false
    | _, _ => false

variable {instruction : Instruction} {stack rest : List Symbolic}
  {value key container callee : Symbolic}
  {args : List Symbolic}

lemma slips_of_iterator (hvalue : value ∈ stack.take instruction.taken)
    (h : value.isIterator = true) : instruction.slips stack = true := by
  simp only [slips, Bool.or_eq_true, List.any_eq_true]
  exact Or.inl ⟨value, hvalue, h⟩

lemma slips_of_index (hop : instruction.opcode = .binarySubscr)
    (hstack : stack = key :: container :: rest) (h : container.indexedByTruth key = true) :
    instruction.slips stack = true := by
  subst hstack
  simp only [slips, hop, h, Bool.or_true]

lemma slips_of_query (hop : instruction.opcode = .callFunction ∨ instruction.opcode = .callMethod)
    (hstack : stack = args.reverse ++ callee :: rest)
    (hcount : args.length = instruction.operand.toNat) (h : callee.queriedBySlice args = true) :
    instruction.slips stack = true := by
  have hcount' : instruction.operand.toNat = args.reverse.length := by simp [hcount]
  have hquery : ((stack.drop instruction.operand.toNat).head?.map fun callee =>
      callee.queriedBySlice (stack.take instruction.operand.toNat).reverse).getD false = true := by
    subst hstack
    rw [hcount', List.drop_left, List.take_left]
    simpa using h
  rcases hop with hop | hop <;> simp only [slips, hop, hquery, Bool.or_true]

end Instruction

/-- A trace takes for granted of an operand of an instruction what does not hold in the run: that it
can bound a slice, or that what has the facts of an array is one. -/
inductive Mistakes (code : Code) (instruction : Instruction) (state : Tracer) (machine : Machine) :
    Prop where
  | bound {v : Value} (hop : instruction.opcode = .buildSlice)
    (hv : .value v ∈ machine.stack.take instruction.taken)
      (h : ∀ bound, MachineM.bound v ≠ .ok bound)
  | array {name : String} {holder : Symbolic} {b : Value}
    (hop : instruction.opcode.readsAttr = true)
    (hname : code.name? instruction.operand = some name) (hholder : state.stack.head? = some holder)
    (hb : machine.stack.head? = some (.value b)) (h : holder.MistakenForArray name b)

/-- The ways in which a trace goes on from a state to another one where a direct run may fail. -/
inductive Relaxes (code : Code) (instruction : Instruction) (state after : Tracer)
    (machine : Machine) : Prop where
  | postponed (h : Postpones instruction after)
  | slipped (h : instruction.slips state.stack = true)
  | mistaken (h : Mistakes code instruction state machine)

lemma Relaxes.iterator {code : Code} {instruction : Instruction} {state after : Tracer}
    {machine : Machine} {value : Symbolic} (hvalue : value ∈ state.stack.take instruction.taken)
    (h : value.isIterator = true) : Relaxes code instruction state after machine :=
  .slipped (Instruction.slips_of_iterator hvalue h)

/-- What a trace has inferred of the result of an instruction does not hold of the result in the
run: the element type or device of an array, or the shape of what a layer gives. -/
def Misjudges (code : Code) (instruction : Instruction) (state after : Tracer) (machine : Machine) :
    Prop :=
  ∃ value v, after.stack.head? = some value ∧ machine.stack.head? = some (.value v) ∧
    ((instruction.opcode.readsAttr = true ∧ ∃ name holder,
        code.name? instruction.operand = some name ∧ state.stack.head? = some holder ∧
          holder.Misreads name value v) ∨
      (instruction.opcode.calls = true ∧ value.Misfits v))

namespace World

variable (world : World)

/-- What a run asks for is what the trace asks for; a result is the value of the output. -/
def Answers : Flow → Request → Prop
  | .next, .next => True
  | .jump target, .jump other => target = other
  | .finish operand, .finish result => ∀ reader, operand.evaluate reader world.values = .ok result
  | _, _ => False

/-- A part of a run follows a step of the trace. -/
def Follows (code : Code) (instruction : Instruction) (state : Tracer)
    (flow : Flow) (after : Tracer)
    (x : MachineM Request) (machine : Machine) : Prop :=
  MachineM.Gives (Relaxes code instruction state after machine)
    (fun request next => (world.Answers flow request ∧ world.Related after next) ∨
      (world.objects ∧ Misjudges code instruction state after next)) x machine

variable {world} {context : TraceContext} {code : Code} {instruction : Instruction}
  {state after middle : Tracer} {flow : Flow} {machine : Machine} {value : Symbolic}
  {rest args : List Symbolic} {v : Value}

/-! ### Moving values -/

lemma related_push (h : world.Related state machine) (hlocals : middle.locals = state.locals)
    (hglobals : middle.globals = state.globals) {slots : List Slot}
    (hslots : world.Stacked middle.stack slots) (hv : world.Denotes value v) {guards : GuardSet}
    {created : Nat} :
    world.Related { middle with guards, stack := value :: middle.stack }
      { machine with stack := .value v :: slots, created } :=
  h.of_stack hlocals hglobals rfl (.cons hv hslots)

/-- Pushing a value records nothing that was not recorded. -/
lemma extends_of_pushed (h : Tracer.Extends { middle with
      guards := GuardSet.union middle.guards value.guards
      stack := value :: middle.stack } world.last) : middle.Extends world.last := by
  refine Tracer.Extends.trans ?_ h
  exact .of_eq rfl rfl (fun _ hguard => GuardSet.mem_union.2 (Or.inl hguard)) rfl

lemma follows_popTop (hop : instruction.opcode = .popTop) (hrelated : world.Related state machine)
    (h : TraceM.step context instruction state = .ok (flow, after)) :
    world.Follows context.code instruction state flow after
      (MachineM.step context.code context.frame.globals instruction) machine := by
  simp only [TraceM.step, hop, TraceM.bind_eq_ok, TraceM.pop_eq_ok, TraceM.pure_eq_ok,
    Prod.mk.injEq] at h
  obtain ⟨value, _, ⟨rest, hstack, rfl⟩, rfl, rfl⟩ := h
  have hslots := hrelated.stack
  rw [hstack] at hslots
  simp only [MachineM.step, hop]
  refine MachineM.gives_bind (gives_popSlot hslots fun slot slots _ hrest => ?_)
  exact MachineM.gives_pure (Or.inl ⟨trivial, hrelated.of_stack rfl rfl rfl hrest⟩)

lemma follows_rotTwo (hop : instruction.opcode = .rotTwo) (hrelated : world.Related state machine)
    (h : TraceM.step context instruction state = .ok (flow, after)) :
    world.Follows context.code instruction state flow after
      (MachineM.step context.code context.frame.globals instruction) machine := by
  simp only [TraceM.step, hop, TraceM.bind_eq_ok, TraceM.push_eq_ok, TraceM.pure_eq_ok,
    Prod.mk.injEq] at h
  obtain ⟨⟨second, top⟩, _, hpop, _, _, ⟨-, rfl⟩, _, _, ⟨-, rfl⟩, rfl, rfl⟩ := h
  obtain ⟨rest, hstack, rfl⟩ := TraceM.popTwo_eq_ok.1 hpop
  have hslots := hrelated.stack
  rw [hstack] at hslots
  simp only [MachineM.step, hop]
  refine MachineM.gives_bind (gives_popSlot hslots fun slot slots hslot hrest => ?_)
  refine MachineM.gives_bind (gives_popSlot hrest fun slot' slots' hslot' hrest' => ?_)
  refine MachineM.gives_bind
    (MachineM.gives_pushSlot (MachineM.gives_bind (MachineM.gives_pushSlot ?_)))
  exact MachineM.gives_pure (Or.inl ⟨trivial,
    hrelated.of_stack rfl rfl rfl (.cons hslot' (.cons hslot hrest'))⟩)

lemma follows_dupTop (hop : instruction.opcode = .dupTop) (hrelated : world.Related state machine)
    (h : TraceM.step context instruction state = .ok (flow, after)) :
    world.Follows context.code instruction state flow after
      (MachineM.step context.code context.frame.globals instruction) machine := by
  simp only [TraceM.step, hop, TraceM.get_bind] at h
  simp only [MachineM.step, hop]
  have hslots := hrelated.stack
  cases hstack : state.stack with
  | nil =>
    simp only [hstack] at h
    exact absurd h TraceM.breakOff_ne_ok
  | cons top rest =>
    simp only [hstack, TraceM.bind_eq_ok, TraceM.push_eq_ok, TraceM.pure_eq_ok, Prod.mk.injEq] at h
    obtain ⟨_, _, ⟨-, rfl⟩, rfl, rfl⟩ := h
    rw [hstack] at hslots
    refine MachineM.gives_bind (MachineM.gives_get ?_)
    obtain ⟨slot, slots, hslot, hrest, heq⟩ := List.forall₂_cons_left_iff.1 hslots
    simp only [heq]
    refine MachineM.gives_bind
      (MachineM.gives_pushSlot (MachineM.gives_pure (Or.inl ⟨trivial, ?_⟩)))
    refine hrelated.of_stack rfl rfl rfl ?_
    simp only [heq]
    exact .cons hslot (.cons hslot hrest)

/-! ### Loading and storing -/

lemma follows_loadConst (hop : instruction.opcode = .loadConst)
    (hrelated : world.Related state machine)
    (h : TraceM.step context instruction state = .ok (flow, after)) :
    world.Follows context.code instruction state flow after
      (MachineM.step context.code context.frame.globals instruction) machine := by
  simp only [TraceM.step, hop, TraceM.pushing_eq_ok, TraceM.bind_eq_ok, TraceM.ofOption_eq_ok,
    TraceM.pure_eq_ok, Prod.mk.injEq] at h
  obtain ⟨rfl, _, _, ⟨literal, _, ⟨hliteral, rfl⟩, rfl, rfl⟩, rfl⟩ := h
  simp only [MachineM.step, hop]
  refine MachineM.gives_pushing (MachineM.gives_bind (MachineM.gives_ofOption hliteral ?_))
  exact MachineM.gives_pure (Or.inl ⟨trivial,
    related_push hrelated rfl rfl hrelated.stack (denotes_constant.2 rfl)⟩)

/-- A value that is bound in the frame is wrapped as what it is. -/
lemma denotes_wrap_name {scope : Scope} {live : Value} {name : String} {config : Config}
    (hname : Text.isIdentifier name.toList = true)
    (hlive : world.frame.lookup? scope name = some live)
    (h : TraceM.wrap config scope live name state = .ok (value, after))
    (hlast : after.Extends world.last) : world.Denotes value live := by
  refine denotes_wrap config scope h hlast ?_ ?_
  · exact (Frame.resolve_identifier hname).2 hlive
  · exact world.plain.imp id fun hplain => hplain scope name live hlive

lemma denotes_wrapBuiltin {name : String} {function : Builtin} :
    world.Denotes (TraceM.wrapBuiltin name function) (.builtin function) := by
  refine (denotes_of_kind ?_).2 rfl
  intro held type hkind
  cases hkind

lemma follows_loadFast (hop : instruction.opcode = .loadFast) (hframe : context.frame = world.frame)
    (hnames : ∀ name ∈ context.code.varNames, Text.isIdentifier name.toList = true)
    (hrelated : world.Related state machine)
    (h : TraceM.step context instruction state = .ok (flow, after))
    (hlast : after.Extends world.last) :
    world.Follows context.code instruction state flow after
      (MachineM.step context.code context.frame.globals instruction) machine := by
  simp only [TraceM.step, hop, TraceM.pushing_eq_ok, TraceM.bind_eq_ok, TraceM.ofOption_eq_ok,
    TraceM.loadLocal_eq_ok] at h
  obtain ⟨rfl, value, _, ⟨name, _, ⟨hname, rfl⟩, hload⟩, rfl⟩ := h
  have hidentifier := hnames name (List.mem_of_getElem? hname)
  simp only [MachineM.step, hop]
  refine MachineM.gives_pushing (MachineM.gives_bind (MachineM.gives_ofOption hname ?_))
  refine MachineM.gives_bind (MachineM.gives_get ?_)
  rcases hload with ⟨hknown, rfl⟩ | ⟨hnone, live, middle, hlive, hwrap, rfl⟩
  · obtain ⟨v, hlookup, hv⟩ := hrelated.locals name value hknown
    simp only [hlookup]
    exact MachineM.gives_pure (Or.inl ⟨trivial, related_push hrelated rfl rfl hrelated.stack hv⟩)
  · rw [hframe] at hlive
    have hrecords := TraceM.Computes.wrap context.config .locals live name _ _ _ hwrap
    have hstored : middle.Extends { middle with locals := middle.locals.put name value } :=
      .of_eq rfl rfl (fun _ => id) rfl
    have hv := denotes_wrap_name hidentifier hlive hwrap (hstored.trans (extends_of_pushed hlast))
    simp only [hrelated.unread name hnone, hlive]
    have hmiddle : world.Related middle machine :=
      hrelated.of_stack hrecords.locals hrecords.globals rfl (hrecords.stack ▸ hrelated.stack)
    have hread := hmiddle.read (hrecords.locals ▸ hnone) hlive hv
    exact MachineM.gives_pure (Or.inl ⟨trivial, related_push hread rfl rfl hread.stack hv⟩)

lemma follows_storeFast (hop : instruction.opcode = .storeFast)
    (hrelated : world.Related state machine)
    (h : TraceM.step context instruction state = .ok (flow, after)) :
    world.Follows context.code instruction state flow after
      (MachineM.step context.code context.frame.globals instruction) machine := by
  simp only [TraceM.step, hop, TraceM.bind_eq_ok, TraceM.ofOption_eq_ok, TraceM.pop_eq_ok,
    TraceM.pure_eq_ok, Prod.mk.injEq] at h
  obtain ⟨name, _, ⟨hname, rfl⟩, value, _, ⟨rest, hstack, rfl⟩, _, _, hstore, rfl, rfl⟩ := h
  cases hstore
  have hslots := hrelated.stack
  rw [hstack] at hslots
  simp only [MachineM.step, hop]
  refine MachineM.gives_bind (MachineM.gives_ofOption hname ?_)
  refine MachineM.gives_bind (gives_pop hslots ?_ fun v slots hv hrest => ?_)
  · exact fun hiterator => .iterator (by simp [hstack, Instruction.taken, hop]) hiterator
  · refine MachineM.gives_bind (MachineM.gives_modify (MachineM.gives_pure (Or.inl ⟨trivial, ?_⟩)))
    exact hrelated.store hv hrest

lemma follows_loadGlobal (hop : instruction.opcode = .loadGlobal)
    (hframe : context.frame = world.frame)
    (hnames : ∀ name ∈ context.code.names, Text.isIdentifier name.toList = true)
    (hrelated : world.Related state machine)
    (h : TraceM.step context instruction state = .ok (flow, after))
    (hlast : after.Extends world.last) :
    world.Follows context.code instruction state flow after
      (MachineM.step context.code context.frame.globals instruction) machine := by
  simp only [TraceM.step, hop, TraceM.pushing_eq_ok, TraceM.bind_eq_ok, TraceM.ofOption_eq_ok,
    TraceM.loadGlobal_eq_ok, TraceM.wrapGlobal_eq_ok] at h
  obtain ⟨rfl, value, _, ⟨name, _, ⟨hname, rfl⟩, hload⟩, rfl⟩ := h
  have hidentifier := hnames name (List.mem_of_getElem? hname)
  -- what the name stands for in the run, and the states with the name known
  obtain ⟨hvalue, hrelated'⟩ : world.DenotesGlobal name value ∧ world.Related _ machine := by
    rcases hload with ⟨hknown, rfl⟩ | ⟨-, middle, hwrap, rfl⟩
    · exact ⟨hrelated.globals name value hknown, hrelated⟩
    · have hstored : middle.Extends { middle with globals := middle.globals.put name value } :=
        .of_eq rfl rfl (fun _ => id) rfl
      rcases hwrap with ⟨live, hlive, hwrap⟩ | ⟨hnone, function, hfunction, rfl, rfl⟩
      · rw [hframe] at hlive
        have hrecords := TraceM.Computes.wrap context.config .globals live name _ _ _ hwrap
        have hv := denotes_wrap_name hidentifier hlive hwrap
          (hstored.trans (extends_of_pushed hlast))
        have hmiddle : world.Related middle machine :=
          hrelated.of_stack hrecords.locals hrecords.globals rfl (hrecords.stack ▸ hrelated.stack)
        have hglobal : world.DenotesGlobal name value := Or.inl ⟨live, hlive, hv⟩
        exact ⟨hglobal, hmiddle.readGlobal hglobal⟩
      · rw [hframe] at hnone
        have hglobal : world.DenotesGlobal name (TraceM.wrapBuiltin name function) :=
          Or.inr ⟨hnone, function, hfunction, denotes_wrapBuiltin⟩
        exact ⟨hglobal, hrelated.readGlobal hglobal⟩
  simp only [MachineM.step, hop]
  refine MachineM.gives_pushing (MachineM.gives_bind (MachineM.gives_ofOption hname ?_))
  unfold MachineM.loadGlobal
  rw [hframe]
  rcases hvalue with ⟨v, hlookup, hv⟩ | ⟨hnone, function, hfunction, hv⟩
  · have hlookup : world.frame.globals.lookup name = some v := hlookup
    simp only [hlookup]
    exact MachineM.gives_pure (Or.inl ⟨trivial, related_push hrelated' rfl rfl hrelated'.stack hv⟩)
  · have hnone : world.frame.globals.lookup name = none := hnone
    simp only [hnone, hfunction]
    exact MachineM.gives_pure (Or.inl ⟨trivial, related_push hrelated' rfl rfl hrelated'.stack hv⟩)

end World

end GuardedTrace
