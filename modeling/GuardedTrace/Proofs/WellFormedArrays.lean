/-
Well-formed arrays stay well formed.

Every operation that makes an array from well-formed ones makes a well-formed one.  A step of a
direct run only holds arrays that were held before it or that it makes so, and so does a node of a
compiled graph: whatever a run or an evaluation returns holds well-formed arrays only, when the
bindings of the frame, or the inputs, parameters and layers of the graph, do.
-/
import GuardedTrace.Direct.Run
import GuardedTrace.Proofs.GraphRuns
import GuardedTrace.Proofs.HeldArrays
import GuardedTrace.Proofs.OrderedKeys

namespace GuardedTrace

/-! ### Operations -/

lemma lt_of_position? {index : Int64} {size position : Nat}
    (h : position? index size = some position) :
    position < size := by
  simp only [position?, Option.ite_none_right_eq_some, Option.some.injEq] at h
  omega

lemma length_rowMajorStrides (shape : List Nat) :
    (rowMajorStrides shape).length = shape.length := by
  induction shape with
  | nil => rfl
  | cons size rest ih => simp [rowMajorStrides, ih]

namespace NumArray

variable {a b array row result : NumArray}

lemma wellFormed_contiguous {elementType : ElementType} {device : Device}
    {shape : List Nat} {data : List Double}
    (hlength : data.length = elementCount shape) (hcount : elementCount shape ≤ maxSize) :
    (contiguous elementType device shape data).WellFormed :=
  ⟨hlength, hcount, length_rowMajorStrides shape⟩

lemma wellFormed_scalar (value : Double) (elementType : ElementType) (device : Device) :
    (scalar value elementType device).WellFormed :=
  wellFormed_contiguous rfl (by decide)

lemma WellFormed.map (h : array.WellFormed) (elementType : ElementType) (f : Double → Double) :
    (array.map elementType f).WellFormed :=
  wellFormed_contiguous (by rw [List.length_map, h.length_data]) h.count_le

/-- Arrays of one shape have as many elements; an array without dimensions takes the shape of the
other. -/
lemma WellFormed.zipWith (ha : a.WellFormed) (hb : b.WellFormed) {f : Double → Double → Double}
    (h : a.zipWith b f = .ok result) : result.WellFormed := by
  unfold NumArray.zipWith at h
  split at h
  · next hshape =>
    cases h
    refine wellFormed_contiguous ?_ ha.count_le
    rw [List.length_zipWith, ha.length_data, hb.length_data, hshape, Nat.min_self]
  · split at h
    · cases h
      exact ha.map _ _
    · cases h
      exact hb.map _ _
    · cases h

/-- The number of elements of a row is a size, because the rows before the last one fit into the
array as well. -/
lemma WellFormed.select (harray : array.WellFormed) {index : Int64}
    (h : array.select index = .ok row) :
    row.WellFormed := by
  unfold NumArray.select at h
  split at h
  · cases h
  · next size rest hshape =>
    split at h
    · cases h
    · next position hposition =>
      simp only at h
      split at h
      · next hle =>
        cases h
        have hlength : array.data.length = size * elementCount rest := by
          rw [harray.length_data, hshape]
          rfl
        have hcount : elementCount rest ≤ maxSize := by
          have hfits := harray.count_le
          rw [← harray.length_data, hlength] at hfits
          exact le_trans (Nat.le_mul_of_pos_left _
            (Nat.zero_lt_of_lt (lt_of_position? hposition))) hfits
        have hwrapped : wrappedCount rest = elementCount rest :=
          Nat.mod_eq_of_lt (Nat.lt_succ_of_le hcount)
        refine wellFormed_contiguous ?_ hcount
        rw [List.length_take, List.length_drop, ← hwrapped]
        omega
      · cases h

lemma closed_wellFormed : Closed WellFormed where
  scalar := wellFormed_scalar
  retyped _ _ h := ⟨h.length_data, h.count_le, h.length_strides⟩
  map _ _ _ h := h.map _ _
  zipWith ha hb h := ha.zipWith hb h
  select harray h := harray.select h

end NumArray

/-! ### Direct runs -/

variable {P : NumArray → Prop}

/-- All arrays that an entry of the stack holds have a property. -/
def Slot.Only (P : NumArray → Prop) : Slot → Prop
  | .value held => held.Only P
  | .iterator rest => ∀ item ∈ rest, item.Only P

/-- All arrays that a machine holds have a property. -/
structure Machine.Only (P : NumArray → Prop) (machine : Machine) : Prop where
  stack : ∀ slot ∈ machine.stack, slot.Only P
  locals : ∀ name value, machine.locals.lookup name = some value → value.Only P

/-- All arrays that a request passes on have a property. -/
def Request.Only (P : NumArray → Prop) : Request → Prop
  | .next | .jump _ => True
  | .finish result => result.Only P
  | .enter _ args => ∀ arg ∈ args, arg.Only P

namespace MachineM

variable {α β : Type} {x : MachineM α} {f : α → MachineM β} {R : α → Prop} {S : β → Prop}

/-- A part of a direct run that keeps a property of all arrays, with a property of its result. -/
def Keeps (P : NumArray → Prop) (R : α → Prop) (x : MachineM α) : Prop :=
  ∀ machine value after, machine.Only P → x machine = .ok (value, after) → after.Only P ∧ R value

namespace Keeps

lemma pure {value : α} (h : R value) : Keeps P R (pure value : MachineM α) := by
  intro machine result after hmachine hx
  cases hx
  exact ⟨hmachine, h⟩

lemma fail {error : RunError} : Keeps P R (fail error : MachineM α) := nofun

lemma bind (hx : Keeps P R x) (hf : ∀ value, R value → Keeps P S (f value)) :
    Keeps P S (x >>= f) := by
  intro machine result after hmachine h
  obtain ⟨⟨value, middle⟩, hmiddle, hlast⟩ := except_bind_eq_ok.1 h
  obtain ⟨hkept, hvalue⟩ := hx _ _ _ hmachine hmiddle
  exact hf value hvalue _ _ _ hkept hlast

lemma ofRun {run : Run α} (h : ∀ value, run = .ok value → R value) : Keeps P R (ofRun run) := by
  cases run with
  | ok value => exact pure (h value rfl)
  | error error => exact fail

lemma ofOption {fault : SystemFault} {option : Option α} :
    Keeps P (fun _ => True) (ofOption fault option) := by
  cases option with
  | some value => exact pure trivial
  | none => exact fail

lemma get : Keeps P (Machine.Only P) (get : MachineM Machine) := by
  intro machine value after hmachine h
  cases h
  exact ⟨hmachine, hmachine⟩

lemma serial : Keeps P (fun _ => True) serial := by
  intro machine value after hmachine h
  cases h
  exact ⟨⟨hmachine.stack, hmachine.locals⟩, trivial⟩

lemma pushSlot {slot : Slot} (h : slot.Only P) : Keeps P (fun _ => True) (pushSlot slot) := by
  intro machine value after hmachine hx
  cases hx
  exact ⟨⟨List.forall_mem_cons.2 ⟨h, hmachine.stack⟩, hmachine.locals⟩, trivial⟩

lemma push {value : Value} (h : value.Only P) : Keeps P (fun _ => True) (push value) := pushSlot h

lemma popSlot : Keeps P (Slot.Only P) popSlot := by
  intro machine slot after hmachine h
  unfold MachineM.popSlot at h
  split at h
  · next hstack =>
    cases h
    obtain ⟨hslot, hrest⟩ := List.forall_mem_cons.1 (hstack ▸ hmachine.stack)
    exact ⟨⟨hrest, hmachine.locals⟩, hslot⟩
  · cases h

lemma pop : Keeps P (Value.Only P) pop := by
  refine bind popSlot fun slot hslot => ?_
  cases slot with
  | value value => exact pure hslot
  | iterator rest => exact fail

lemma popOnto : ∀ (count : Nat) {values : List Value}, (∀ value ∈ values, value.Only P) →
    Keeps P (fun taken => ∀ value ∈ taken, value.Only P) (popOnto count values)
  | 0, _, h => pure h
  | count + 1, _, h => bind pop fun _ hvalue => popOnto count (List.forall_mem_cons.2 ⟨hvalue, h⟩)

lemma popMany (count : Nat) :
    Keeps P (fun values => ∀ value ∈ values, value.Only P) (popMany count) :=
  popOnto count (by simp)

lemma pushAll : ∀ {values : List Value}, (∀ value ∈ values, value.Only P) →
    Keeps P (fun _ => True) (pushAll values)
  | [], _ => pure trivial
  | value :: rest, h => by
    obtain ⟨hvalue, hrest⟩ := List.forall_mem_cons.1 h
    exact bind (pushAll hrest) fun _ _ => push hvalue

lemma storeLocal {name : String} {value : Value} (h : value.Only P) :
    Keeps P (fun _ => True)
      (modify fun machine => { machine with
        locals := machine.locals.put name value } : MachineM Unit) := by
  intro machine result after hmachine hx
  cases hx
  exact ⟨⟨hmachine.stack, Table.forall_lookup_put hmachine.locals h⟩, trivial⟩

/-! ### Instructions -/

lemma pushing {result : MachineM Value} (h : Keeps P (Value.Only P) result) :
    Keeps P (Request.Only P) (pushing result) :=
  bind h fun _ hvalue => bind (push hvalue) fun _ _ => pure trivial

lemma stackBinary (hP : NumArray.Closed P) (function : Primitive) :
    Keeps P (Request.Only P) (stackBinary function) :=
  pushing (bind pop fun _ hrhs => bind pop fun _ hlhs => ofRun fun _ => only_binary hP hlhs hrhs)

lemma buildSlice (count : UInt32) : Keeps P (Value.Only P) (buildSlice count) := by
  unfold MachineM.buildSlice
  split
  · refine bind (popMany _) fun parts _ =>
      bind (ofRun (R := fun _ => True) fun _ _ => trivial) fun bounds _ => ?_
    split
    · exact pure nofun
    · exact pure nofun
    · exact fail
  · exact fail

lemma buildDict (count : Nat) : Keeps P (Value.Only P) (buildDict count) := by
  refine bind pop fun keys _ => bind (popMany count) fun values hvalues => ?_
  split
  · split
    · refine bind (ofRun (R := fun _ => True) fun _ _ => trivial) fun keys _ => pure ?_
      refine Value.only_dict.2 fun entry hentry => ?_
      exact hvalues _ (List.of_mem_zip (Table.mem_of_mem_ofListOrdered hentry)).2
    · exact fail
  · exact fail

lemma callValue (hP : NumArray.Closed P) {callee : Value} {args : List Value}
    (hcallee : callee.Only P)
    (hargs : ∀ arg ∈ args, arg.Only P) : Keeps P (Request.Only P) (callValue callee args) := by
  unfold MachineM.callValue
  split
  · exact pushing (bind serial fun _ _ => ofRun fun _ => Primitive.only_call hP hargs)
  · exact pushing (ofRun fun _ => Builtin.only_call hP hargs)
  · exact pushing (bind serial fun _ _ => ofRun fun _ =>
      Layer.only_forward hP _ _ _ hcallee hargs _)
  · exact pure hargs
  · exact pushing (bind serial fun _ _ => ofRun fun _ => Primitive.only_call hP
      (List.forall_mem_cons.2 ⟨Value.only_boundPrimitive.1 hcallee, hargs⟩))
  · exact pure (List.forall_mem_cons.2 ⟨Value.only_boundRoutine.1 hcallee, hargs⟩)
  · exact fail

lemma popJump (target : UInt32) (jumpWhen : Bool) :
    Keeps P (Request.Only P) (popJump target jumpWhen) := by
  refine bind pop fun _ _ => bind (ofRun (R := fun _ => True) fun _ _ => trivial)
    fun truth _ => pure ?_
  split <;> trivial

lemma forIter (target : UInt32) : Keeps P (Request.Only P) (forIter target) := by
  refine bind popSlot fun slot hslot => ?_
  match slot, hslot with
  | .iterator (item :: rest), hslot =>
    obtain ⟨hitem, hrest⟩ := List.forall_mem_cons.1 hslot
    exact bind (pushSlot hrest) fun _ _ => bind (push hitem) fun _ _ => pure trivial
  | .iterator [], _ => exact pure trivial
  | .value _, _ => exact fail

lemma loadGlobal {globals : Table String Value} (name : String)
    (hglobals : ∀ name value, globals.lookup name = some value → value.Only P) :
    Keeps P (Value.Only P) (loadGlobal globals name) := by
  unfold MachineM.loadGlobal
  split
  · next hvalue => exact pure (hglobals _ _ hvalue)
  · exact pure nofun
  · exact fail

/-- Every instruction keeps the property of all arrays. -/
lemma step (hP : NumArray.Closed P) {code : Code} {globals : Table String Value}
    (hglobals : ∀ name value, globals.lookup name = some value → value.Only P)
    (instruction : Instruction) :
    Keeps P (Request.Only P) (step code globals instruction) := by
  unfold MachineM.step
  cases instruction.opcode with
  | nop | jumpAbsolute => exact pure trivial
  | popTop => exact bind popSlot fun _ _ => pure trivial
  | rotTwo =>
    exact bind popSlot fun _ htop => bind popSlot fun _ hsecond =>
      bind (pushSlot htop) fun _ _ => bind (pushSlot hsecond) fun _ _ => pure trivial
  | dupTop =>
    refine bind get fun machine hmachine => ?_
    split
    · next top rest hstack =>
      have htop : top.Only P := hmachine.stack top (by simp [hstack])
      exact bind (pushSlot htop) fun _ _ => pure trivial
    · exact fail
  | loadConst => exact pushing (bind ofOption fun literal _ => pure (Value.only_ofLiteral literal))
  | loadFast =>
    refine pushing (bind ofOption fun name _ => bind get fun machine hmachine => ?_)
    split
    · next hvalue => exact pure (hmachine.locals _ _ hvalue)
    · exact fail
  | storeFast =>
    exact bind ofOption fun _ _ => bind pop fun _ hvalue =>
      bind (storeLocal hvalue) fun _ _ => pure trivial
  | loadGlobal => exact pushing (bind ofOption fun name _ => loadGlobal name hglobals)
  | loadAttr | loadMethod =>
    exact pushing (bind ofOption fun _ _ => bind pop fun _ hbase => bind serial fun _ _ =>
      ofRun fun _ => Value.only_getAttr hbase)
  | callFunction | callMethod =>
    exact bind (popMany _) fun _ hargs => bind pop fun _ hcallee => callValue hP hcallee hargs
  | binaryAdd | binarySubtract | binaryMultiply | binaryTrueDivide | binaryFloorDivide
  | binaryModulo =>
    exact stackBinary hP _
  | compareOp => exact bind ofOption fun _ _ => stackBinary hP _
  | unaryNegative => exact pushing (bind pop fun _ hvalue => ofRun fun _ => only_unary hP hvalue)
  | binarySubscr =>
    exact pushing (bind pop fun _ _ => bind pop fun _ hcontainer => bind serial fun _ _ =>
      ofRun fun _ => Value.only_subscript hP hcontainer)
  | buildTuple => exact pushing (bind (popMany _) fun _ hitems => pure (Value.only_tuple.2 hitems))
  | buildList => exact pushing (bind (popMany _) fun _ hitems => pure (Value.only_list.2 hitems))
  | buildSlice => exact pushing (buildSlice _)
  | buildConstKeyMap => exact pushing (buildDict _)
  | unpackSequence =>
    refine bind pop fun _ hsequence => bind (ofRun fun _ => Value.only_iterate hP hsequence)
      fun items hitems => ?_
    split
    · exact bind (pushAll hitems) fun _ _ => pure trivial
    · exact fail
  | getIter =>
    exact bind pop fun _ hiterable =>
      bind (ofRun fun _ => Value.only_iterate hP hiterable) fun _ hitems =>
      bind (pushSlot hitems) fun _ _ => pure trivial
  | forIter => exact forIter _
  | popJumpIfFalse | popJumpIfTrue => exact popJump _ _
  | returnValue => exact bind pop fun _ hresult => pure hresult

end Keeps

end MachineM

lemma Table.forall_lookup_ofList {Q : Value → Prop} {entries : List (String × Value)}
    (h : ∀ entry ∈ entries, Q entry.2) :
    ∀ name value, (Table.ofList entries).lookup name = some value → Q value := by
  have hfold (table : Table String Value)
      (htable : ∀ name value, table.lookup name = some value → Q value) :
      ∀ name value,
        (entries.foldl (fun table entry => table.put entry.1 entry.2) table).lookup
          name = some value →
        Q value := by
    induction entries generalizing table with
    | nil => exact htable
    | cons entry rest ih =>
      obtain ⟨hentry, hrest⟩ := List.forall_mem_cons.1 h
      exact ih hrest _ (Table.forall_lookup_put htable hentry)
  exact hfold [] nofun

/-- A called routine sees its arguments only. -/
lemma only_enterRoutine {depth : Nat} {code : Code} {args : List Value}
    {locals : Table String Value}
    (hargs : ∀ arg ∈ args, arg.Only P) (h : enterRoutine depth code args = .ok locals)
    (created : Nat) :
    Machine.Only P { locals, created } := by
  unfold enterRoutine at h
  split at h
  · cases h
  · split at h
    · cases h
      exact ⟨by simp, Table.forall_lookup_ofList fun entry hentry =>
        hargs _ (List.of_mem_zip hentry).2⟩
    · cases h

/-- A run keeps the property of all arrays, through the routines that it calls. -/
lemma only_runMachine (hP : NumArray.Closed P) {globals : Table String Value}
    (hglobals : ∀ name value, globals.lookup name = some value → value.Only P)
    {fuel depth : Nat} {code : Code}
    {machine : Machine} {result : Value} {created : Nat} (hmachine : machine.Only P)
    (h : runMachine globals fuel depth code machine = some (.ok (result, created))) :
    result.Only P := by
  induction fuel generalizing depth code machine result created with
  | zero => cases h
  | succ fuel ih =>
    rw [runMachine] at h
    split at h
    · cases h
    next instruction hinstruction =>
    have hkept {request : Request} {after : Machine}
        (hstep : (MachineM.step code globals instruction).run machine = .ok (request, after)) :
        after.Only P ∧ request.Only P :=
      MachineM.Keeps.step hP hglobals instruction _ _ _ hmachine hstep
    split at h
    · cases h
    · next after hstep =>
      obtain ⟨⟨hstack, hlocals⟩, -⟩ := hkept hstep
      refine ih ?_ h
      exact ⟨hstack, hlocals⟩
    · next target after hstep =>
      obtain ⟨⟨hstack, hlocals⟩, -⟩ := hkept hstep
      refine ih ?_ h
      exact ⟨hstack, hlocals⟩
    · next value after hstep =>
      cases h
      exact (hkept hstep).2
    · next callee args after hstep =>
      obtain ⟨⟨hstack, hlocals⟩, hargs⟩ := hkept hstep
      split at h
      · cases h
      next calleeLocals henter =>
      -- The routine and what follows its return are both runs with less fuel.
      split at h
      · cases h
      · cases h
      · next returned made hcallee =>
        have hreturned : returned.Only P := ih (only_enterRoutine hargs henter _) hcallee
        refine ih ?_ h
        exact ⟨List.forall_mem_cons.2 ⟨hreturned, hstack⟩, hlocals⟩

/-! ### Graphs -/

namespace Operand

variable {reader : Nat} {values : List Value}

mutual

/-- The value of an operand is made of values of nodes and literals. -/
lemma only_evaluate (hvalues : ∀ value ∈ values, value.Only P) :
    ∀ {operand : Operand} {value : Value}, evaluate reader values operand = .ok value → value.Only P
  | node id, value, h => by
    simp only [evaluate] at h
    split at h
    · next found hfound =>
      cases h
      exact hvalues _ (List.mem_of_getElem? hfound)
    · cases h
  | literal payload, value, h => by
    cases h
    exact Value.only_ofLiteral payload
  | tuple items, value, h => by
    obtain ⟨found, hfound, rfl⟩ := except_map_eq_ok.1 h
    exact Value.only_tuple.2 (only_evaluateItems hvalues hfound)
  | list items, value, h => by
    obtain ⟨found, hfound, rfl⟩ := except_map_eq_ok.1 h
    exact Value.only_list.2 (only_evaluateItems hvalues hfound)
  | dict entries, value, h => by
    obtain ⟨found, hfound, rfl⟩ := except_map_eq_ok.1 h
    exact Value.only_dict.2 fun entry hentry =>
      only_evaluateEntries hvalues hfound entry (Table.mem_of_mem_ofListOrdered hentry)
  | slice start stop step, value, h => by
    simp only [evaluate, except_bind_eq_ok] at h
    obtain ⟨_, _, _, _, _, _, _, _, _, _, _, _, h⟩ := h
    cases h
    nofun
termination_by structural operand => operand

lemma only_evaluateItems (hvalues : ∀ value ∈ values, value.Only P) :
    ∀ {items : List Operand} {found : List Value},
      evaluateItems reader values items = .ok found → ∀ value ∈ found, value.Only P
  | [], found, h => by
    cases h
    simp
  | item :: rest, found, h => by
    simp only [evaluateItems, except_bind_eq_ok] at h
    obtain ⟨value, hvalue, others, hothers, h⟩ := h
    cases h
    exact List.forall_mem_cons.2 ⟨only_evaluate hvalues hvalue, only_evaluateItems hvalues hothers⟩
termination_by structural items => items

lemma only_evaluateEntries (hvalues : ∀ value ∈ values, value.Only P) :
    ∀ {entries : List (Key × Operand)} {found : List (Key × Value)},
      evaluateEntries reader values entries = .ok found → ∀ entry ∈ found, entry.2.Only P
  | [], found, h => by
    cases h
    simp
  | (key, item) :: rest, found, h => by
    simp only [evaluateEntries, except_bind_eq_ok] at h
    obtain ⟨value, hvalue, others, hothers, h⟩ := h
    cases h
    exact List.forall_mem_cons.2
      ⟨only_evaluate hvalues hvalue, only_evaluateEntries hvalues hothers⟩
termination_by structural entries => entries

end

end Operand

namespace CompiledGraph

variable {compiled : CompiledGraph} {inputs values : List Value} {result : Value}

/-- A compiled graph holds an array, among its parameters or in its layers. -/
def Holds (compiled : CompiledGraph) (numbers : NumArray) : Prop :=
  (∃ id value, compiled.parameters.lookup id = some value ∧ value.Holds numbers) ∨
    ∃ key layer, compiled.layers.lookup key = some layer ∧ (Value.layer layer).Holds numbers

/-- A node computes from the values before it, and from the parameters and layers of the graph. -/
lemma only_compute (hP : NumArray.Closed P)
    (hcompiled : ∀ numbers, compiled.Holds numbers → P numbers)
    (hvalues : ∀ value ∈ values, value.Only P) {node : Node} {value : Value}
    (h : compiled.compute values node = .ok value) : value.Only P := by
  have hcall {function : Primitive}
      (hoperation : node.operation = .callPrimitive function ∨
        node.operation = .callMethod function) :
      value.Only P := by
    obtain ⟨args, hargs, hvalue⟩ := (compute_call hoperation).1 h
    exact Primitive.only_call hP (Operand.only_evaluateItems hvalues hargs) hvalue
  cases hoperation : node.operation with
  | parameter target =>
    have hparameter := (compute_parameter hoperation).1 h
    exact fun numbers hnumbers => hcompiled numbers (Or.inl ⟨_, _, hparameter, hnumbers⟩)
  | callPrimitive function => exact hcall (Or.inl hoperation)
  | callMethod function => exact hcall (Or.inr hoperation)
  | callLayer key =>
    obtain ⟨layer, args, hlayer, hargs, hvalue⟩ := (compute_callLayer hoperation).1 h
    have hparts : (Value.layer layer).Only P :=
      fun numbers hnumbers => hcompiled numbers (Or.inr ⟨_, _, hlayer, hnumbers⟩)
    exact Layer.only_forward hP _ _ _ hparts (Operand.only_evaluateItems hvalues hargs) _ hvalue
  | readAttr name =>
    obtain ⟨base, hargs, hvalue⟩ := (compute_readAttr hoperation).1 h
    exact Value.only_getAttr (Operand.only_evaluateItems hvalues hargs _ (by simp)) hvalue
  | placeholder _ | output => simp [compute, hoperation] at h

/-- The nodes are computed one after the other, each from those before it. -/
lemma only_run (hP : NumArray.Closed P)
    (hcompiled : ∀ numbers, compiled.Holds numbers → P numbers) :
    ∀ {nodes : List Node} {inputs values : List Value}, (∀ input ∈ inputs, input.Only P) →
      (∀ value ∈ values, value.Only P) →
        run compiled nodes inputs values = .ok result → result.Only P
  | [], _, _, _, _, h => by cases h
  | node :: rest, inputs, values, hinputs, hvalues, h => by
    -- The values of the nodes so far, and one more.
    have hone {value : Value} (hvalue : value.Only P) : ∀ other ∈ values ++ [value], other.Only P :=
      List.forall_mem_append.2 ⟨hvalues, by simpa using hvalue⟩
    unfold run at h
    split at h
    · split at h
      · next input others =>
        obtain ⟨hinput, hothers⟩ := List.forall_mem_cons.1 hinputs
        exact only_run hP hcompiled hothers (hone hinput) h
      · cases h
    · obtain ⟨args, hargs, h⟩ := except_bind_eq_ok.1 h
      split at h
      · cases h
        exact Operand.only_evaluateItems hvalues hargs _ (by simp)
      · cases h
    · obtain ⟨value, hvalue, h⟩ := except_bind_eq_ok.1 h
      exact only_run hP hcompiled hinputs (hone (only_compute hP hcompiled hvalues hvalue)) h

end CompiledGraph

/-! ### Whole runs -/

/-- A frame holds an array. -/
def Frame.Holds (frame : Frame) (numbers : NumArray) : Prop :=
  ∃ scope name value, frame.lookup? scope name = some value ∧ value.Holds numbers

/-- **Arrays stay well formed.**  When all arrays that the bindings of a frame hold are well formed,
so are all arrays that the value returned by a direct run holds.  When all arrays that the inputs of
a compiled graph hold are well formed, and all that its parameters and layers hold, so are all
arrays that the result of its execution holds.  That the number of elements is a size excludes no
array: data in memory are never more. -/
theorem arrays_stay_well_formed :
    (∀ (fuel : Nat) (code : Code) (frame : Frame) (result : Value),
        (∀ numbers, frame.Holds numbers → numbers.WellFormed) →
          code.run fuel frame = some (.ok result) →
          ∀ numbers, result.Holds numbers → numbers.WellFormed) ∧
      ∀ (compiled : CompiledGraph) (inputs : List Value) (result : Value),
        (∀ input ∈ inputs, ∀ numbers, input.Holds numbers → numbers.WellFormed) →
          (∀ numbers, compiled.Holds numbers → numbers.WellFormed) →
            compiled.execute inputs = .ok result →
            ∀ numbers, result.Holds numbers → numbers.WellFormed := by
  constructor
  · intro fuel code frame result hframe h
    have hscope (scope : Scope) : ∀ name value, frame.lookup? scope name = some value →
        value.Only NumArray.WellFormed :=
      fun name value hvalue numbers hnumbers =>
        hframe numbers ⟨scope, name, value, hvalue, hnumbers⟩
    obtain ⟨outcome, houtcome, h⟩ := Option.map_eq_some_iff.1 h
    obtain ⟨⟨value, created⟩, rfl, rfl⟩ := except_map_eq_ok.1 h
    have hstart : Machine.Only NumArray.WellFormed { locals := frame.locals } :=
      ⟨by simp, hscope .locals⟩
    exact only_runMachine NumArray.closed_wellFormed (hscope .globals) hstart houtcome
  · intro compiled inputs result hinputs hcompiled h
    unfold CompiledGraph.execute at h
    split at h
    · exact CompiledGraph.only_run NumArray.closed_wellFormed hcompiled hinputs (by simp) h
    · cases h

/-- `first, second = x`, then `double(first + second)`. -/
def doubledRows : Code :=
  { id := 0, name := "doubled_rows", argCount := 1, varNames := ["x"],
    names := ["double"], constants := []
    instructions := [⟨.loadGlobal, 0⟩, ⟨.loadFast, 0⟩, ⟨.unpackSequence, 2⟩, ⟨.binaryAdd, 0⟩,
      ⟨.callFunction, 1⟩, ⟨.returnValue, 0⟩] }

/-- Two rows of three elements, and the routine `y + y`. -/
def doubledRowsFrame : Frame :=
  { locals := [("x", .array (.contiguous .float64 .cpu [2, 3] [⟨0⟩, ⟨1⟩, ⟨2⟩, ⟨3⟩, ⟨4⟩, ⟨5⟩]))]
    globals := [("double", .routine ⟨.declared 1,
      { id := 1, name := "double", argCount := 1, varNames := ["y"], names := [], constants := []
        instructions := [⟨.loadFast, 0⟩, ⟨.loadFast, 0⟩, ⟨.binaryAdd, 0⟩, ⟨.returnValue, 0⟩] }⟩)] }

/-- The call of a layer that scales by a weight, plus the weight. -/
def scaledGraph (weight : Value) : CompiledGraph :=
  { nodes := [⟨0, .placeholder "x", []⟩, ⟨1, .callLayer "m", [.node 0]⟩,
    ⟨2, .parameter "m.weight", []⟩,
      ⟨3, .callPrimitive .add, [.node 1, .node 2]⟩, ⟨4, .output, [.node 3]⟩]
    layers := [("m", .weighted (.declared 1) weight)]
    parameters := [(2, weight)]
    inputCount := 1 }

lemma wellFormed_doubledRowsFrame {numbers : NumArray} (h : doubledRowsFrame.Holds numbers) :
    numbers.WellFormed := by
  obtain ⟨scope, name, value, hvalue, hnumbers⟩ := h
  have honly : value.Only NumArray.WellFormed := by
    cases scope with
    | locals =>
      refine Value.only_of_lookup (fun entry hentry => ?_) hvalue
      obtain rfl := List.mem_singleton.1 hentry
      exact Value.only_array.2 (NumArray.wellFormed_contiguous rfl (by decide))
    | globals =>
      refine Value.only_of_lookup (fun entry hentry => ?_) hvalue
      obtain rfl := List.mem_singleton.1 hentry
      nofun
  exact honly numbers hnumbers

lemma wellFormed_scaledGraph {weight : Value} (hweight : weight.Only NumArray.WellFormed)
    {numbers : NumArray}
    (h : (scaledGraph weight).Holds numbers) : numbers.WellFormed := by
  rcases h with ⟨id, value, hvalue, hnumbers⟩ | ⟨key, layer, hlayer, hnumbers⟩
  · refine Value.only_of_lookup (fun entry hentry => ?_) hvalue numbers hnumbers
    obtain rfl := List.mem_singleton.1 hentry
    exact hweight
  · obtain ⟨before, after, hlayers, -⟩ := List.lookup_eq_some_iff.1 hlayer
    have hmem : (key, layer) ∈ (scaledGraph weight).layers := by
      rw [hlayers]
      exact List.mem_append_right _ (List.mem_cons_self ..)
    obtain ⟨rfl, rfl⟩ := Prod.mk.inj (List.mem_singleton.1 hmem)
    refine Value.only_layer.2 (fun member hmember => ?_) numbers hnumbers
    obtain rfl := List.mem_singleton.1 hmember
    exact hweight

/-- Rows are unpacked, added and passed to a routine; and an array meets a weight without
dimensions. -/
theorem doubledRows_stay_well_formed :
    (∃ numbers, doubledRows.run 16 doubledRowsFrame = some (.ok (.array numbers)) ∧
      numbers.shape = [3] ∧
      numbers.WellFormed) ∧
      ∃ numbers, (scaledGraph (.array (.scalar ⟨1⟩ .float32 .cpu))).execute
          [.array (.contiguous .int64 .cpu [2] [⟨0⟩, ⟨1⟩])] = .ok (.array numbers) ∧
        numbers.shape = [2] ∧ numbers.WellFormed := by
  constructor
  · obtain ⟨numbers, hrun, hshape⟩ : ∃ numbers,
        doubledRows.run 16 doubledRowsFrame = some (.ok (.array numbers)) ∧ numbers.shape = [3] :=
      ⟨_, rfl, rfl⟩
    exact ⟨numbers, hrun, hshape, arrays_stay_well_formed.1 _ _ _ _
      (fun _ => wellFormed_doubledRowsFrame) hrun
      numbers .array⟩
  · obtain ⟨numbers, hrun, hshape⟩ : ∃ numbers,
        (scaledGraph (.array (.scalar ⟨1⟩ .float32 .cpu))).execute
        [.array (.contiguous .int64 .cpu [2] [⟨0⟩, ⟨1⟩])] = .ok (.array numbers) ∧
          numbers.shape = [2] :=
      ⟨_, rfl, rfl⟩
    refine ⟨numbers, hrun, hshape, arrays_stay_well_formed.2 _ _ _ ?_
      (fun _ => wellFormed_scaledGraph ?_) hrun
      numbers .array⟩
    · intro input hinput
      obtain rfl := List.mem_singleton.1 hinput
      exact Value.only_array.2 (NumArray.wellFormed_contiguous rfl (by decide))
    · exact Value.only_array.2 (NumArray.wellFormed_scalar _ _ _)

end GuardedTrace
