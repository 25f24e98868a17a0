/-
Moving a trace to another frame.

The only contents of a frame that a symbolic value holds without a guard on them are the values that
a trace cannot look into.  Such a value is kept under the place it was read from, so it can be
*moved* to another frame: what stood at the place is replaced by what stands there in the other
frame.  Everything else stays.

A part of a trace that does not look at the frame does the same before and after moving, and its
results are moved along.  `TraceM.Moves` says this, and the lemmas below show it for one operation
after the other.  What the trace takes from the frame is left to the comparison of two runs.
-/
import Mathlib.Tactic
import GuardedTrace.Proofs.DataValues
import GuardedTrace.Proofs.Growth
import GuardedTrace.Proofs.OrderedKeys

namespace GuardedTrace

/-- The value at a place of a frame, and `none` where there is no such place. -/
def Frame.valueAt (frame : Frame) (scope : Scope) (text : String) : Value :=
  match frame.resolve scope text with
  | .ok value => value
  | .error _ => .none

namespace Symbolic

/-- What stands at a place of a frame; a value without a place stays as it is. -/
def movedValue (frame : Frame) (place : Option (String × Scope)) (value : Value) : Value :=
  match place with
  | some (name, scope) => frame.valueAt scope name
  | none => value

/-- The place that a value was read from. -/
def placeOf? : Option String → Option String → Option (String × Scope)
  | some name, _ => some (name, .locals)
  | none, some name => some (name, .globals)
  | none, none => none

mutual

/-- The value after moving to a frame. -/
def moved (frame : Frame) : Symbolic → Symbolic
  | ⟨kind, support, guards, localName, globalName⟩ =>
    ⟨movedKind frame (placeOf? localName globalName) kind, support, guards, localName, globalName⟩
termination_by structural value => value

/-- The holder of a lazy attribute and the payload of a deferred constant never come from a place,
so they stay. -/
def movedKind (frame : Frame) (place : Option (String × Scope)) : Kind → Kind
  | .iterator items position => .iterator (movedItems frame items) position
  | .sequence kind items => .sequence kind (movedItems frame items)
  | .dict entries => .dict (movedEntries frame entries)
  | .unsupported value type => .unsupported (movedValue frame place value) type
  | .array facts => .array facts
  | .scalar facts => .scalar facts
  | .layer key node => .layer key node
  | .constant literal => .constant literal
  | .deferred payload => .deferred payload
  | .builtin function => .builtin function
  | .attr holder name => .attr holder name
  | .routine function => .routine function
  | .method function receiver => .method function receiver
  | .host item => .host item
  | .library space => .library space
  | .unknown token => .unknown token
termination_by structural kind => kind

def movedItems (frame : Frame) : List Symbolic → List Symbolic
  | [] => []
  | item :: rest => moved frame item :: movedItems frame rest
termination_by structural items => items

def movedEntries (frame : Frame) : List (Key × Symbolic) → List (Key × Symbolic)
  | [] => []
  | (key, item) :: rest => (key, moved frame item) :: movedEntries frame rest
termination_by structural entries => entries

end

variable {frame : Frame}

/-! ### The parts of a moved value -/

lemma movedItems_eq_map (items : List Symbolic) :
    movedItems frame items = items.map (moved frame) := by
  induction items with
  | nil => rfl
  | cons item rest ih => rw [movedItems, ih, List.map_cons]

lemma movedEntries_eq_map (entries : List (Key × Symbolic)) :
    movedEntries frame entries = entries.map fun entry => (entry.1, entry.2.moved frame) := by
  induction entries with
  | nil => rfl
  | cons entry rest ih => rw [movedEntries, ih, List.map_cons]

@[simp] lemma kind_moved (value : Symbolic) : (value.moved frame).kind =
    movedKind frame (placeOf? value.localName value.globalName) value.kind := by
  cases value
  rfl

@[simp] lemma support_moved (value : Symbolic) : (value.moved frame).support = value.support := by
  cases value
  rfl

@[simp] lemma guards_moved (value : Symbolic) : (value.moved frame).guards = value.guards := by
  cases value
  rfl

@[simp] lemma localName_moved (value : Symbolic) :
    (value.moved frame).localName = value.localName := by
  cases value
  rfl

@[simp] lemma globalName_moved (value : Symbolic) :
    (value.moved frame).globalName = value.globalName := by
  cases value
  rfl

@[simp] lemma shown_moved (value : Symbolic) : (value.moved frame).shown = value.shown := by
  obtain ⟨kind, support, guards, localName, globalName⟩ := value
  cases kind <;> rfl

/-- A value of a kind that nothing of the frame is kept in stays as it is. -/
lemma moved_eq_self {value : Symbolic}
    (h : movedKind frame (placeOf? value.localName value.globalName) value.kind = value.kind) :
    value.moved frame = value := by
  obtain ⟨kind, support, guards, localName, globalName⟩ := value
  simp only [moved]
  rw [h]

@[simp] lemma propagate_map_moved (values : List Symbolic) :
    propagate (values.map (moved frame)) = propagate values := by
  simp [propagate, List.foldl_map]

@[simp] lemma derived_map_moved (kind : Kind) (values : List Symbolic) :
    derived kind (values.map (moved frame)) = derived kind values := by
  simp [derived]

@[simp] lemma propagate_moved_cons (value : Symbolic) (values : List Symbolic) :
    propagate (value.moved frame :: values.map (moved frame)) = propagate (value :: values) :=
  propagate_map_moved (value :: values)

@[simp] lemma propagate_moved_pair (a b : Symbolic) :
    propagate [a.moved frame, b.moved frame] = propagate [a, b] :=
  propagate_map_moved [a, b]

@[simp] lemma derived_moved_single (kind : Kind) (value : Symbolic) :
    derived kind [value.moved frame] = derived kind [value] :=
  derived_map_moved kind [value]

@[simp] lemma derived_moved_pair (kind : Kind) (a b : Symbolic) :
    derived kind [a.moved frame, b.moved frame] = derived kind [a, b] :=
  derived_map_moved kind [a, b]

@[simp] lemma derived_moved_cons (kind : Kind) (value : Symbolic) (values : List Symbolic) :
    derived kind (value.moved frame :: values.map (moved frame)) = derived kind (value :: values) :=
  derived_map_moved kind (value :: values)

@[simp] lemma moved_inherit (value : Symbolic) (propagation : Propagation) :
    (value.inherit propagation).moved frame = (value.moved frame).inherit propagation := by
  cases value
  rfl

@[simp] lemma moved_addGuards (value : Symbolic) (guards : GuardSet) :
    (value.addGuards guards).moved frame = (value.moved frame).addGuards guards := by
  cases value
  rfl

lemma moved_ofKind (kind : Kind) (h : (movedKind frame none kind).support = kind.support) :
    (ofKind kind).moved frame = ofKind (movedKind frame none kind) := by
  simp [ofKind, moved, placeOf?, h]

lemma support_movedKind (place : Option (String × Scope)) (kind : Kind) :
    (movedKind frame place kind).support = kind.support := by
  cases kind <;> rfl

lemma moved_derived (kind : Kind) (values : List Symbolic) :
    (derived kind values).moved frame = derived (movedKind frame none kind) values := by
  rw [derived, moved_inherit, moved_ofKind _ (support_movedKind _ _)]
  rfl

lemma moved_sequence (kind : SequenceKind) (items : List Symbolic) :
    (sequence kind items).moved frame = sequence kind (items.map (moved frame)) := by
  simp [sequence, moved_derived, movedKind, movedItems_eq_map]

@[simp] lemma moved_constant (literal : Literal) :
    (constant literal).moved frame = constant literal := rfl

/-! ### Questions about a moved value -/

mutual

@[simp] lemma constant?_moved : ∀ value : Symbolic, (value.moved frame).constant? = value.constant?
  | ⟨kind, support, guards, localName, globalName⟩ => by
    have hshown := @shown_moved frame ⟨kind, support, guards, localName, globalName⟩
    simp only [moved] at hshown ⊢
    simp only [constant?, constantOfKind?_movedKind kind, hshown]
termination_by structural value => value

lemma constantOfKind?_movedKind {place : Option (String × Scope)} : ∀ kind : Kind,
    constantOfKind? (movedKind frame place kind) = constantOfKind? kind
  | .sequence kind items => by
    simp only [movedKind, constantOfKind?, constants?_movedItems items]
  | .array _ | .scalar _ | .layer _ _ | .constant _ | .deferred _ | .builtin _ | .iterator _ _
  | .attr _ _ | .dict _ | .routine _ | .method _ _ | .host _ | .library _ | .unsupported _ _
  | .unknown _ => rfl
termination_by structural kind => kind

lemma constants?_movedItems : ∀ items : List Symbolic,
    constants? (movedItems frame items) = constants? items
  | [] => rfl
  | item :: rest => by
    simp only [movedItems, constants?, constant?_moved item, constants?_movedItems rest]
termination_by structural items => items

end

mutual

@[simp] lemma operand_moved : ∀ (value : Symbolic) (builder : Builder),
    (value.moved frame).operand builder = value.operand builder
  | ⟨kind, support, guards, localName, globalName⟩, builder => by
    have hshown := @shown_moved frame ⟨kind, support, guards, localName, globalName⟩
    simp only [moved] at hshown ⊢
    simp only [operand, operandOfKind_movedKind kind, hshown]
termination_by structural value => value

lemma operandOfKind_movedKind {place : Option (String × Scope)} : ∀ (kind : Kind)
    (builder : Builder), operandOfKind (movedKind frame place kind) builder =
      operandOfKind kind builder
  | .sequence kind items, builder => by
    simp only [movedKind, operandOfKind, operands_movedItems items]
  | .dict entries, builder => by
    simp only [movedKind, operandOfKind, operandEntries_movedEntries entries]
  | .array _, _ | .scalar _, _ | .layer _ _, _ | .constant _, _ | .deferred _, _ | .builtin _, _
  | .iterator _ _, _ | .attr _ _, _ | .routine _, _ | .method _ _, _ | .host _, _ | .library _, _
  | .unsupported _ _, _ | .unknown _, _ => rfl
termination_by structural kind => kind

lemma operands_movedItems : ∀ (items : List Symbolic) (builder : Builder),
    operands (movedItems frame items) builder = operands items builder
  | [], _ => rfl
  | item :: rest, builder => by
    simp only [movedItems, operands, operand_moved item, operands_movedItems rest]
termination_by structural items => items

lemma operandEntries_movedEntries : ∀ (entries : List (Key × Symbolic)) (builder : Builder),
    operandEntries (movedEntries frame entries) builder = operandEntries entries builder
  | [], _ => rfl
  | (key, item) :: rest, builder => by
    simp only [movedEntries, operandEntries, operand_moved item, operandEntries_movedEntries rest]
termination_by structural entries => entries

end

@[simp] lemma operands_map_moved (items : List Symbolic) (builder : Builder) :
    operands (items.map (moved frame)) builder = operands items builder := by
  rw [← movedItems_eq_map, operands_movedItems]

@[simp] lemma isConstant_moved (value : Symbolic) :
    (value.moved frame).isConstant = value.isConstant := by
  simp [isConstant]

@[simp] lemma isGraphValue_moved (value : Symbolic) :
    (value.moved frame).isGraphValue = value.isGraphValue := by
  obtain ⟨kind, support, guards, localName, globalName⟩ := value
  cases kind <;> rfl

@[simp] lemma facts_moved (value : Symbolic) (node : Nat) :
    (value.moved frame).facts node = value.facts node := by
  obtain ⟨kind, support, guards, localName, globalName⟩ := value
  cases kind <;> rfl

@[simp] lemma isScalarLike_moved (value : Symbolic) :
    (value.moved frame).isScalarLike = value.isScalarLike := by
  obtain ⟨kind, support, guards, localName, globalName⟩ := value
  cases kind <;> rfl

@[simp] lemma length?_moved (value : Symbolic) : (value.moved frame).length? = value.length? := by
  obtain ⟨kind, support, guards, localName, globalName⟩ := value
  cases kind with
  | sequence kind items => cases kind <;> simp [moved, movedKind, length?, movedItems_eq_map]
  | dict entries => simp [moved, movedKind, length?, movedEntries_eq_map]
  | _ => rfl

/-! ### Containers -/

lemma layerItems_moved (value : Symbolic) :
    (value.moved frame).layerItems = value.layerItems.map (List.map (moved frame)) := by
  cases hkind : value.kind with
  | layer key node =>
    simp only [layerItems, kind_moved, hkind, movedKind]
    split
    · simp [Except.map, List.mapIdx_eq_zipIdx_map, Function.comp_def, moved_derived, movedKind]
    · rfl
  | _ => simp [layerItems, hkind, movedKind, Except.map]

lemma items_moved (value : Symbolic) :
    (value.moved frame).items = value.items.map (List.map (moved frame)) := by
  cases hkind : value.kind with
  | sequence kind items =>
    cases kind <;>
      simp [Symbolic.items, hkind, movedKind, movedItems_eq_map, Except.map, Function.comp_def]
  | constant literal =>
    simp only [Symbolic.items, kind_moved, hkind, movedKind]
    cases literal.items? <;> simp [Except.map, moved_derived, movedKind, Function.comp_def]
  | layer key node =>
    simp only [Symbolic.items, kind_moved, hkind, movedKind]
    exact layerItems_moved value
  | _ => simp [Symbolic.items, hkind, movedKind, Except.map]

lemma iterate_moved (value : Symbolic) :
    (value.moved frame).iterate = value.iterate.map (moved frame) := by
  simp only [iterate, items_moved]
  cases value.items with
  | error error => rfl
  | ok items => simp [Except.map, moved_derived, movedKind, movedItems_eq_map]

lemma sequenceItem_moved (value key : Symbolic) (kind : SequenceKind) (items : List Symbolic)
    (index : Literal) :
    (value.moved frame).sequenceItem kind (items.map (moved frame)) (key.moved frame) index =
      (value.sequenceItem kind items key index).map (moved frame) := by
  unfold sequenceItem
  split
  · simp only [List.length_map]
    split <;> simp [Except.map, moved_derived, movedKind, movedItems_eq_map, Slice.pick_map]
  · split
    · rfl
    · simp only [List.length_map, List.getElem?_map]
      next position _ =>
        cases hposition : position? position items.length with
        | none => rfl
        | some found => cases hitem : items[found]? <;> simp [hitem, Except.map]

lemma layerItem_moved (value key : Symbolic) (index : Int64) :
    (value.moved frame).layerItem index (key.moved frame) =
      (value.layerItem index key).map (moved frame) := by
  cases hkind : value.kind with
  | layer path node =>
    simp only [layerItem, kind_moved, hkind, movedKind]
    split
    · rfl
    · split
      · simp [Except.map, moved_derived, movedKind]
      · rfl
  | _ => simp [layerItem, hkind, movedKind, Except.map]

lemma lookup_movedEntries (entries : List (Key × Symbolic)) (key : Key) :
    (movedEntries frame entries).lookup key = (entries.lookup key).map (moved frame) := by
  rw [movedEntries_eq_map, Table.lookup_map_snd]

lemma movedEntries_eq_iff {entries others : List (Key × Symbolic)} :
    others = movedEntries frame entries ↔
      List.Forall₂ (Table.Related fun item other => other = item.moved frame) entries others := by
  induction entries generalizing others with
  | nil => simp [movedEntries]
  | cons entry rest ih =>
    obtain ⟨key, item⟩ := entry
    cases others with
    | nil => simp [movedEntries]
    | cons other others =>
      obtain ⟨key', item'⟩ := other
      simp only [movedEntries, List.cons.injEq, Prod.mk.injEq, ih, List.forall₂_cons,
        Table.Related, eq_comm (a := key')]

lemma movedEntries_ofListOrdered (entries : List (Key × Symbolic)) :
    Table.ofListOrdered Key.cmp (movedEntries frame entries) =
      movedEntries frame (Table.ofListOrdered Key.cmp entries) :=
  movedEntries_eq_iff.2 (Table.ofListOrdered_related (movedEntries_eq_iff.1 rfl))

lemma getItem_moved (value key : Symbolic) :
    (value.moved frame).getItem (key.moved frame) = (value.getItem key).map (moved frame) := by
  unfold getItem
  rw [constant?_moved]
  cases key.constant? with
  | error error => rfl
  | ok index =>
    simp only [ok_bind]
    cases hkind : value.kind with
    | sequence kind items =>
      simp only [kind_moved, hkind, movedKind, movedItems_eq_map]
      cases kind with
      | list => exact sequenceItem_moved value key .list items index
      | tuple => exact sequenceItem_moved value key .tuple items index
      | slice => simp [Except.map]
    | dict entries =>
      simp only [kind_moved, hkind, movedKind, lookup_movedEntries]
      cases index.toKey? with
      | none => rfl
      | some entry => cases hentry : entries.lookup entry <;> simp [hentry, Except.map]
    | constant literal =>
      simp only [kind_moved, hkind, movedKind]
      cases literal.getItem index <;> simp [Except.map, moved_derived, movedKind]
    | layer path node =>
      simp only [kind_moved, hkind, movedKind]
      cases index with
      | int position => exact layerItem_moved value key position
      | _ => rfl
    | _ => simp [hkind, movedKind, Except.map]

lemma advance_moved (value : Symbolic) : (value.moved frame).advance =
    value.advance.map (Option.map (Prod.map (moved frame) (moved frame))) := by
  cases hkind : value.kind with
  | iterator items position =>
    simp only [advance, kind_moved, hkind, movedKind, movedItems_eq_map, List.getElem?_map]
    cases items[position]? <;> simp [Except.map, moved, movedKind, movedItems_eq_map, Prod.map]
  | _ => simp [advance, hkind, movedKind, Except.map]

lemma callDeferred_moved (callee : Symbolic) (args : List Symbolic) :
    (callee.moved frame).callDeferred (args.map (moved frame)) =
      (callee.callDeferred args).map (moved frame) := by
  cases hkind : callee.kind with
  | deferred payload =>
    simp only [callDeferred, kind_moved, hkind, movedKind]
    cases payload.constant? with
    | error error => rfl
    | ok literal =>
      match args with
      | [] => simp [Except.map, moved_derived, movedKind]
      | [index] =>
        have hpair := fun kind => @derived_moved_pair frame kind callee index
        cases hindex : index.constant? with
        | error error => simp [hindex, Except.map]
        | ok key =>
          simp only [List.map_cons, List.map_nil, constant?_moved, hindex, ok_bind]
          cases literal.getItem key <;> simp [Except.map, hpair, moved_derived, movedKind]
      | first :: second :: rest => simp [Except.map]
  | _ => simp [callDeferred, hkind, movedKind, Except.map]

end Symbolic

/-! ### Results of nodes -/

open Symbolic (moved movedKind movedItems_eq_map placeOf?)

variable {frame : Frame}

lemma itemResult_map_moved (node : Nat) (operands : List Symbolic) :
    itemResult node (operands.map (moved frame)) = itemResult node operands := by
  cases operands with
  | nil => rfl
  | cons container rest =>
    simp only [List.map_cons, itemResult, Symbolic.kind_moved]
    cases container.kind with
    | array facts =>
      simp only [movedKind]
      cases rest with
      | nil => rfl
      | cons key rest =>
        simp only [List.map_cons, List.head?_cons, Option.map_some, Symbolic.kind_moved]
        cases hkey : key.kind <;> simp only [movedKind]
    | _ => rfl

lemma nodeResult_map_moved (node : Nat) (function : Primitive) (operands : List Symbolic) :
    nodeResult node function (operands.map (moved frame)) = nodeResult node function operands := by
  have hitem := @itemResult_map_moved frame node operands
  have hfirst : (operands.map (moved frame)).head?.map (·.facts node) =
      operands.head?.map (·.facts node) := by
    cases operands <;> simp
  have hsecond : (operands.map (moved frame))[1]?.map (·.facts node) =
      operands[1]?.map (·.facts node) := by
    simp [Function.comp_def]
  have hall : (operands.map (moved frame)).all Symbolic.isScalarLike =
      operands.all Symbolic.isScalarLike := by
    simp [List.all_map, Function.comp_def]
  unfold nodeResult
  rw [hfirst, hsecond, hall, hitem, List.length_map]

/-- The result of a node is a value of the graph. -/
lemma nodeResult_cases (node : Nat) (function : Primitive) (operands : List Symbolic) :
    (∃ facts, nodeResult node function operands = .array facts) ∨
      ∃ facts, nodeResult node function operands = .scalar facts := by
  have hitem : (∃ facts, itemResult node operands = .array facts) ∨
      ∃ facts, itemResult node operands = .scalar facts := by
    unfold itemResult
    split
    · exact Or.inr ⟨_, rfl⟩
    · split
      · split <;> exact Or.inl ⟨_, rfl⟩
      · exact Or.inr ⟨_, rfl⟩
  unfold nodeResult
  dsimp only
  split
  · split <;> exact Or.inl ⟨_, rfl⟩
  · exact Or.inr ⟨_, rfl⟩
  · split <;> exact Or.inr ⟨_, rfl⟩
  · split <;> exact Or.inr ⟨_, rfl⟩
  · exact hitem
  · split
    · exact Or.inr ⟨_, rfl⟩
    · exact Or.inl ⟨_, rfl⟩

@[simp] lemma movedKind_nodeResult (place : Option (String × Scope)) (node : Nat)
    (function : Primitive) (operands : List Symbolic) :
    movedKind frame place (nodeResult node function operands) =
      nodeResult node function operands := by
  rcases nodeResult_cases node function operands with ⟨facts, h⟩ | ⟨facts, h⟩ <;> rw [h] <;> rfl

/-- Two values at whatever places are concatenated as they are. -/
lemma concatenated?_movedKind (function : Primitive) (place place' : Option (String × Scope))
    (lhs rhs : Kind) :
    TraceM.concatenated? function (movedKind frame place lhs) (movedKind frame place' rhs) =
      (TraceM.concatenated? function lhs rhs).map (movedKind frame none) := by
  cases lhs with
  | sequence kind head =>
    cases rhs with
    | sequence kind' tail =>
      cases function <;> try rfl
      cases kind <;> cases kind' <;>
        simp [movedKind, TraceM.concatenated?, movedItems_eq_map]
    | _ => cases function <;> cases kind <;> rfl
  | _ => cases function <;> rfl

/-! ### Moving states -/

/-- The table with all values moved. -/
def movedTable (frame : Frame) (table : Table String Symbolic) : Table String Symbolic :=
  table.map fun entry => (entry.1, entry.2.moved frame)

lemma lookup_movedTable (table : Table String Symbolic) (name : String) :
    (movedTable frame table).lookup name = (table.lookup name).map (moved frame) :=
  Table.lookup_map_snd (moved frame) name table

lemma movedTable_put (table : Table String Symbolic) (name : String) (value : Symbolic) :
    movedTable frame (table.put name value) = (movedTable frame table).put name
      (value.moved frame) := by
  induction table with
  | nil => rfl
  | cons entry rest ih =>
    obtain ⟨other, old⟩ := entry
    simp only [movedTable, Table.put, List.map_cons] at ih ⊢
    split
    · rfl
    · rw [List.map_cons, ih]

/-- The state with all values moved. -/
def Tracer.moved (frame : Frame) (state : Tracer) : Tracer :=
  { state with
    stack := state.stack.map (Symbolic.moved frame)
    locals := movedTable frame state.locals
    globals := movedTable frame state.globals }

namespace TraceM

variable {α β : Type} {f : α → α} {g : β → β} {x y : TraceM α}

/-- Where `x` succeeds from a state, `y` succeeds from the moved state, and state and result are
moved; the result by `f`. -/
def Moves (frame : Frame) (f : α → α) (x y : TraceM α) : Prop :=
  ∀ state value after, x state = .ok (value, after) →
    y (state.moved frame) = .ok (f value, after.moved frame)

namespace Moves

lemma of_eq (h : ∀ state, y (state.moved frame) =
    (x state).map (Prod.map f (Tracer.moved frame))) : Moves frame f x y := by
  intro state value after hx
  rw [h state, hx]
  rfl

lemma pure {value value' : α} (h : value' = f value) :
    Moves frame f (pure value) (pure value') := by
  rw [h]
  exact of_eq fun _ => rfl

lemma bind {k l : α → TraceM β} (hx : Moves frame f x y)
    (hk : ∀ value, Moves frame g (k value) (l (f value))) :
    Moves frame g (x >>= k) (y >>= l) := by
  intro state result after h
  obtain ⟨value, middle, hvalue, hresult⟩ := bind_eq_ok.1 h
  exact bind_eq_ok.2 ⟨f value, middle.moved frame, hx _ _ _ hvalue, hk _ _ _ _ hresult⟩

lemma ite {c : Prop} [Decidable c] {x' y' : TraceM α} (h : Moves frame f x y)
    (h' : Moves frame f x' y') : Moves frame f (if c then x else x') (if c then y else y') := by
  split
  · exact h
  · exact h'

/-- A part that never succeeds may break off with another cause. -/
lemma breakOff {cause : BreakCause} : Moves frame f (breakOff cause) y := by
  intro state value after h
  cases h

lemma ofAnswer {answer answer' : Answer α} (h : answer' = answer.map f) :
    Moves frame f (ofAnswer answer) (ofAnswer answer') := by
  rw [h]
  cases answer <;> exact of_eq fun _ => rfl

lemma ofRun (result : Run α) : Moves frame id (ofRun result) (ofRun result) := by
  cases result <;> exact of_eq fun _ => rfl

lemma ofOption (cause : BreakCause) (value : Option α) :
    Moves frame id (ofOption cause value) (ofOption cause value) := by
  cases value <;> exact of_eq fun _ => rfl

lemma get : Moves frame (Tracer.moved frame) get get := of_eq fun _ => rfl

lemma modify {change change' : Tracer → Tracer}
    (h : ∀ state : Tracer, change' (state.moved frame) = (change state).moved frame) :
    Moves frame id (modify change : TraceM Unit) (modify change') := by
  refine of_eq fun state => ?_
  show Except.ok ((), change' (state.moved frame)) = Except.ok ((), (change state).moved frame)
  rw [h state]

lemma push (value : Symbolic) :
    Moves frame id (push value) (push (value.moved frame)) := by
  refine of_eq fun state => ?_
  show Except.ok ((), { state.moved frame with
    guards := GuardSet.union state.guards (value.moved frame).guards
    stack := value.moved frame :: (state.moved frame).stack }) = _
  rw [Symbolic.guards_moved]
  rfl

lemma pop : Moves frame (moved frame) pop pop := by
  refine of_eq fun state => ?_
  unfold TraceM.pop
  cases hstack : state.stack <;> simp [Tracer.moved, hstack, Except.map, Prod.map]

lemma popTwo : Moves frame (Prod.map (moved frame) (moved frame)) popTwo popTwo := by
  refine of_eq fun state => ?_
  unfold TraceM.popTwo
  match hstack : state.stack with
  | [] | [_] => simp [Tracer.moved, hstack, Except.map]
  | top :: second :: rest => simp [Tracer.moved, hstack, Except.map, Prod.map]

lemma popMany (count : Nat) :
    Moves frame (List.map (moved frame)) (popMany count) (popMany count) := by
  refine of_eq fun state => ?_
  unfold TraceM.popMany
  simp only [Tracer.moved, List.length_map]
  split
  · simp [Except.map, Prod.map, Tracer.moved, List.map_take, List.map_drop, List.map_reverse]
  · rfl

lemma record (operation : Operation) (operands : List Operand) :
    Moves frame id (record operation operands) (record operation operands) :=
  of_eq fun _ => rfl

lemma operand (value : Symbolic) :
    Moves frame id (operand value) (operand (value.moved frame)) := by
  refine of_eq fun state => ?_
  have hbuilder : (state.moved frame).builder = state.builder := rfl
  unfold TraceM.operand
  rw [Symbolic.operand_moved, hbuilder]
  split <;> rfl

lemma operands (values : List Symbolic) :
    Moves frame id (operands values) (operands (values.map (moved frame))) := by
  refine of_eq fun state => ?_
  have hbuilder : (state.moved frame).builder = state.builder := rfl
  unfold TraceM.operands
  rw [Symbolic.operands_map_moved, hbuilder]
  split <;> rfl

lemma register (key : String) (layer : Layer) :
    Moves frame id (register key layer) (register key layer) :=
  of_eq fun _ => rfl

lemma unknown (values : List Symbolic) :
    Moves frame (moved frame) (unknown values) (unknown (values.map (moved frame))) := by
  refine of_eq fun state => ?_
  show Except.ok (Symbolic.derived _ (values.map (moved frame)), _) = _
  rw [Symbolic.derived_map_moved]
  show _ = Except.ok ((Symbolic.derived _ values).moved frame, _)
  rw [Symbolic.moved_derived]
  rfl

/-! ### Instructions -/

lemma emitCall (function : Primitive) (args : List Symbolic) :
    Moves frame (moved frame) (emitCall function args)
      (emitCall function (args.map (moved frame))) := by
  refine bind (operands args) fun _ => bind (record _ _) fun node => pure ?_
  simp [nodeResult_map_moved, Symbolic.moved_derived]

lemma emitMethod (function : Primitive) (receiver : Symbolic) (args : List Symbolic) :
    Moves frame (moved frame) (emitMethod function receiver args)
      (emitMethod function (receiver.moved frame) (args.map (moved frame))) := by
  refine bind (operand receiver) fun base => ?_
  simp only [id, Symbolic.shown_moved]
  split
  · refine bind (operands args) fun _ => bind (record _ _) fun node => pure ?_
    have hresult := @nodeResult_map_moved frame node function (receiver :: args)
    rw [List.map_cons] at hresult
    simp [id, hresult, Symbolic.moved_derived]
  · exact breakOff

lemma foldedLiteral (result : Value) (cause : TypeName → UnsupportedCause) :
    Moves frame id (foldedLiteral result cause) (foldedLiteral result cause) :=
  ofOption _ _

lemma binaryOp (function : Primitive) (lhs rhs : Symbolic) :
    Moves frame (moved frame) (binaryOp function lhs rhs)
      (binaryOp function (lhs.moved frame) (rhs.moved frame)) := by
  unfold TraceM.binaryOp
  simp only [Symbolic.constant?_moved, Symbolic.isGraphValue_moved, Symbolic.kind_moved,
    concatenated?_movedKind]
  split
  · exact bind (ofRun _) fun _ => bind (foldedLiteral _ _) fun _ =>
      pure (by simp [Symbolic.moved_derived, movedKind])
  · refine ite (emitCall function [lhs, rhs]) ?_
    cases concatenated? function lhs.kind rhs.kind with
    | some kind => exact pure (by simp [Symbolic.moved_derived])
    | none => exact unknown [lhs, rhs]

lemma negate (value : Symbolic) :
    Moves frame (moved frame) (negate value) (negate (value.moved frame)) := by
  unfold TraceM.negate
  rw [Symbolic.constant?_moved, Symbolic.isGraphValue_moved]
  split
  · exact bind (ofRun _) fun _ => bind (foldedLiteral _ _) fun _ =>
      pure (by simp [Symbolic.moved_derived, movedKind])
  · exact ite (emitCall .neg [value]) (unknown [value])

lemma lazyAttr_moved {holder : Symbolic} (name : String) :
    (lazyAttr holder name).moved frame = lazyAttr holder name := by
  simp [lazyAttr, Symbolic.moved_derived, movedKind]

lemma constOrLazyAttr_moved (holder : Symbolic) (name : String) :
    (constOrLazyAttr holder name).moved frame = constOrLazyAttr holder name := by
  unfold constOrLazyAttr
  split
  · simp [Symbolic.moved_derived, movedKind]
  · exact lazyAttr_moved name

lemma wrapMember_moved (library : Symbolic) (member : Value) :
    (wrapMember library member).moved frame = wrapMember library member := by
  unfold wrapMember
  cases member
  all_goals
    simp only [Symbolic.moved_derived]
    try split
    all_goals rfl

lemma layerAttr (config : Config) (holder : Symbolic) (key : String) (node : Layer)
    (name : String) : Moves frame (moved frame) (layerAttr config holder key node name)
      (layerAttr config holder key node name) := by
  refine bind (ofOption _ _) fun member => ?_
  simp only [id]
  split
  · exact pure (by simp [Symbolic.moved_derived, movedKind])
  · exact bind (register _ _) fun _ => bind (record _ _) fun _ =>
      pure (by simp [Symbolic.moved_derived, movedKind])
  · exact pure (by simp [Symbolic.moved_derived, movedKind])
  · exact pure (by simp [Symbolic.moved_derived, movedKind])
  · split
    · exact pure (by simp [Symbolic.moved_derived, movedKind])
    · exact pure (lazyAttr_moved name).symm

/-- The attribute of a value that no place of the frame is kept for. -/
lemma getAttr (config : Config) {holder : Symbolic} (name : String)
    (h : ∀ value type, holder.kind = .unsupported value type → nameAndScope? holder = none) :
    Moves frame (moved frame) (getAttr config holder name)
      (getAttr config (holder.moved frame) name) := by
  have hplace : nameAndScope? holder = placeOf? holder.localName holder.globalName := rfl
  cases hkind : holder.kind with
  | layer key node =>
    rw [Symbolic.moved_eq_self (by rw [hkind, movedKind])]
    simp only [TraceM.getAttr, hkind]
    exact layerAttr config holder key node name
  | unsupported value type =>
    have hnone := h value type hkind
    rw [Symbolic.moved_eq_self (by rw [← hplace, hnone, hkind, movedKind, Symbolic.movedValue])]
    simp only [TraceM.getAttr, hkind, hnone]
    exact pure (constOrLazyAttr_moved holder name).symm
  | array facts =>
    rw [Symbolic.moved_eq_self (by rw [hkind, movedKind])]
    simp only [TraceM.getAttr, hkind]
    refine pure ?_
    simp only [Symbolic.constAttr?, hkind]
    cases Symbolic.factsAttr? facts name with
    | none => exact (lazyAttr_moved name).symm
    | some literal =>
      simp only [Option.map_some, Option.getD_some]
      split <;> simp [Symbolic.moved_derived, movedKind]
  | attr inner step =>
    rw [Symbolic.moved_eq_self (by rw [hkind, movedKind])]
    simp only [TraceM.getAttr, hkind]
    exact pure (constOrLazyAttr_moved holder name).symm
  | scalar facts =>
    rw [Symbolic.moved_eq_self (by rw [hkind, movedKind])]
    simp only [TraceM.getAttr, hkind]
    exact pure (lazyAttr_moved name).symm
  | library space =>
    rw [Symbolic.moved_eq_self (by rw [hkind, movedKind])]
    simp only [TraceM.getAttr, hkind]
    exact bind (ofOption _ _) fun member => pure (wrapMember_moved holder member).symm
  | _ =>
    simp only [TraceM.getAttr, Symbolic.kind_moved, hkind, movedKind]
    exact unknown [holder]

lemma subscript (container key : Symbolic) :
    Moves frame (moved frame) (subscript container key)
      (subscript (container.moved frame) (key.moved frame)) := by
  unfold TraceM.subscript
  simp only [Symbolic.isConstant_moved, Symbolic.isGraphValue_moved, Symbolic.shown_moved,
    Symbolic.kind_moved]
  refine ite (ite (emitCall .getItem [container, key])
    (ofAnswer (Symbolic.getItem_moved container key))) ?_
  cases container.kind with
  | array facts => exact ite (emitCall .getItem [container, key]) breakOff
  | _ => exact breakOff

lemma dictEntries : ∀ pairs : List (Literal × Symbolic),
    Moves frame (Symbolic.movedEntries frame) (dictEntries pairs)
      (dictEntries (pairs.map fun pair => (pair.1, pair.2.moved frame)))
  | [] => pure rfl
  | _ :: rest =>
    bind (ofOption _ _) fun _ => bind (dictEntries rest) fun _ => pure rfl

lemma buildDict (keys : Symbolic) (values : List Symbolic) :
    Moves frame (moved frame) (buildDict keys values)
      (buildDict (keys.moved frame) (values.map (moved frame))) := by
  refine bind (f := id) (ofAnswer (by rw [Symbolic.constant?_moved]; cases keys.constant? <;> rfl))
    fun literal => ?_
  simp only [id]
  split
  · next literals =>
    rw [List.length_map]
    refine ite ?_ breakOff
    have hzip : literals.zip (values.map (moved frame)) =
        (literals.zip values).map fun pair => (pair.1, pair.2.moved frame) := by
      rw [List.zip_map_right]
      rfl
    rw [hzip]
    refine bind (dictEntries _) fun entries => pure ?_
    simp [Symbolic.moved_derived, movedKind, Symbolic.movedEntries_ofListOrdered]
  · exact breakOff

lemma arrayRows (array : Symbolic) : ∀ rows : List Nat,
    Moves frame (List.map (moved frame)) (arrayRows array rows)
      (arrayRows (array.moved frame) rows)
  | [] => pure rfl
  | _ :: rest =>
    bind (ofRun _) fun index =>
      bind (emitCall .getItem [array, Symbolic.constant (.int index)]) fun _ =>
        bind (arrayRows array rest) fun _ => pure rfl

lemma unpackItems (value : Symbolic) (expected : Nat) :
    Moves frame (List.map (moved frame)) (unpackItems value expected)
      (unpackItems (value.moved frame) expected) := by
  have hknown : Moves frame (List.map (moved frame))
      (do
        let items ← TraceM.ofAnswer value.items
        if items.length = expected then Pure.pure items
        else TraceM.breakOff (.run (.value (.unpack expected items.length))))
      (do
        let items ← TraceM.ofAnswer (value.moved frame).items
        if items.length = expected then Pure.pure items
        else TraceM.breakOff (.run (.value (.unpack expected items.length)))) := by
    refine bind (ofAnswer (Symbolic.items_moved value)) fun items => ?_
    rw [List.length_map]
    exact ite (pure rfl) breakOff
  unfold TraceM.unpackItems
  simp only [Symbolic.kind_moved, Symbolic.shown_moved]
  cases value.kind with
  | array facts => exact bind (ofOption _ _) fun rows => ite (arrayRows value _) breakOff
  | _ => exact hknown

lemma pushAll : ∀ values : List Symbolic,
    Moves frame id (pushAll values) (pushAll (values.map (moved frame)))
  | [] => pure rfl
  | value :: rest => bind (pushAll rest) fun _ => push value

lemma constantArgs?_map_moved (args : List Symbolic) :
    constantArgs? (args.map (moved frame)) = constantArgs? args := by
  simp [constantArgs?, List.mapM_map, Function.comp_def]

lemma foldBuiltin (function : Builtin) (callee : Symbolic) (args : List Symbolic) :
    Moves frame (moved frame) (foldBuiltin function callee args)
      (foldBuiltin function (callee.moved frame) (args.map (moved frame))) := by
  unfold TraceM.foldBuiltin
  simp only [constantArgs?_map_moved, Symbolic.propagate_moved_cons]
  cases constantArgs? args with
  | some values =>
    exact bind (ofRun _) fun _ => bind (foldedLiteral _ _) fun _ => pure (by
      rw [Symbolic.moved_inherit]
      rfl)
  | none =>
    match function, args with
    | .abs, [value] =>
      simp only [List.map_cons, List.map_nil, Symbolic.isGraphValue_moved]
      refine ite (bind (emitCall .abs [value]) fun _ => pure ?_) breakOff
      rw [Symbolic.moved_inherit]
    | .abs, [] | .abs, _ :: _ :: _ | .len, _ | .min, _ | .max, _ | .range, _ | .int, _
    | .float, _ => exact breakOff

lemma callLength (callee container : Symbolic) :
    Moves frame (moved frame) (callLength callee container)
      (callLength (callee.moved frame) (container.moved frame)) := by
  unfold TraceM.callLength
  simp only [Symbolic.length?_moved, Symbolic.kind_moved, Symbolic.propagate_moved_pair]
  cases container.length? with
  | some length =>
    exact bind (ofRun _) fun _ => pure (by
      rw [Symbolic.moved_inherit]
      rfl)
  | none =>
    cases container.kind with
    | array facts =>
      refine bind (emitMethod .size container [Symbolic.constant (.int 0)]) fun _ => pure ?_
      rw [Symbolic.moved_inherit]
    | _ => exact foldBuiltin .len callee [container]

lemma callBuiltin (function : Builtin) (callee : Symbolic) (args : List Symbolic) :
    Moves frame (moved frame) (callBuiltin function callee args)
      (callBuiltin function (callee.moved frame) (args.map (moved frame))) := by
  match function, args with
  | .len, [container] => exact callLength callee container
  | .len, [] | .len, _ :: _ :: _ | .abs, _ | .min, _ | .max, _ | .range, _ | .int, _
  | .float, _ =>
    simp only [TraceM.callBuiltin, List.map_cons, List.map_nil]
    exact foldBuiltin _ callee _

lemma inputFacts?_map_moved (args : List Symbolic) :
    inputFacts? (args.map (moved frame)) = inputFacts? args := by
  cases args with
  | nil => rfl
  | cons arg rest =>
    simp only [List.map_cons, inputFacts?, Symbolic.kind_moved]
    cases arg.kind <;> rfl

lemma callLayer (config : Config) (key : String) (node : Layer) (callee : Symbolic)
    (args : List Symbolic) : Moves frame (moved frame) (callLayer config key node callee args)
      (callLayer config key node (callee.moved frame) (args.map (moved frame))) := by
  unfold TraceM.callLayer
  rw [inputFacts?_map_moved]
  split
  · exact breakOff
  · exact breakOff
  · exact bind (operands args) fun _ => bind (register _ _) fun _ => bind (record _ _) fun _ =>
      pure (by simp [Symbolic.moved_derived, movedKind])

/-- The receiver of a method is a value of the graph. -/
lemma movedKind_of_arrayMethod? {holder : Symbolic} {name : String} {function : Primitive}
    (h : arrayMethod? holder name = some function) {place : Option (String × Scope)} :
    movedKind frame place holder.kind = holder.kind := by
  unfold arrayMethod? Symbolic.isNode at h
  cases hkind : holder.kind <;> simp [hkind, movedKind] at h ⊢

lemma callValue (config : Config) (callee : Symbolic) (args : List Symbolic) :
    Moves frame (moved frame) (callValue config callee args)
      (callValue config (callee.moved frame) (args.map (moved frame))) := by
  unfold TraceM.callValue
  simp only [Symbolic.propagate_moved_cons, Symbolic.kind_moved, constantArgs?_map_moved,
    Symbolic.shown_moved]
  cases hkind : callee.kind with
  | deferred payload => exact ofAnswer (Symbolic.callDeferred_moved callee args)
  | builtin function => exact callBuiltin function callee args
  | host item =>
    cases item with
    | primitive function =>
      simp only [movedKind]
      cases constantArgs? args with
      | some values =>
        exact bind (ofRun _) fun _ => bind (foldedLiteral _ _) fun _ => pure (by
          rw [Symbolic.moved_inherit]
          rfl)
      | none =>
        refine bind (emitCall function args) fun _ => pure ?_
        rw [Symbolic.moved_inherit]
    | elementType | device => exact breakOff
  | layer key node => exact callLayer config key node callee args
  | attr holder name =>
    simp only [movedKind]
    cases hmethod : arrayMethod? holder name with
    | some function =>
      have hemit := @emitMethod frame function holder args
      rw [Symbolic.moved_eq_self (movedKind_of_arrayMethod? hmethod)] at hemit
      refine bind hemit fun _ => pure ?_
      rw [Symbolic.moved_inherit]
    | none => exact breakOff
  | unsupported value type => cases value <;> exact breakOff
  | _ => exact breakOff

lemma staticTruth (value : Symbolic) :
    Moves frame id (staticTruth value) (staticTruth (value.moved frame)) := by
  unfold TraceM.staticTruth
  simp only [Symbolic.constant?_moved, Symbolic.length?_moved, Symbolic.kind_moved,
    Symbolic.shown_moved]
  split
  · exact ofRun _
  · cases value.kind with
    | sequence kind items | dict entries =>
      simp only [movedKind]
      split
      · exact pure rfl
      · exact breakOff
    | layer key node =>
      simp only [movedKind]
      split <;> exact pure rfl
    | routine | method | host | builtin | library => exact pure rfl
    | _ => exact breakOff

lemma popJump (target : UInt32) (jumpWhen : Bool) :
    Moves frame id (popJump target jumpWhen) (popJump target jumpWhen) :=
  bind pop fun condition => bind (staticTruth condition) fun _ => pure rfl

lemma pushing {result result' : TraceM Symbolic} (h : Moves frame (moved frame) result result') :
    Moves frame id (pushing result) (pushing result') :=
  bind h fun value => bind (push value) fun _ => pure rfl

lemma stackBinary (function : Primitive) :
    Moves frame id (stackBinary function) (stackBinary function) :=
  pushing (bind popTwo fun pair => binaryOp function pair.1 pair.2)

lemma buildSlice (count : UInt32) :
    Moves frame (moved frame) (buildSlice count) (buildSlice count) := by
  refine ite (bind (popMany 2) fun parts => pure ?_)
    (ite (bind (popMany 3) fun parts => pure ?_) breakOff)
  · simp [Symbolic.moved_sequence]
  · rw [Symbolic.moved_sequence]

lemma forIter (target : UInt32) : Moves frame id (forIter target) (forIter target) := by
  refine bind pop fun iterator => bind (ofAnswer (Symbolic.advance_moved iterator)) fun next => ?_
  cases next with
  | none => exact pure rfl
  | some pair => exact bind (push pair.2) fun _ => bind (push pair.1) fun _ => pure rfl

end Moves

end TraceM

end GuardedTrace
