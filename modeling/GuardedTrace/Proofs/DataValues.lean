/-
Values without objects.

A *data* value has no object in it: no layer, routine, library, instance or method.  What primitives
and layers compute from data is data again, and it does not depend on the serial numbers of objects,
because no object is made.  The values of the nodes of a graph are data.
-/
import Mathlib.Tactic
import GuardedTrace.Proofs.Results
import GuardedTrace.Value.Call

namespace GuardedTrace

lemma Slice.pick_map {α β : Type} (f : α → β) (items : List α) (positions : List Nat) :
    pick (items.map f) positions = (pick items positions).map f := by
  simp [pick, List.map_filterMap]

namespace Value

mutual

/-- A value without objects. -/
def Data : Value → Prop
  | none | bool _ | int _ | float _ | str _ | slice _ | array _ | elementType _ | device _
  | primitive _ | builtin _ => True
  | tuple items | list items => DataItems items
  | dict entries => DataEntries entries
  | layer _ | routine _ | boundPrimitive _ _ _ | boundRoutine _ _ _ | library _ | object _ => False
termination_by structural value => value

def DataItems : List Value → Prop
  | [] => True
  | item :: rest => Data item ∧ DataItems rest
termination_by structural items => items

def DataEntries : List (Key × Value) → Prop
  | [] => True
  | (_, item) :: rest => Data item ∧ DataEntries rest
termination_by structural entries => entries

end

lemma dataItems_iff {items : List Value} : DataItems items ↔ ∀ item ∈ items, item.Data := by
  induction items with
  | nil => simp [DataItems]
  | cons item rest ih => simp [DataItems, ih]

lemma dataEntries_iff {entries : List (Key × Value)} :
    DataEntries entries ↔ ∀ entry ∈ entries, entry.2.Data := by
  induction entries with
  | nil => simp [DataEntries]
  | cons entry rest ih => simp [DataEntries, ih]

mutual

lemma data_ofLiteral : ∀ literal : Literal, (ofLiteral literal).Data
  | .none | .bool _ | .int _ | .float _ | .str _ | .slice _ | .elementType _ | .device _ => by
    simp [ofLiteral, Data]
  | .tuple items | .list items => by
    simp only [ofLiteral, Data]
    exact dataItems_ofLiterals items
termination_by structural literal => literal

lemma dataItems_ofLiterals : ∀ items : List Literal, DataItems (ofLiterals items)
  | [] => trivial
  | item :: rest => ⟨data_ofLiteral item, dataItems_ofLiterals rest⟩
termination_by structural items => items

end

lemma mem_of_itemAt {items : List Value} {index : Int64} {item : Value}
    (h : itemAt items index = .ok item) : item ∈ items := by
  unfold itemAt at h
  split at h
  · next found hfound =>
    obtain rfl := Except.ok.inj h
    obtain ⟨position, -, hposition⟩ := Option.bind_eq_some_iff.1 hfound
    exact List.mem_of_getElem? hposition
  · cases h

lemma mem_of_entryAt {entries : List (Key × Value)} {key : Key} {item : Value}
    (h : entryAt entries key = .ok item) : (key, item) ∈ entries := by
  unfold entryAt at h
  split at h
  · next found hfound =>
    obtain rfl := Except.ok.inj h
    obtain ⟨before, after, rfl, -⟩ := List.lookup_eq_some_iff.1 hfound
    exact List.mem_append_right _ (List.mem_cons_self ..)
  · cases h

lemma mem_of_mem_pick {α : Type} {items : List α} {positions : List Nat} {item : α}
    (h : item ∈ Slice.pick items positions) : item ∈ items := by
  obtain ⟨position, -, hitem⟩ := List.mem_filterMap.1 h
  exact List.mem_of_getElem? hitem

/-- An item of a data value is data. -/
lemma Data.subscript {container key item : Value} (h : container.Data) {serial : Nat}
    (hitem : container.subscript serial key = .ok item) : item.Data := by
  unfold Value.subscript at hitem
  split at hitem
  · exact dataItems_iff.1 h _ (mem_of_itemAt hitem)
  · exact dataItems_iff.1 h _ (mem_of_itemAt hitem)
  · obtain ⟨positions, -, rfl⟩ := except_map_eq_ok.1 hitem
    exact dataItems_iff.2 fun item hmem => dataItems_iff.1 h item (mem_of_mem_pick hmem)
  · obtain ⟨positions, -, rfl⟩ := except_map_eq_ok.1 hitem
    exact dataItems_iff.2 fun item hmem => dataItems_iff.1 h item (mem_of_mem_pick hmem)
  · obtain ⟨c, -, rfl⟩ := List.mem_map.1 (mem_of_itemAt hitem)
    trivial
  · exact dataEntries_iff.1 h _ (mem_of_entryAt hitem)
  · exact dataEntries_iff.1 h _ (mem_of_entryAt hitem)
  · obtain ⟨row, -, rfl⟩ := except_map_eq_ok.1 hitem
    trivial
  · exact h.elim
  · exact h.elim
  · cases hitem

/-- Reading an item makes no object, unless the container is a layer. -/
lemma Data.subscript_serial {container : Value} (h : container.Data) (key : Value)
    (serial other : Nat) : container.subscript serial key = container.subscript other key := by
  unfold Value.subscript
  split
  case h_10 => exact h.elim
  all_goals rfl

end Value

/-! ### Arithmetic -/

lemma exists_of_wordResult {operation : Primitive} {word : Option Int64} {value : Value}
    (h : wordResult operation word = .ok value) : ∃ found, value = .int found := by
  cases word with
  | none => cases h
  | some found => exact ⟨found, (Except.ok.inj h).symm⟩

/-- What arithmetic on two numbers gives is a number. -/
lemma isSome_of_intBinary {operation : Primitive} {a b : Int64} {value : Value}
    (h : intBinary operation a b = .ok value) : (Number.of? value).isSome := by
  unfold intBinary at h
  split at h
  all_goals try split at h
  all_goals first
    | (obtain ⟨word, rfl⟩ := exists_of_wordResult h; rfl)
    | (cases h; try rfl)

lemma isSome_of_floatBinary {operation : Primitive} {a b : Double} {value : Value}
    (h : floatBinary operation a b = .ok value) : (Number.of? value).isSome := by
  unfold floatBinary at h
  split at h
  · cases h
  · split at h
    · cases h
    · split at h <;> (cases h; rfl)

lemma data_of_isSome {value : Value} (h : (Number.of? value).isSome) : value.Data := by
  cases value <;> trivial

lemma data_of_arrayBinary {operation : Primitive} {a b : NumArray} {value : Value}
    (h : arrayBinary operation a b = .ok value) : value.Data := by
  unfold arrayBinary at h
  split at h
  · cases h
  · obtain ⟨result, -, rfl⟩ := except_map_eq_ok.1 h
    trivial

lemma data_of_otherBinary {operation : Primitive} {lhs rhs value : Value}
    (h : otherBinary operation lhs rhs = .ok value)
    (hargs : operation = .add → lhs.Data ∧ rhs.Data) :
    value.Data := by
  unfold otherBinary at h
  split at h
  case h_4 =>
    cases h
    obtain ⟨hlhs, hrhs⟩ := hargs rfl
    refine Value.dataItems_iff.2 fun item hitem => ?_
    exact (List.mem_append.1 hitem).elim (Value.dataItems_iff.1 hlhs item)
      (Value.dataItems_iff.1 hrhs item)
  case h_5 =>
    cases h
    obtain ⟨hlhs, hrhs⟩ := hargs rfl
    refine Value.dataItems_iff.2 fun item hitem => ?_
    exact (List.mem_append.1 hitem).elim (Value.dataItems_iff.1 hlhs item)
      (Value.dataItems_iff.1 hrhs item)
  all_goals (cases h; try trivial)

/-- What a primitive of two operands computes is data; only a sum can have parts of its operands. -/
lemma data_of_binary {operation : Primitive} {lhs rhs value : Value}
    (h : binary operation lhs rhs = .ok value) (hargs : operation = .add → lhs.Data ∧ rhs.Data) :
    value.Data := by
  unfold binary at h
  split at h
  · exact data_of_arrayBinary h
  · split at h
    · exact data_of_arrayBinary h
    · exact data_of_otherBinary h hargs
  · split at h
    · exact data_of_arrayBinary h
    · exact data_of_otherBinary h hargs
  · unfold scalarBinary at h
    split at h
    · exact data_of_isSome (isSome_of_intBinary h)
    · exact data_of_isSome (isSome_of_floatBinary h)
    · exact data_of_otherBinary h hargs

lemma data_of_unary {operation : Primitive} {value result : Value}
    (h : unary operation value = .ok result) : result.Data := by
  unfold unary at h
  split at h
  · split at h
    · cases h
      trivial
    · cases h
  · split at h
    · obtain ⟨word, rfl⟩ := exists_of_wordResult h
      trivial
    · cases h
      trivial
    · cases h

/-! ### Calls -/

lemma exists_of_ofSize {size : Nat} {value : Value} (h : Value.ofSize size = .ok value) :
    ∃ word, value = .int word := by
  obtain ⟨word, -, rfl⟩ := except_map_eq_ok.1 h
  exact ⟨word, rfl⟩

lemma data_of_ofSizes {sizes : List Nat} {value : Value} (h : Value.ofSizes sizes = .ok value) :
    value.Data := by
  obtain ⟨items, hitems, rfl⟩ := except_map_eq_ok.1 h
  refine Value.dataItems_iff.2 fun item hitem => ?_
  obtain ⟨size, -, hsize⟩ := exists_of_mem_right (mapM_eq_ok.1 hitems) hitem
  obtain ⟨word, rfl⟩ := exists_of_ofSize hsize
  trivial

namespace Primitive

/-- The ways in which a call of a primitive succeeds. -/
inductive Succeeds (serial : Nat) : Primitive → List Value → Value → Prop where
  | unary {function : Primitive} {arg value : Value} (hkernel : (unaryKernel? function).isSome)
    (h : GuardedTrace.unary function arg = .ok value) : Succeeds serial function [arg] value
  | sum (numbers : NumArray) : Succeeds serial .sum [.array numbers] (.array numbers.sum)
  | sumNumber {arg : Value} (h : (Number.of? arg).isSome) : Succeeds serial .sum [arg] arg
  | getItem {container key value : Value} (h : container.subscript serial key = .ok value) :
    Succeeds serial .getItem [container, key] value
  | sizes {function : Primitive} {numbers : NumArray} {value : Value}
    (hfunction : function = .size ∨ function = .stride)
    (h : Value.ofSizes (function.reported numbers) = .ok value) :
    Succeeds serial function [.array numbers] value
  | size {function : Primitive} {numbers : NumArray} {index : Int64} {value : Value}
    (hfunction : function = .size ∨ function = .stride)
    (h : reportedAt (function.reported numbers) index = .ok value) :
    Succeeds serial function [.array numbers, .int index] value
  | dim {numbers : NumArray} {value : Value} (h : Value.ofSize numbers.rank = .ok value) :
    Succeeds serial .dim [.array numbers] value
  | binary {function : Primitive} {lhs rhs value : Value} (hkernel : (kernel? function).isSome)
    (h : GuardedTrace.binary function lhs rhs = .ok value) :
      Succeeds serial function [lhs, rhs] value

lemma succeeds_of_call {serial : Nat} {function : Primitive} {args : List Value} {value : Value}
    (h : function.call serial args = .ok value) : Succeeds serial function args value := by
  unfold call at h
  split at h
  case h_1 | h_2 | h_3 => exact .unary rfl h
  case h_4 =>
    split at h
    · cases h
      exact .sum _
    · cases h
      exact .sumNumber rfl
    · cases h
      exact .sumNumber rfl
    · cases h
      exact .sumNumber rfl
    · cases h
  case h_5 => exact .getItem h
  case h_6 => exact .sizes (Or.inl rfl) h
  case h_7 => exact .sizes (Or.inr rfl) h
  case h_8 => exact .size (Or.inl rfl) h
  case h_9 => exact .size (Or.inr rfl) h
  case h_10 => exact .dim h
  case h_23 => cases h
  all_goals exact .binary rfl h

lemma exists_of_reportedAt {sizes : List Nat} {index : Int64} {value : Value}
    (h : reportedAt sizes index = .ok value) : ∃ word, value = .int word := by
  unfold reportedAt at h
  split at h
  · exact exists_of_ofSize h
  · cases h

/-- What a primitive computes from data is data. -/
lemma data_of_call {serial : Nat} {function : Primitive} {args : List Value} {value : Value}
    (h : function.call serial args = .ok value) (hargs : ∀ arg ∈ args, arg.Data) : value.Data := by
  cases succeeds_of_call h with
  | unary _ h => exact data_of_unary h
  | sum numbers => trivial
  | sumNumber _ => exact hargs value (by simp)
  | getItem h => exact Value.Data.subscript (hargs _ (by simp)) h
  | sizes _ h => exact data_of_ofSizes h
  | size _ h =>
    obtain ⟨word, rfl⟩ := exists_of_reportedAt h
    trivial
  | dim h =>
    obtain ⟨word, rfl⟩ := exists_of_ofSize h
    trivial
  | binary _ h => exact data_of_binary h fun _ => ⟨hargs _ (by simp), hargs _ (by simp)⟩

/-- A primitive makes no object from data. -/
lemma call_serial {function : Primitive} {args : List Value} (hargs : ∀ arg ∈ args, arg.Data)
    (serial other : Nat) : function.call serial args = function.call other args := by
  unfold call
  split
  case h_5 => exact Value.Data.subscript_serial (hargs _ (by simp)) _ _ _
  all_goals rfl

end Primitive

namespace Layer

mutual

/-- What a layer computes from data is data, and it does not depend on the serial number. -/
lemma forward_serial (serial other : Nat) : ∀ (layer : Layer) (args : List Value),
    (∀ arg ∈ args, arg.Data) →
      layer.forward serial args = layer.forward other args ∧
        ∀ value, layer.forward serial args = .ok value → value.Data
  | ⟨_, typeName, kind, members⟩, args, hargs => by
    cases kind with
    | leaf function =>
      simp only [forward]
      exact ⟨Primitive.call_serial hargs _ _, fun value h => Primitive.data_of_call h hargs⟩
    | scale =>
      match args, hargs with
      | [input], _ =>
        simp only [forward, true_and]
        intro value h
        split at h
        · exact data_of_binary h nofun
        · cases h
      | [], _ | _ :: _ :: _, _ =>
        simp only [forward]
        exact ⟨trivial, nofun⟩
    | sequential =>
      match args, hargs with
      | [input], hargs =>
        simp only [forward]
        exact forwardMembers_serial serial other members input (hargs input (by simp))
      | [], _ | _ :: _ :: _, _ =>
        simp only [forward]
        exact ⟨trivial, nofun⟩
    | list | container =>
      simp only [forward]
      exact ⟨trivial, nofun⟩
termination_by structural layer => layer

lemma forwardMembers_serial (serial other : Nat) :
    ∀ (members : List (String × Value)) (input : Value), input.Data →
      forwardMembers serial members input = forwardMembers other members input ∧
        ∀ value, forwardMembers serial members input = .ok value → value.Data
  | [], input, hinput => by
    simp only [forwardMembers, true_and]
    rintro value ⟨⟩
    exact hinput
  | (_, .layer child) :: rest, input, hinput => by
    obtain ⟨hsame, hdata⟩ := forward_serial serial other child [input] (by simpa using hinput)
    simp only [forwardMembers, ← hsame]
    cases hforward : child.forward serial [input] with
    | error error => exact ⟨rfl, nofun⟩
    | ok output => exact forwardMembers_serial serial other rest output (hdata output hforward)
  | (_, .none) :: rest, input, hinput | (_, .bool _) :: rest, input, hinput
  | (_, .int _) :: rest, input, hinput | (_, .float _) :: rest, input, hinput
  | (_, .str _) :: rest, input, hinput | (_, .tuple _) :: rest, input, hinput
  | (_, .list _) :: rest, input, hinput | (_, .dict _) :: rest, input, hinput
  | (_, .slice _) :: rest, input, hinput | (_, .array _) :: rest, input, hinput
  | (_, .elementType _) :: rest, input, hinput | (_, .device _) :: rest, input, hinput
  | (_, .routine _) :: rest, input, hinput | (_, .boundPrimitive _ _ _) :: rest, input, hinput
  | (_, .boundRoutine _ _ _) :: rest, input, hinput | (_, .primitive _) :: rest, input, hinput
  | (_, .builtin _) :: rest, input, hinput | (_, .library _) :: rest, input, hinput
  | (_, .object _) :: rest, input, hinput => by
    simp only [forwardMembers]
    exact forwardMembers_serial serial other rest input hinput
termination_by structural members => members

end

end Layer

end GuardedTrace
