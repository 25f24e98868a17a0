/-
Arrays that values hold.

A value *holds* an array when the array is the value, or is found in it by going through containers,
layers and their members, libraries, objects and the receivers of methods.  Arrays that a program
computes come from arrays that its values hold, by a few operations only: so what those operations
keep is kept by everything that primitives, builtins and layers compute.
-/
import GuardedTrace.Proofs.DataValues

namespace GuardedTrace

namespace NumArray

/-- A property that computing with arrays keeps. -/
structure Closed (P : NumArray → Prop) : Prop where
  scalar : ∀ value elementType device, P (scalar value elementType device)
  retyped : ∀ array elementType, P array → P { array with elementType }
  map : ∀ array elementType f, P array → P (array.map elementType f)
  zipWith : ∀ {a b f result}, P a → P b → a.zipWith b f = .ok result → P result
  select : ∀ {array index row}, P array → array.select index = .ok row → P row

lemma Closed.sum {P : NumArray → Prop} (h : Closed P) (array : NumArray) :
    P array.sum := h.scalar _ _ _

end NumArray

namespace Value

/-- A value holds an array. -/
inductive Holds (numbers : NumArray) : Value → Prop where
  | array : Holds numbers (.array numbers)
  | tuple {items : List Value} {item : Value} (hitem : item ∈ items) (h : Holds numbers item) :
    Holds numbers (.tuple items)
  | list {items : List Value} {item : Value} (hitem : item ∈ items) (h : Holds numbers item) :
    Holds numbers (.list items)
  | dict {entries : List (Key × Value)} {key : Key} {item : Value} (hentry : (key, item) ∈ entries)
    (h : Holds numbers item) : Holds numbers (.dict entries)
  | layer {node : Layer} {name : String} {member : Value} (hmember : (name, member) ∈ node.members)
    (h : Holds numbers member) : Holds numbers (.layer node)
  | library {space : Library} {name : String} {member : Value}
    (hmember : (name, member) ∈ space.members)
    (h : Holds numbers member) : Holds numbers (.library space)
  | object {owner : Instance} {name : String} {attr : Value}
    (hattr : (name, attr) ∈ owner.attributes)
    (h : Holds numbers attr) : Holds numbers (.object owner)
  | boundPrimitive {id : Identity} {receiver : Value} {function : Primitive}
    (h : Holds numbers receiver) :
    Holds numbers (.boundPrimitive id receiver function)
  | boundRoutine {id : Identity} {receiver : Value} {function : Routine}
    (h : Holds numbers receiver) :
    Holds numbers (.boundRoutine id receiver function)

/-- All arrays that a value holds have a property. -/
def Only (P : NumArray → Prop) (value : Value) : Prop := ∀ numbers, value.Holds numbers → P numbers

variable {P : NumArray → Prop} {value item : Value} {items : List Value}

@[simp] lemma only_array {numbers : NumArray} : (array numbers).Only P ↔ P numbers := by
  refine ⟨fun h => h numbers .array, fun h other hother => ?_⟩
  cases hother
  exact h

@[simp] lemma only_tuple : (tuple items).Only P ↔ ∀ item ∈ items, item.Only P := by
  refine ⟨fun h item hitem numbers hnumbers => h numbers (.tuple hitem hnumbers),
    fun h numbers hnumbers => ?_⟩
  obtain _ | ⟨hitem, hnumbers⟩ := hnumbers
  exact h _ hitem numbers hnumbers

@[simp] lemma only_list : (list items).Only P ↔ ∀ item ∈ items, item.Only P := by
  refine ⟨fun h item hitem numbers hnumbers => h numbers (.list hitem hnumbers),
    fun h numbers hnumbers => ?_⟩
  cases hnumbers with
  | list hitem hnumbers => exact h _ hitem numbers hnumbers

@[simp] lemma only_dict {entries : List (Key × Value)} :
    (dict entries).Only P ↔ ∀ entry ∈ entries, entry.2.Only P := by
  refine ⟨fun h entry hentry numbers hnumbers => h numbers (.dict hentry hnumbers),
    fun h numbers hnumbers => ?_⟩
  cases hnumbers with
  | dict hentry hnumbers => exact h _ hentry numbers hnumbers

lemma only_layer {node : Layer} :
    (layer node).Only P ↔ ∀ member ∈ node.members, member.2.Only P := by
  refine ⟨fun h member hmember numbers hnumbers => h numbers (.layer hmember hnumbers),
    fun h numbers hnumbers => ?_⟩
  cases hnumbers with
  | layer hmember hnumbers => exact h _ hmember numbers hnumbers

lemma only_library {space : Library} :
    (library space).Only P ↔ ∀ member ∈ space.members, member.2.Only P := by
  refine ⟨fun h member hmember numbers hnumbers => h numbers (.library hmember hnumbers),
    fun h numbers hnumbers => ?_⟩
  cases hnumbers with
  | library hmember hnumbers => exact h _ hmember numbers hnumbers

lemma only_object {owner : Instance} :
    (object owner).Only P ↔ ∀ attr ∈ owner.attributes, attr.2.Only P := by
  refine ⟨fun h attr hattr numbers hnumbers => h numbers (.object hattr hnumbers),
    fun h numbers hnumbers => ?_⟩
  cases hnumbers with
  | object hattr hnumbers => exact h _ hattr numbers hnumbers

@[simp] lemma only_boundPrimitive {id : Identity} {function : Primitive} :
    (boundPrimitive id value function).Only P ↔ value.Only P := by
  refine ⟨fun h numbers hnumbers => h numbers (.boundPrimitive hnumbers),
    fun h numbers hnumbers => ?_⟩
  cases hnumbers with
  | boundPrimitive hnumbers => exact h numbers hnumbers

@[simp] lemma only_boundRoutine {id : Identity} {function : Routine} :
    (boundRoutine id value function).Only P ↔ value.Only P := by
  refine ⟨fun h numbers hnumbers => h numbers (.boundRoutine hnumbers),
    fun h numbers hnumbers => ?_⟩
  cases hnumbers with
  | boundRoutine hnumbers => exact h numbers hnumbers

@[simp] lemma only_bool {truth : Bool} : (bool truth).Only P := by
  rintro _ ⟨⟩

@[simp] lemma only_elementType {type : ElementType} : (elementType type).Only P := by
  rintro _ ⟨⟩

@[simp] lemma only_device {place : Device} : (device place).Only P := by
  rintro _ ⟨⟩

lemma only_of_isSome (h : (Number.of? value).isSome) : value.Only P := by
  cases value with
  | bool _ | int _ | float _ => nofun
  | _ => cases h

mutual

/-- Literals hold no arrays. -/
lemma only_ofLiteral : ∀ literal : Literal, (ofLiteral literal).Only P
  | .none | .bool _ | .int _ | .float _ | .str _ | .slice _ | .elementType _ | .device _ => by
    simp only [ofLiteral]
    nofun
  | .tuple items => by simpa only [ofLiteral, only_tuple] using only_ofLiterals items
  | .list items => by simpa only [ofLiteral, only_list] using only_ofLiterals items
termination_by structural literal => literal

lemma only_ofLiterals : ∀ items : List Literal, ∀ item ∈ ofLiterals items, item.Only P
  | [] => by simp [ofLiterals]
  | item :: rest => List.forall_mem_cons.2 ⟨only_ofLiteral item, only_ofLiterals rest⟩
termination_by structural items => items

end

/-! ### Reading values -/

lemma only_of_lookup {κ : Type} [BEq κ] [LawfulBEq κ] {entries : List (κ × Value)} {key : κ}
    (h : ∀ entry ∈ entries, entry.2.Only P) (hitem : entries.lookup key = some item) :
    item.Only P := by
  obtain ⟨before, after, rfl, -⟩ := List.lookup_eq_some_iff.1 hitem
  exact h (key, item) (List.mem_append_right _ (List.mem_cons_self ..))

lemma only_child {node child : Layer} (h : (layer node).Only P) (hchild : child ∈ node.children) :
    (layer child).Only P := by
  obtain ⟨⟨name, member⟩, hmember, hlayer⟩ := List.mem_filterMap.1 hchild
  split at hlayer
  · next hkind =>
    cases hlayer
    rw [← hkind]
    exact only_layer.1 h _ hmember
  · cases hlayer

lemma only_of_child? {node child : Layer} {index : Int64} (h : (layer node).Only P)
    (hchild : node.child? index = some child) : (layer child).Only P := by
  obtain ⟨size, -, hchild⟩ := Option.bind_eq_some_iff.1 hchild
  obtain ⟨position, -, hchild⟩ := Option.bind_eq_some_iff.1 hchild
  split at hchild
  · next hmember =>
    cases hchild
    exact only_layer.1 h _ (List.mem_of_getElem? hmember)
  · cases hchild

lemma only_ofList {id : Identity} {children : List Layer}
    (h : ∀ child ∈ children, (layer child).Only P) :
    (layer (.ofList id children)).Only P := by
  refine only_layer.2 fun member hmember => ?_
  obtain ⟨position, hposition, rfl⟩ := List.mem_mapIdx.1 hmember
  exact h _ (List.getElem_mem hposition)

lemma only_subscript (hP : NumArray.Closed P) {container key : Value} {serial : Nat}
    (h : container.Only P) (hitem : container.subscript serial key = .ok item) : item.Only P := by
  have hpick {items : List Value} (h : ∀ item ∈ items, item.Only P) (positions : List Nat) :
      ∀ item ∈ Slice.pick items positions, item.Only P :=
        fun item hmem => h item (mem_of_mem_pick hmem)
  unfold Value.subscript at hitem
  split at hitem
  · exact only_tuple.1 h _ (mem_of_itemAt hitem)
  · exact only_list.1 h _ (mem_of_itemAt hitem)
  · obtain ⟨positions, -, rfl⟩ := except_map_eq_ok.1 hitem
    exact only_tuple.2 (hpick (only_tuple.1 h) positions)
  · obtain ⟨positions, -, rfl⟩ := except_map_eq_ok.1 hitem
    exact only_list.2 (hpick (only_list.1 h) positions)
  · obtain ⟨c, -, rfl⟩ := List.mem_map.1 (mem_of_itemAt hitem)
    nofun
  · exact only_dict.1 h _ (mem_of_entryAt hitem)
  · exact only_dict.1 h _ (mem_of_entryAt hitem)
  · obtain ⟨row, hrow, rfl⟩ := except_map_eq_ok.1 hitem
    exact only_array.2 (hP.select (only_array.1 h) hrow)
  · split at hitem
    · split at hitem
      · next child hchild =>
        cases hitem
        exact only_of_child? h hchild
      · cases hitem
    · cases hitem
  · split at hitem
    · obtain ⟨positions, -, rfl⟩ := except_map_eq_ok.1 hitem
      exact only_ofList fun child hchild => only_child h (mem_of_mem_pick hchild)
    · cases hitem
  · cases hitem

/-- What reading a size gives holds no array. -/
lemma only_ofSize {size : Nat} (h : ofSize size = .ok value) : value.Only P := by
  obtain ⟨word, rfl⟩ := exists_of_ofSize h
  nofun

lemma only_ofSizes {sizes : List Nat} (h : ofSizes sizes = .ok value) : value.Only P := by
  obtain ⟨items, hitems, rfl⟩ := except_map_eq_ok.1 h
  refine only_tuple.2 fun item hitem => ?_
  obtain ⟨size, -, hsize⟩ := exists_of_mem_right (mapM_eq_ok.1 hitems) hitem
  exact only_ofSize hsize

lemma only_getAttr {serial : Nat} {name : String} {attr : Value} (h : value.Only P)
    (hattr : value.getAttr serial name = .ok attr) : attr.Only P := by
  unfold Value.getAttr at hattr
  simp only at hattr
  split at hattr
  · split at hattr
    · next hmember =>
      cases hattr
      exact only_of_lookup (only_layer.1 h) hmember
    · cases hattr
  · split at hattr
    · next hmember =>
      cases hattr
      exact only_of_lookup (only_library.1 h) hmember
    · cases hattr
  · split at hattr
    · cases hattr
      exact only_boundRoutine.2 h
    · next hmember =>
      cases hattr
      exact only_of_lookup (only_object.1 h) hmember
    · cases hattr
  · unfold arrayAttr at hattr
    split at hattr
    · exact only_ofSizes hattr
    · exact only_ofSize hattr
    · cases hattr
      exact only_elementType
    · cases hattr
      exact only_device
    · cases hattr
      exact only_bool
    · split at hattr
      · cases hattr
        exact only_boundPrimitive.2 h
      · cases hattr
  · cases hattr

/-- Iterating over an array yields its rows. -/
lemma only_rowsFrom (hP : NumArray.Closed P) {numbers : NumArray} (h : P numbers) {count row : Nat}
    {taken rows : List Value} (htaken : ∀ item ∈ taken, item.Only P)
    (hrows : rowsFrom numbers count row taken = .ok rows) : ∀ item ∈ rows, item.Only P := by
  induction count generalizing row taken with
  | zero =>
    cases hrows
    simpa using htaken
  | succ count ih =>
    obtain ⟨index, -, hrows⟩ := except_bind_eq_ok.1 hrows
    obtain ⟨selected, hselected, hrows⟩ := except_bind_eq_ok.1 hrows
    exact ih (List.forall_mem_cons.2 ⟨only_array.2 (hP.select h hselected), htaken⟩) hrows

lemma only_iterate (hP : NumArray.Closed P) (h : value.Only P)
    (hitems : value.iterate = .ok items) :
    ∀ item ∈ items, item.Only P := by
  unfold iterate at hitems
  split at hitems
  · cases hitems
    exact only_tuple.1 h
  · cases hitems
    exact only_list.1 h
  · cases hitems
    intro item hitem
    obtain ⟨⟨key, -⟩, -, rfl⟩ := List.mem_map.1 hitem
    cases key <;> nofun
  · cases hitems
    intro item hitem
    obtain ⟨c, -, rfl⟩ := List.mem_map.1 hitem
    nofun
  · split at hitems
    · cases hitems
    · exact only_rowsFrom hP (only_array.1 h) (by simp) hitems
  · split at hitems
    · cases hitems
      intro item hitem
      obtain ⟨child, hchild, rfl⟩ := List.mem_map.1 hitem
      exact only_child h hchild
    · cases hitems
  · cases hitems

end Value

/-! ### Computing values -/

section

variable {P : NumArray → Prop} (hP : NumArray.Closed P) {value result : Value}
  {operation : Primitive}

include hP

lemma only_arrayBinary {a b : NumArray} (ha : P a) (hb : P b)
    (h : arrayBinary operation a b = .ok value) :
    value.Only P := by
  unfold arrayBinary at h
  split at h
  · cases h
  · obtain ⟨combined, hcombined, rfl⟩ := except_map_eq_ok.1 h
    exact Value.only_array.2 (hP.retyped _ _ (hP.zipWith ha hb hcombined))

omit hP in
lemma only_otherBinary {lhs rhs : Value} (hlhs : lhs.Only P) (hrhs : rhs.Only P)
    (h : otherBinary operation lhs rhs = .ok value) : value.Only P := by
  unfold otherBinary at h
  -- Only sequences that are joined keep what the operands hold.
  split at h
  case h_4 =>
    cases h
    exact Value.only_tuple.2 (List.forall_mem_append.2
      ⟨Value.only_tuple.1 hlhs, Value.only_tuple.1 hrhs⟩)
  case h_5 =>
    cases h
    exact Value.only_list.2 (List.forall_mem_append.2
      ⟨Value.only_list.1 hlhs, Value.only_list.1 hrhs⟩)
  all_goals (cases h; try nofun)

lemma only_binary {lhs rhs : Value} (hlhs : lhs.Only P) (hrhs : rhs.Only P)
    (h : binary operation lhs rhs = .ok value) : value.Only P := by
  unfold binary at h
  split at h
  · exact only_arrayBinary hP (Value.only_array.1 hlhs) (Value.only_array.1 hrhs) h
  · split at h
    · exact only_arrayBinary hP (Value.only_array.1 hlhs) (hP.scalar _ _ _) h
    · exact only_otherBinary hlhs hrhs h
  · split at h
    · exact only_arrayBinary hP (hP.scalar _ _ _) (Value.only_array.1 hrhs) h
    · exact only_otherBinary hlhs hrhs h
  · unfold scalarBinary at h
    split at h
    · exact Value.only_of_isSome (isSome_of_intBinary h)
    · exact Value.only_of_isSome (isSome_of_floatBinary h)
    · exact only_otherBinary hlhs hrhs h

lemma only_unary (hvalue : value.Only P) (h : unary operation value = .ok result) :
    result.Only P := by
  unfold unary at h
  split at h
  · split at h
    · cases h
      exact Value.only_array.2 (hP.map _ _ _ (Value.only_array.1 hvalue))
    · cases h
  · split at h
    · obtain ⟨word, rfl⟩ := exists_of_wordResult h
      nofun
    · cases h
      nofun
    · cases h

lemma Primitive.only_call {serial : Nat} {function : Primitive} {args : List Value}
    (hargs : ∀ arg ∈ args, arg.Only P) (h : function.call serial args = .ok value) :
    value.Only P := by
  cases succeeds_of_call h with
  | unary _ h => exact only_unary hP (hargs _ (by simp)) h
  | sum numbers => exact Value.only_array.2 (hP.sum numbers)
  | sumNumber _ => exact hargs value (by simp)
  | getItem h => exact Value.only_subscript hP (hargs _ (by simp)) h
  | sizes _ h => exact Value.only_ofSizes h
  | size _ h =>
    obtain ⟨word, rfl⟩ := exists_of_reportedAt h
    nofun
  | dim h => exact Value.only_ofSize h
  | binary _ h => exact only_binary hP (hargs _ (by simp)) (hargs _ (by simp)) h

end

namespace Builtin

variable {P : NumArray → Prop} {value : Value} {args : List Value}

/-- The best of some values is one of them. -/
lemma extremum_mem {wanted : Ordering} {best : Value × Number} {items : List Value}
    (h : extremum wanted best items = .ok value) : value ∈ best.1 :: items := by
  induction items generalizing best with
  | nil =>
    cases h
    exact List.mem_cons_self ..
  | cons item rest ih =>
    unfold extremum at h
    split at h
    · cases h
    · have hmem := ih h
      split at hmem <;> simp only [List.mem_cons] at hmem ⊢ <;> tauto

lemma extremumOf_mem {function : Builtin} {items : List Value}
    (h : function.extremumOf items = .ok value) : value ∈ items := by
  unfold extremumOf at h
  split at h
  · cases h
  · split at h
    · cases h
    · exact extremum_mem h

lemma only_rangeOf {start stop step : Int64} (h : rangeOf start stop step = .ok value) :
    value.Only P := by
  unfold rangeOf at h
  split at h
  · cases h
  · simp only at h
    split at h
    · cases h
    · obtain ⟨items, hitems, rfl⟩ := except_map_eq_ok.1 h
      refine Value.only_list.2 fun item hitem => ?_
      obtain ⟨member, -, hmember⟩ := exists_of_mem_right (mapM_eq_ok.1 hitems) hitem
      unfold rangeItem at hmember
      split at hmember
      · cases hmember
        nofun
      · cases hmember

lemma only_toInt {arg : Value} (h : toInt arg = .ok value) : value.Only P := by
  unfold toInt at h
  split at h
  · cases h
    nofun
  · cases h
    nofun
  · obtain ⟨word, -, rfl⟩ := except_map_eq_ok.1 h
    nofun
  · split at h
    · cases h
      nofun
    · cases h
  · cases h

lemma only_toFloat {arg : Value} (h : toFloat arg = .ok value) : value.Only P := by
  unfold toFloat at h
  split at h
  · cases h
    nofun
  · cases h
    nofun
  · cases h
    nofun
  · split at h
    · cases h
      nofun
    · cases h
  · cases h

lemma only_range? {bounds : List Int64} {error : RunError}
    (h : (range? bounds).getD (.error error) = .ok value) : value.Only P := by
  unfold range? at h
  split at h
  · exact only_rangeOf h
  · exact only_rangeOf h
  · exact only_rangeOf h
  · cases h

lemma only_call (hP : NumArray.Closed P) {function : Builtin} (hargs : ∀ arg ∈ args, arg.Only P)
    (h : function.call args = .ok value) : value.Only P := by
  unfold call at h
  simp only at h
  split at h
  · obtain ⟨size, -, hsize⟩ := except_bind_eq_ok.1 h
    exact Value.only_ofSize hsize
  · exact only_unary hP (hargs _ (by simp)) h
  -- The smallest and the largest are picked from one container or from the arguments.
  · exact Value.only_tuple.1 (hargs _ (by simp)) _ (extremumOf_mem h)
  · exact Value.only_list.1 (hargs _ (by simp)) _ (extremumOf_mem h)
  · exact Value.only_tuple.1 (hargs _ (by simp)) _ (extremumOf_mem h)
  · exact Value.only_list.1 (hargs _ (by simp)) _ (extremumOf_mem h)
  · exact hargs _ (extremumOf_mem h)
  · exact hargs _ (extremumOf_mem h)
  · split at h
    · obtain ⟨words, -, h⟩ := except_bind_eq_ok.1 h
      exact only_range? h
    · cases h
  · exact only_toInt h
  · exact only_toFloat h
  · cases h

end Builtin

namespace Layer

variable {P : NumArray → Prop}

mutual

/-- What a layer computes comes from its input and its members. -/
lemma only_forward (hP : NumArray.Closed P) (serial : Nat) : ∀ (layer : Layer) (args : List Value),
    (Value.layer layer).Only P → (∀ arg ∈ args, arg.Only P) →
      ∀ value, layer.forward serial args = .ok value → value.Only P
  | ⟨_, typeName, kind, members⟩, args, hlayer, hargs => by
    have hmembers := Value.only_layer.1 hlayer
    intro value h
    cases kind with
    | leaf function => exact Primitive.only_call hP hargs h
    | scale =>
      match args, hargs, h with
      | [input], hargs, h =>
        simp only [forward] at h
        split at h
        · next weight hweight =>
          exact only_binary hP (hargs input (by simp)) (Value.only_of_lookup hmembers hweight) h
        · cases h
      | [], _, h | _ :: _ :: _, _, h => cases h
    | sequential =>
      match args, hargs, h with
      | [input], hargs, h =>
        exact only_forwardMembers hP serial members input hmembers (hargs input (by simp)) value h
      | [], _, h | _ :: _ :: _, _, h => cases h
    | list | container => cases h
termination_by structural layer => layer

lemma only_forwardMembers (hP : NumArray.Closed P) (serial : Nat) :
    ∀ (members : List (String × Value)) (input : Value),
      (∀ member ∈ members, member.2.Only P) → input.Only P →
        ∀ value, forwardMembers serial members input = .ok value → value.Only P
  | [], input, _, hinput => by
    rintro value ⟨⟩
    exact hinput
  | (_, .layer child) :: rest, input, hmembers, hinput => by
    obtain ⟨hchild, hrest⟩ := List.forall_mem_cons.1 hmembers
    intro value h
    simp only [forwardMembers] at h
    split at h
    · next output houtput =>
      have hvalue := only_forward hP serial child [input] hchild
        (by simpa using hinput) output houtput
      exact only_forwardMembers hP serial rest output hrest hvalue value h
    · cases h
  | (_, .none) :: rest, input, hmembers, hinput | (_, .bool _) :: rest, input, hmembers, hinput
  | (_, .int _) :: rest, input, hmembers, hinput | (_, .float _) :: rest, input, hmembers, hinput
  | (_, .str _) :: rest, input, hmembers, hinput | (_, .tuple _) :: rest, input, hmembers, hinput
  | (_, .list _) :: rest, input, hmembers, hinput | (_, .dict _) :: rest, input, hmembers, hinput
  | (_, .slice _) :: rest, input, hmembers, hinput | (_, .array _) :: rest, input, hmembers, hinput
  | (_, .elementType _) :: rest, input, hmembers, hinput
  | (_, .device _) :: rest, input, hmembers, hinput
  | (_, .routine _) :: rest, input, hmembers, hinput
  | (_, .boundPrimitive _ _ _) :: rest, input, hmembers, hinput
  | (_, .boundRoutine _ _ _) :: rest, input, hmembers, hinput
  | (_, .primitive _) :: rest, input, hmembers, hinput
  | (_, .builtin _) :: rest, input, hmembers, hinput
  | (_, .library _) :: rest, input, hmembers, hinput
  | (_, .object _) :: rest, input, hmembers, hinput => by
    -- A member that is not a layer is passed over.
    simp only [forwardMembers]
    exact only_forwardMembers hP serial rest input (List.forall_mem_cons.1 hmembers).2 hinput
termination_by structural members => members

end

end Layer

end GuardedTrace
