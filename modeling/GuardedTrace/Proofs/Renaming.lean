/-
Other numbers for the objects that are made.

An evaluation numbers each object that it makes by the node that made it.  `Value.rename` gives
these objects other numbers; objects that were there before keep theirs.  Every operation on values
commutes with renaming.  The only exception is equality, which finds out when two objects get the
same number.
-/
import Mathlib.Tactic
import GuardedTrace.Proofs.DataValues
import GuardedTrace.Proofs.OrderedKeys

namespace GuardedTrace

/-- The identity of an object, with another number if it was made. -/
def Identity.rename (f : Nat → Nat) : Identity → Identity
  | declared number => declared number
  | created serial => created (f serial)

def Routine.rename (f : Nat → Nat) (routine : Routine) : Routine :=
  { routine with id := routine.id.rename f }

mutual

def Layer.rename (f : Nat → Nat) : Layer → Layer
  | ⟨id, typeName, kind, members⟩ => ⟨id.rename f, typeName, kind, Value.renameMembers f members⟩
termination_by structural layer => layer

def Library.rename (f : Nat → Nat) : Library → Library
  | ⟨id, members⟩ => ⟨id.rename f, Value.renameMembers f members⟩
termination_by structural space => space

def Instance.rename (f : Nat → Nat) : Instance → Instance
  | ⟨id, typeName, attributes⟩ => ⟨id.rename f, typeName, Value.renameMembers f attributes⟩
termination_by structural owner => owner

/-- A value in which all objects that were made have other numbers. -/
def Value.rename (f : Nat → Nat) : Value → Value
  | .none => .none
  | .bool value => .bool value
  | .int value => .int value
  | .float value => .float value
  | .str value => .str value
  | .tuple items => .tuple (Value.renameItems f items)
  | .list items => .list (Value.renameItems f items)
  | .dict entries => .dict (Value.renameEntries f entries)
  | .slice bounds => .slice bounds
  | .array numbers => .array numbers
  | .elementType type => .elementType type
  | .device place => .device place
  | .layer node => .layer (Layer.rename f node)
  | .routine function => .routine (function.rename f)
  | .boundPrimitive id receiver function =>
    .boundPrimitive (id.rename f) (Value.rename f receiver) function
  | .boundRoutine id receiver function =>
    .boundRoutine (id.rename f) (Value.rename f receiver) (function.rename f)
  | .primitive function => .primitive function
  | .builtin function => .builtin function
  | .library space => .library (Library.rename f space)
  | .object owner => .object (Instance.rename f owner)
termination_by structural value => value

def Value.renameItems (f : Nat → Nat) : List Value → List Value
  | [] => []
  | item :: rest => Value.rename f item :: Value.renameItems f rest
termination_by structural items => items

def Value.renameEntries (f : Nat → Nat) : List (Key × Value) → List (Key × Value)
  | [] => []
  | (key, item) :: rest => (key, Value.rename f item) :: Value.renameEntries f rest
termination_by structural entries => entries

def Value.renameMembers (f : Nat → Nat) : List (String × Value) → List (String × Value)
  | [] => []
  | (name, item) :: rest => (name, Value.rename f item) :: Value.renameMembers f rest
termination_by structural members => members

end

variable {f : Nat → Nat}

@[simp] lemma Layer.rename_typeName (layer : Layer) :
    (layer.rename f).typeName = layer.typeName := by
  cases layer
  rfl

@[simp] lemma Layer.rename_kind (layer : Layer) : (layer.rename f).kind = layer.kind := by
  cases layer
  rfl

@[simp] lemma Instance.rename_typeName (owner : Instance) :
    (owner.rename f).typeName = owner.typeName := by
  cases owner
  rfl

namespace Value

lemma renameItems_eq (items : List Value) : renameItems f items = items.map (rename f) := by
  induction items with
  | nil => rfl
  | cons item rest ih => rw [renameItems, ih, List.map_cons]

lemma renameEntries_eq (entries : List (Key × Value)) :
    renameEntries f entries = entries.map fun entry => (entry.1, entry.2.rename f) := by
  induction entries with
  | nil => rfl
  | cons entry rest ih => rw [renameEntries, ih, List.map_cons]

lemma renameMembers_eq (members : List (String × Value)) :
    renameMembers f members = members.map fun member => (member.1, member.2.rename f) := by
  induction members with
  | nil => rfl
  | cons member rest ih => rw [renameMembers, ih, List.map_cons]

lemma lookup_renameMembers (name : String) (members : List (String × Value)) :
    (renameMembers f members).lookup name = (members.lookup name).map (rename f) := by
  rw [renameMembers_eq, Table.lookup_map_snd]

@[simp] lemma typeName_rename (value : Value) : (value.rename f).typeName = value.typeName := by
  cases value with
  | layer node =>
    cases node
    rfl
  | object owner =>
    cases owner
    rfl
  | _ => rfl

lemma identity?_rename (value : Value) :
    (value.rename f).identity? = value.identity?.map (Identity.rename f) := by
  cases value with
  | layer node =>
    cases node
    rfl
  | library space =>
    cases space
    rfl
  | object owner =>
    cases owner
    rfl
  | _ => rfl

mutual

lemma rename_ofLiteral : ∀ literal : Literal, (ofLiteral literal).rename f = ofLiteral literal
  | .none | .bool _ | .int _ | .float _ | .str _ | .slice _ | .elementType _ | .device _ => rfl
  | .tuple items => congrArg tuple (renameItems_ofLiterals items)
  | .list items => congrArg list (renameItems_ofLiterals items)
termination_by structural literal => literal

lemma renameItems_ofLiterals : ∀ items : List Literal,
    renameItems f (ofLiterals items) = ofLiterals items
  | [] => rfl
  | item :: rest => congrArg₂ List.cons (rename_ofLiteral item) (renameItems_ofLiterals rest)
termination_by structural items => items

end

/-! ### Equality -/

mutual

/-- The identities that a comparison of two values looks at. -/
def compared : Value → Value → List (Identity × Identity)
  | tuple a, tuple b => comparedItems a b
  | list a, list b => comparedItems a b
  | dict a, dict b => comparedEntries a b
  | boundPrimitive a _ _, boundPrimitive b _ _ => [(a, b)]
  | boundRoutine a _ _, boundRoutine b _ _ => [(a, b)]
  | a, b =>
    match a.identity?, b.identity? with
    | some x, some y => [(x, y)]
    | _, _ => []
termination_by structural a => a

def comparedItems : List Value → List Value → List (Identity × Identity)
  | a :: as, b :: bs => compared a b ++ comparedItems as bs
  | _, _ => []
termination_by structural as => as

def comparedEntries : List (Key × Value) → List (Key × Value) → List (Identity × Identity)
  | (_, a) :: as, (_, b) :: bs => compared a b ++ comparedEntries as bs
  | _, _ => []
termination_by structural as => as

end

/-- Renaming keeps apart all objects that a comparison of the two values looks at. -/
def Apart (f : Nat → Nat) (a b : Value) : Prop :=
  ∀ pair ∈ compared a b, pair.1.rename f = pair.2.rename f → pair.1 = pair.2

lemma beq_rename {a b : Identity} (h : a.rename f = b.rename f → a = b) :
    (a.rename f == b.rename f) = (a == b) := by
  rw [Bool.eq_iff_iff, beq_iff_eq, beq_iff_eq]
  exact ⟨h, congrArg _⟩

/-- An object with an identity is compared by it. -/
lemma equals_of_identity {a b : Value} {x : Identity} (h : a.identity? = some x) :
    equals a b = b.identity?.elim false (x == ·) := by
  cases a with
  | layer | routine | library | object =>
    obtain rfl := Option.some.inj h
    unfold equals
    cases b.identity? <;> rfl
  | _ => cases h

lemma compared_of_identity {a b : Value} {x : Identity} (h : a.identity? = some x) :
    compared a b = b.identity?.elim [] fun y => [(x, y)] := by
  cases a with
  | layer | routine | library | object =>
    obtain rfl := Option.some.inj h
    unfold compared
    cases b.identity? <;> rfl
  | _ => cases h

/-- Renaming keeps the answer of a comparison of objects that it keeps apart. -/
lemma equals_rename_of_identity {a b : Value} {x : Identity} (ha : a.identity? = some x)
    (h : Apart f a b) : (a.rename f).equals (b.rename f) = a.equals b := by
  have ha' : (a.rename f).identity? = some (x.rename f) := by
    rw [identity?_rename, ha, Option.map_some]
  rw [equals_of_identity ha, equals_of_identity ha', identity?_rename]
  unfold Apart at h
  rw [compared_of_identity ha] at h
  cases hb : b.identity? with
  | none => rfl
  | some y =>
    rw [hb] at h
    exact beq_rename (h (x, y) (List.mem_singleton_self _))

mutual

/-- Renaming keeps the answer of a comparison if it keeps the compared objects apart. -/
lemma equals_rename : ∀ {a b : Value}, Apart f a b → (a.rename f).equals (b.rename f) = a.equals b
  | tuple a, b, h => by
    cases b with
    | tuple b => exact equalItems_rename h
    | _ => rfl
  | list a, b, h => by
    cases b with
    | list b => exact equalItems_rename h
    | _ => rfl
  | dict a, b, h => by
    cases b with
    | dict b => exact equalEntries_rename h
    | _ => rfl
  | boundPrimitive a _ _, b, h => by
    cases b with
    | boundPrimitive b _ _ => exact beq_rename (h (a, b) (List.mem_singleton_self _))
    | _ => rfl
  | boundRoutine a _ _, b, h => by
    cases b with
    | boundRoutine b _ _ => exact beq_rename (h (a, b) (List.mem_singleton_self _))
    | _ => rfl
  | layer _, b, h | routine _, b, h | library _, b, h | object _, b, h =>
    equals_rename_of_identity rfl h
  | none, b, _ | bool _, b, _ | int _, b, _ | float _, b, _ | str _, b, _ | slice _, b, _
  | array _, b, _
  | elementType _, b, _ | device _, b, _ | primitive _, b, _ | builtin _, b, _ => by cases b <;> rfl
termination_by structural a => a

lemma equalItems_rename : ∀ {as bs : List Value}, (∀ pair ∈ comparedItems as bs,
    pair.1.rename f = pair.2.rename f → pair.1 = pair.2) →
    equalItems (renameItems f as) (renameItems f bs) = equalItems as bs
  | [], bs, _ => by cases bs <;> rfl
  | a :: as, [], _ => rfl
  | a :: as, b :: bs, h => by
    obtain ⟨hfirst, hrest⟩ := List.forall_mem_append.1 h
    exact congrArg₂ and (equals_rename hfirst) (equalItems_rename hrest)
termination_by structural as => as

lemma equalEntries_rename : ∀ {as bs : List (Key × Value)}, (∀ pair ∈ comparedEntries as bs,
    pair.1.rename f = pair.2.rename f → pair.1 = pair.2) →
    equalEntries (renameEntries f as) (renameEntries f bs) = equalEntries as bs
  | [], bs, _ => by cases bs <;> rfl
  | a :: as, [], _ => rfl
  | (k, a) :: as, (l, b) :: bs, h => by
    obtain ⟨hfirst, hrest⟩ := List.forall_mem_append.1 h
    have hitem : (k == l && (a.rename f).equals (b.rename f)) = (k == l && a.equals b) :=
      congrArg (k == l && ·) (equals_rename hfirst)
    exact congrArg₂ and hitem (equalEntries_rename hrest)
termination_by structural as => as

end

/-! ### Values without objects -/

mutual

/-- A value without objects is not renamed. -/
lemma Data.rename : ∀ {value : Value}, value.Data → value.rename f = value
  | none, _ | bool _, _ | int _, _ | float _, _ | str _, _ | slice _, _ | array _, _
  | elementType _, _
  | device _, _ | primitive _, _ | builtin _, _ => rfl
  | tuple _, h => congrArg tuple (DataItems.rename h)
  | list _, h => congrArg list (DataItems.rename h)
  | dict _, h => congrArg dict (DataEntries.rename h)
termination_by structural value => value

lemma DataItems.rename : ∀ {items : List Value}, DataItems items → renameItems f items = items
  | [], _ => rfl
  | _ :: _, h => congrArg₂ List.cons (Data.rename h.1) (DataItems.rename h.2)
termination_by structural items => items

lemma DataEntries.rename : ∀ {entries : List (Key × Value)}, DataEntries entries →
    renameEntries f entries = entries
  | [], _ => rfl
  | (key, _) :: _, h =>
    congrArg₂ List.cons (congrArg (Prod.mk key) (Data.rename h.1)) (DataEntries.rename h.2)
termination_by structural entries => entries

end

lemma map_rename_of_data {result : Run Value} (h : ∀ value, result = .ok value → value.Data) :
    result.map (rename f) = result := by
  cases result with
  | error error => rfl
  | ok value => exact congrArg Except.ok (h value rfl).rename

end Value

/-! ### Arithmetic -/

@[simp] lemma Number.of?_rename (value : Value) :
    Number.of? (value.rename f) = Number.of? value := by
  cases value <;> rfl

/-- Whether a primitive compares its operands for equality. -/
def Primitive.testsEquality : Primitive → Bool
  | eq | ne => true
  | _ => false

section

variable {operation : Primitive} {lhs rhs : Value}

lemma otherBinary_rename (h : operation.testsEquality = true → lhs.Apart f rhs) :
    otherBinary operation (lhs.rename f) (rhs.rename f) =
      (otherBinary operation lhs rhs).map (Value.rename f) := by
  have hrefused : (Except.error
      (.type (.operands operation (lhs.rename f).typeName (rhs.rename f).typeName)) :
      Run Value) = .error (.type (.operands operation lhs.typeName rhs.typeName)) := by
    rw [Value.typeName_rename, Value.typeName_rename]
  cases operation with
  | eq =>
    simp only [otherBinary, Value.equals_rename (h rfl)]
    rfl
  | ne =>
    simp only [otherBinary, Value.equals_rename (h rfl)]
    rfl
  | add =>
    cases lhs with
    | str a =>
      cases rhs with
      | str b => rfl
      | _ => exact hrefused
    | tuple a =>
      cases rhs with
      | tuple b => simp [otherBinary, Value.rename, Except.map, Value.renameItems_eq]
      | _ => exact hrefused
    | list a =>
      cases rhs with
      | list b => simp [otherBinary, Value.rename, Except.map, Value.renameItems_eq]
      | _ => exact hrefused
    | _ => exact hrefused
  | lt | le | gt | ge =>
    cases lhs with
    | str a =>
      cases rhs with
      | str b => rfl
      | _ => exact hrefused
    | _ => exact hrefused
  | _ => exact hrefused

lemma scalarBinary_rename (h : operation.testsEquality = true → lhs.Apart f rhs) :
    scalarBinary operation (lhs.rename f) (rhs.rename f) =
      (scalarBinary operation lhs rhs).map (Value.rename f) := by
  unfold scalarBinary
  rw [Number.of?_rename, Number.of?_rename]
  -- arithmetic gives numbers, and numbers are not renamed
  split
  · exact (Value.map_rename_of_data fun _ hvalue =>
      data_of_isSome (isSome_of_intBinary hvalue)).symm
  · exact (Value.map_rename_of_data fun _ hvalue =>
      data_of_isSome (isSome_of_floatBinary hvalue)).symm
  · exact otherBinary_rename h

lemma map_arrayBinary (a b : NumArray) :
    (arrayBinary operation a b).map (Value.rename f) = arrayBinary operation a b :=
  Value.map_rename_of_data fun _ => data_of_arrayBinary

/-- The array that a value is. -/
def Value.array? : Value → Option NumArray
  | .array numbers => some numbers
  | _ => Option.none

lemma binary_eq (operation : Primitive) (lhs rhs : Value) : binary operation lhs rhs =
    match lhs.array?, rhs.array? with
    | some a, some b => arrayBinary operation a b
    | some a, none => (Number.of? rhs).elim (otherBinary operation lhs rhs)
        fun number => arrayBinary operation a (number.toArray a.elementType)
    | none, some b => (Number.of? lhs).elim (otherBinary operation lhs rhs)
        fun number => arrayBinary operation (number.toArray b.elementType) b
    | none, none => scalarBinary operation lhs rhs := by
  cases lhs <;> cases rhs <;> rfl

lemma Value.array?_rename (value : Value) : (value.rename f).array? = value.array? := by
  cases value <;> rfl

lemma binary_rename (h : operation.testsEquality = true → lhs.Apart f rhs) :
    binary operation (lhs.rename f) (rhs.rename f) =
      (binary operation lhs rhs).map (Value.rename f) := by
  rw [binary_eq, binary_eq, Value.array?_rename, Value.array?_rename,
    Number.of?_rename, Number.of?_rename]
  split
  · exact (map_arrayBinary _ _).symm
  · cases Number.of? rhs with
    | none => exact otherBinary_rename h
    | some number => exact (map_arrayBinary _ _).symm
  · cases Number.of? lhs with
    | none => exact otherBinary_rename h
    | some number => exact (map_arrayBinary _ _).symm
  · exact scalarBinary_rename h

lemma unary_rename (operation : Primitive) (value : Value) :
    unary operation (value.rename f) = (unary operation value).map (Value.rename f) := by
  rw [Value.map_rename_of_data fun _ => data_of_unary]
  unfold unary
  cases value with
  | array numbers => rfl
  | _ =>
    simp only [Value.rename, Value.typeName, Layer.rename_typeName,
      Instance.rename_typeName, Number.of?]

end

/-! ### Layers -/

namespace Layer

lemma rename_members (layer : Layer) :
    (layer.rename f).members = layer.members.map fun member => (member.1, member.2.rename f) := by
  cases layer
  exact Value.renameMembers_eq _

lemma member?_rename (layer : Layer) (name : String) :
    (layer.rename f).member? name = (layer.member? name).map (Value.rename f) := by
  rw [member?, rename_members, Table.lookup_map_snd, member?]

@[simp] lemma isListLike_rename (layer : Layer) :
    (layer.rename f).isListLike = layer.isListLike := by
  rw [isListLike, rename_kind, isListLike]

lemma children_rename (layer : Layer) :
    (layer.rename f).children = layer.children.map (rename f) := by
  unfold children
  rw [rename_members, List.filterMap_map, List.map_filterMap]
  refine List.filterMap_congr fun member _ => ?_
  obtain ⟨name, value⟩ := member
  cases value <;> rfl

lemma child?_rename (layer : Layer) (index : Int64) :
    (layer.rename f).child? index = (layer.child? index).map (rename f) := by
  unfold child? length?
  rw [isListLike_rename, rename_members, List.length_map]
  split
  · cases hposition : position? index layer.members.length with
    | none => simp [hposition]
    | some position =>
      simp only [Option.bind_eq_bind, Option.bind_some, hposition, List.getElem?_map]
      rcases layer.members[position]? with _ | ⟨name, value⟩
      · rfl
      · cases value <;> rfl
  · rfl

lemma rename_ofList (id : Identity) (children : List Layer) :
    (ofList id children).rename f = ofList (id.rename f) (children.map (rename f)) := by
  have hmembers : Value.renameMembers f
      (children.mapIdx fun position child => (Text.showNat position, .layer child)) =
      (children.map (rename f)).mapIdx fun position child =>
        (Text.showNat position, .layer child) := by
    rw [Value.renameMembers_eq]
    refine List.ext_getElem? fun position => ?_
    simp only [List.getElem?_map, List.getElem?_mapIdx, Option.map_map]
    rfl
  simp only [ofList, indexed, rename, hmembers]

end Layer

/-! ### Subscripts and attributes -/

namespace Value

lemma itemAt_rename (items : List Value) (index : Int64) :
    itemAt (items.map (rename f)) index = (itemAt items index).map (rename f) := by
  unfold itemAt
  rw [List.length_map]
  cases position? index items.length with
  | none => rfl
  | some position =>
    simp only [Option.bind_some, List.getElem?_map]
    cases items[position]? <;> rfl

lemma entryAt_rename (entries : List (Key × Value)) (key : Key) :
    entryAt (renameEntries f entries) key = (entryAt entries key).map (rename f) := by
  unfold entryAt
  rw [renameEntries_eq, Table.lookup_map_snd]
  cases entries.lookup key <;> rfl

/-- The item at a place is renamed like the container, and a slice of a list of layers is a new
object. -/
lemma subscript_rename (serial : Nat) (container key : Value) :
    (container.rename f).subscript (f serial) (key.rename f) =
      (container.subscript serial key).map (rename f) := by
  have hrefused : (Except.error (.type (.notSubscriptable (container.rename f).typeName
      (key.rename f).typeName)) : Run Value) =
      .error (.type (.notSubscriptable container.typeName key.typeName)) := by
    rw [typeName_rename, typeName_rename]
  cases container with
  | tuple items | list items =>
    cases key with
    | int index =>
      simp only [rename, renameItems_eq, subscript]
      exact itemAt_rename items index
    | slice bounds =>
      simp only [rename, renameItems_eq, subscript, List.length_map, Slice.pick_map]
      cases bounds.positions items.length with
      | error error => rfl
      | ok positions => simp [Except.map, rename, renameItems_eq]
    | _ => exact hrefused
  | str text =>
    cases key with
    | int index =>
      refine (map_rename_of_data fun item hitem => ?_).symm
      obtain ⟨c, -, rfl⟩ := List.mem_map.1 (mem_of_itemAt hitem)
      trivial
    | _ => exact hrefused
  | dict entries =>
    cases key with
    | int index => exact entryAt_rename entries _
    | str text => exact entryAt_rename entries _
    | _ => exact hrefused
  | array numbers =>
    cases key with
    | int index =>
      simp only [rename, subscript]
      cases numbers.select index <;> rfl
    | _ => exact hrefused
  | layer node =>
    cases key with
    | int index =>
      simp only [rename, subscript, Layer.isListLike_rename, Layer.child?_rename]
      split
      · cases node.child? index <;> rfl
      · exact hrefused
    | slice bounds =>
      simp only [rename, subscript, Layer.isListLike_rename, Layer.children_rename, List.length_map,
        Slice.pick_map]
      split
      · cases bounds.positions node.children.length with
        | error error => rfl
        | ok positions => simp [Except.map, rename, Layer.rename_ofList, Identity.rename]
      · exact hrefused
    | _ => exact hrefused
  | _ => exact hrefused

lemma map_ofSize (size : Nat) : (ofSize size).map (rename f) = ofSize size := by
  refine map_rename_of_data fun value hvalue => ?_
  obtain ⟨word, rfl⟩ := exists_of_ofSize hvalue
  trivial

lemma map_ofSizes (sizes : List Nat) : (ofSizes sizes).map (rename f) = ofSizes sizes :=
  map_rename_of_data fun _ => data_of_ofSizes

lemma arrayAttr_rename (serial : Nat) (numbers : NumArray) (name : String) :
    arrayAttr (f serial) numbers name = (arrayAttr serial numbers name).map (rename f) := by
  unfold arrayAttr
  split
  · exact (map_ofSizes _).symm
  · exact (map_ofSize _).symm
  · rfl
  · rfl
  · rfl
  · cases Primitive.ofMethod? name <;> rfl

/-- A method that is read from an object is a new object. -/
lemma getAttr_rename (serial : Nat) (value : Value) (name : String) :
    (value.rename f).getAttr (f serial) name = (value.getAttr serial name).map (rename f) := by
  have hmissing : (Except.error
      (.noAttribute (.missing (value.rename f).typeName name)) : Run Value) =
      .error (.noAttribute (.missing value.typeName name)) := by rw [typeName_rename]
  cases value with
  | layer node =>
    simp only [rename, getAttr, Layer.member?_rename]
    cases node.member? name with
    | none => exact hmissing
    | some member => rfl
  | library space =>
    obtain ⟨id, members⟩ := space
    simp only [rename, Library.rename, getAttr, lookup_renameMembers]
    cases members.lookup name <;> rfl
  | object owner =>
    obtain ⟨id, typeName, attributes⟩ := owner
    simp only [rename, Instance.rename, getAttr, lookup_renameMembers]
    cases attributes.lookup name with
    | none => rfl
    | some attr => cases attr <;> rfl
  | array numbers => exact arrayAttr_rename serial numbers name
  | _ => exact hmissing

end Value

/-! ### Calls -/

namespace Primitive

lemma map_reportedAt (sizes : List Nat) (index : Int64) :
    (reportedAt sizes index).map (Value.rename f) = reportedAt sizes index := by
  refine Value.map_rename_of_data fun value hvalue => ?_
  obtain ⟨word, rfl⟩ := exists_of_reportedAt hvalue
  trivial

/-- The arguments of a comparison are kept apart; no other call needs that. -/
def KeepsApart (f : Nat → Nat) (function : Primitive) (args : List Value) : Prop :=
  function.testsEquality = true → ∀ a b, args = [a, b] → a.Apart f b

/-- A primitive computes from renamed arguments the renamed result. -/
lemma call_rename {function : Primitive} {args : List Value} (serial : Nat)
    (h : function.KeepsApart f args) :
    function.call (f serial) (args.map (Value.rename f)) =
      (function.call serial args).map (Value.rename f) := by
  have hrefused : (Except.error
      (.type (.arguments function.name (args.map (Value.rename f)).length)) :
      Run Value) = .error (.type (.arguments function.name args.length)) := by rw [List.length_map]
  rcases args with _ | ⟨a, _ | ⟨b, _ | ⟨c, rest⟩⟩⟩
  · cases function <;> rfl
  · cases function with
    | neg => exact unary_rename .neg a
    | abs => exact unary_rename .abs a
    | relu => exact unary_rename .relu a
    | sum => cases a with
      | layer node => cases node; rfl
      | object owner => cases owner; rfl
      | _ => rfl
    | size | stride => cases a with
      | array numbers => exact (Value.map_ofSizes _).symm
      | _ => rfl
    | dim => cases a with
      | array numbers => exact (Value.map_ofSize _).symm
      | _ => rfl
    | _ => rfl
  · cases function with
    | getItem => exact Value.subscript_rename serial a b
    | size | stride => cases a with
      | array numbers => cases b with
        | int index => exact (map_reportedAt _ _).symm
        | _ => rfl
      | _ => rfl
    | add | sub | mul | div | floorDiv | mod | lt | le | eq | ne | gt | ge =>
      exact binary_rename fun htests => h htests a b rfl
    | dim => cases a <;> rfl
    | _ => rfl
  · cases function with
    | size | stride | dim =>
      cases a with
      | array numbers => cases b <;> exact hrefused
      | _ => exact hrefused
    | _ => exact hrefused

end Primitive

namespace Layer

/-- The arguments of a layer that compares them are kept apart. -/
def KeepsApart (f : Nat → Nat) (layer : Layer) (args : List Value) : Prop :=
  ∀ function, layer.kind = .leaf function → function.KeepsApart f args

mutual

lemma forward_rename (serial : Nat) :
    ∀ (layer : Layer) {args : List Value}, layer.KeepsApart f args →
    (layer.rename f).forward (f serial) (args.map (Value.rename f)) =
      (layer.forward serial args).map (Value.rename f)
  | ⟨id, typeName, kind, members⟩, args, h => by
    cases kind with
    | leaf function => exact Primitive.call_rename serial (h function rfl)
    | scale =>
      rcases args with _ | ⟨input, _ | ⟨other, rest⟩⟩
      · rfl
      · simp only [rename, forward, List.map_cons, List.map_nil, Value.lookup_renameMembers]
        cases members.lookup "weight" with
        | none => rfl
        | some weight => exact binary_rename nofun
      · simp [rename, forward, Except.map]
    | sequential =>
      rcases args with _ | ⟨input, _ | ⟨other, rest⟩⟩
      · rfl
      · exact forwardMembers_rename serial members input
      · simp [rename, forward, Except.map]
    | list | container => rfl
termination_by structural layer => layer

lemma forwardMembers_rename (serial : Nat) : ∀ (members : List (String × Value)) (input : Value),
    forwardMembers (f serial) (Value.renameMembers f members) (input.rename f) =
      (forwardMembers serial members input).map (Value.rename f)
  | [], input => rfl
  | (name, value) :: rest, input => by
    cases value with
    | layer child =>
      -- one argument is compared with nothing
      have halone : child.KeepsApart f [input] := fun function _ _ a b hargs => by simp at hargs
      have hchild := forward_rename serial child halone
      simp only [Value.renameMembers, Value.rename, forwardMembers]
      rw [show [input.rename f] = [input].map (Value.rename f) from rfl, hchild]
      cases child.forward serial [input] with
      | error error => rfl
      | ok output => exact forwardMembers_rename serial rest output
    | _ => exact forwardMembers_rename serial rest input
termination_by structural members => members

end

end Layer

end GuardedTrace
