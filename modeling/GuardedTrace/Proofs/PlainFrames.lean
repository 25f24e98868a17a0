/-
Plain frames.

A *plain* value is built from numbers, texts, slices, element types, devices, arrays, builtins and
primitives by lists and dictionaries; it has no tuples and no objects, and no text among the keys of
its dictionaries contains a closing bracket.  In a frame of plain values all paths lead to plain
values, except that the last step may read an attribute of an array.  So plain frames are regular,
any two of them are coherent, and a list in one never stands where the other has a tuple.
-/
import Mathlib.Tactic
import GuardedTrace.Proofs.DataValues
import GuardedTrace.Proofs.OrderedKeys
import GuardedTrace.Proofs.Places
import GuardedTrace.Proofs.Results

namespace GuardedTrace

namespace Value

mutual

/-- A value without tuples and objects, whose lists are no longer than a word can count, and whose
dictionaries are in order and have keys that can be told apart in paths. -/
def Plain : Value → Prop
  | none | bool _ | int _ | float _ | str _ | slice _ | array _ | elementType _ | device _
  | primitive _ | builtin _ => True
  | list items => items.length < wordLimit ∧ PlainItems items
  | dict entries =>
    (Table.Ordered entries ∧ ∀ text, Key.text text ∈ Table.keys entries → ']' ∉ text.toList) ∧
      PlainEntries entries
  | tuple _ | layer _ | routine _ | boundPrimitive _ _ _ | boundRoutine _ _ _ | library _
  | object _ => False
termination_by structural value => value

def PlainItems : List Value → Prop
  | [] => True
  | item :: rest => Plain item ∧ PlainItems rest
termination_by structural items => items

def PlainEntries : List (Key × Value) → Prop
  | [] => True
  | (_, item) :: rest => Plain item ∧ PlainEntries rest
termination_by structural entries => entries

end

lemma plainItems_iff {items : List Value} : PlainItems items ↔ ∀ item ∈ items, item.Plain := by
  induction items with
  | nil => simp [PlainItems]
  | cons item rest ih => simp [PlainItems, ih]

lemma plainEntries_iff {entries : List (Key × Value)} :
    PlainEntries entries ↔ ∀ entry ∈ entries, entry.2.Plain := by
  induction entries with
  | nil => simp [PlainEntries]
  | cons entry rest ih => simp [PlainEntries, ih]

lemma Plain.identity?_eq_none {value : Value} (h : value.Plain) :
    value.identity? = Option.none := by
  cases value <;> simp [Plain, identity?] at h ⊢

/-- What stands under a key of a plain value is plain. -/
lemma Plain.subscript {value item : Value} {key : Key} (h : value.Plain)
    (hitem : value.subscript 0 (ofKey key) = .ok item) : item.Plain := by
  cases value with
  | list items =>
    cases key with
    | int index => exact plainItems_iff.1 h.2 _ (Value.mem_of_itemAt hitem)
    | text text => simp [ofKey, Value.subscript] at hitem
  | dict entries =>
    have hentries := plainEntries_iff.1 h.2
    cases key <;> exact hentries _ (Value.mem_of_entryAt hitem)
  | str text =>
    cases key with
    | int index =>
      obtain ⟨c, -, rfl⟩ := List.mem_map.1 (Value.mem_of_itemAt hitem)
      trivial
    | text other => simp [ofKey, Value.subscript] at hitem
  | array numbers =>
    cases key with
    | int index =>
      simp only [ofKey, Value.subscript] at hitem
      cases hrow : numbers.select index with
      | error error => simp [hrow, Except.map] at hitem
      | ok row =>
        simp only [hrow, Except.map, Except.ok.injEq] at hitem
        subst hitem
        trivial
    | text text => simp [ofKey, Value.subscript] at hitem
  | tuple | layer | routine | boundPrimitive | boundRoutine | library | object => exact h.elim
  | _ => cases key <;> simp [ofKey, Value.subscript] at hitem

/-- Of the plain values only arrays have attributes. -/
lemma Plain.getAttr {value item : Value} {name : String} (h : value.Plain)
    (hitem : value.getAttr 0 name = .ok item) : ∃ numbers, value = array numbers := by
  cases value with
  | array numbers => exact ⟨numbers, rfl⟩
  | layer | library | object => exact h.elim
  | _ => simp [Value.getAttr] at hitem

/-- What an attribute of an array is: a plain value that is no list, a tuple of plain values, or a
method. -/
inductive ArrayPart : Value → Prop where
  | plain {item : Value} (hplain : item.Plain) (hlist : item.typeName ≠ .list) : ArrayPart item
  | sizes {items : List Value} (hitems : ∀ item ∈ items, item.Plain) : ArrayPart (tuple items)
  | method (id : Identity) (receiver : Value) (function : Primitive) :
    ArrayPart (boundPrimitive id receiver function)

lemma arrayPart_of_ofSize {size : Nat} {value : Value} (h : ofSize size = .ok value) :
    ArrayPart value := by
  obtain ⟨word, -, rfl⟩ := except_map_eq_ok.1 h
  exact .plain trivial (by simp [typeName])

lemma arrayPart_of_arrayAttr {numbers : NumArray} {name : String} {item : Value}
    (h : arrayAttr 0 numbers name = .ok item) : ArrayPart item := by
  unfold arrayAttr at h
  split at h
  · obtain ⟨sizes, hsizes, rfl⟩ := except_map_eq_ok.1 h
    refine .sizes fun part hpart => ?_
    obtain ⟨size, -, hsize⟩ := exists_of_mem_right (mapM_eq_ok.1 hsizes) hpart
    obtain ⟨word, -, rfl⟩ := except_map_eq_ok.1 hsize
    trivial
  · exact arrayPart_of_ofSize h
  · obtain rfl := Except.ok.inj h
    exact .plain trivial (by simp [typeName])
  · obtain rfl := Except.ok.inj h
    exact .plain trivial (by simp [typeName])
  · obtain rfl := Except.ok.inj h
    exact .plain trivial (by simp [typeName])
  · cases hmethod : Primitive.ofMethod? name with
    | some function =>
      rw [hmethod] at h
      obtain rfl := Except.ok.inj h
      exact .method _ _ _
    | none =>
      rw [hmethod] at h
      cases h

lemma ArrayPart.identity?_eq_none {value : Value} (h : ArrayPart value) :
    value.identity? = Option.none := by
  cases h with
  | plain hplain _ => exact hplain.identity?_eq_none
  | sizes _ => rfl
  | method _ _ _ => rfl

/-- A step from a plain value or an attribute of an array. -/
lemma take_cases {value item : Value} {step : PathStep} (hvalue : value.Plain ∨ ArrayPart value)
    (h : Path.take value step = .ok item) :
    (item.Plain ∧ ∃ key, step = .index key) ∨ (ArrayPart item ∧ ∃ name, step = .attr name) := by
  have hplain : value.Plain →
      (item.Plain ∧ ∃ key, step = .index key) ∨ (ArrayPart item ∧ ∃ name, step = .attr name) := by
    intro hvalue
    cases step with
    | attr name =>
      obtain ⟨numbers, rfl⟩ := hvalue.getAttr h
      exact Or.inr ⟨arrayPart_of_arrayAttr h, name, rfl⟩
    | index key => exact Or.inl ⟨hvalue.subscript h, key, rfl⟩
  rcases hvalue with hvalue | hvalue
  · exact hplain hvalue
  cases hvalue with
  | plain hvalue _ => exact hplain hvalue
  | sizes hitems =>
    cases step with
    | attr name => simp [Path.take, Value.getAttr] at h
    | index key =>
      cases key with
      | int index => exact Or.inl ⟨hitems _ (Value.mem_of_itemAt h), _, rfl⟩
      | text text => simp [Path.take, ofKey, Value.subscript] at h
  | method id receiver function =>
    cases step with
    | attr name => simp [Path.take, Value.getAttr] at h
    | index key => cases key <;> simp [Path.take, ofKey, Value.subscript] at h

end Value

/-! ### Paths of plain frames -/

/-- From a plain value a path leads to a plain value, or its last step reads an attribute of an
array. -/
lemma Path.follow_cases {root value : Value} {steps : List PathStep} (hroot : root.Plain)
    (h : Path.follow root steps = .ok value) :
    (value.Plain ∧ ∀ init name, steps ≠ init ++ [.attr name]) ∨
      (Value.ArrayPart value ∧ ∃ init name, steps = init ++ [.attr name]) := by
  induction steps using List.reverseRecOn generalizing value with
  | nil =>
    obtain rfl := Except.ok.inj h
    exact Or.inl ⟨hroot, by simp⟩
  | append_singleton init step ih =>
    obtain ⟨middle, hmiddle, hlast⟩ := Path.exists_of_follow_append h
    obtain ⟨item, htake, hnil⟩ := except_bind_eq_ok.1 hlast
    obtain rfl := Except.ok.inj hnil
    rcases Value.take_cases ((ih hmiddle).imp And.left And.left) htake with
      ⟨hitem, key, rfl⟩ | ⟨hitem, name, rfl⟩
    · exact Or.inl ⟨hitem, by simp⟩
    · exact Or.inr ⟨hitem, init, name, rfl⟩

namespace Frame

variable {frame other : Frame}

/-- All bindings are plain. -/
def Plain (frame : Frame) : Prop :=
  ∀ scope name value, frame.lookup? scope name = some value → value.Plain

lemma plain_of_forall (hlocals : ∀ entry ∈ frame.locals, entry.2.Plain)
    (hglobals : ∀ entry ∈ frame.globals, entry.2.Plain) : frame.Plain := by
  intro scope name value h
  cases scope with
  | locals =>
    obtain ⟨before, after, heq, -⟩ := List.lookup_eq_some_iff.1 h
    exact hlocals (name, value) (by simp [heq])
  | globals =>
    obtain ⟨before, after, heq, -⟩ := List.lookup_eq_some_iff.1 h
    exact hglobals (name, value) (by simp [heq])

lemma Plain.cases (h : frame.Plain) {scope : Scope} {path : Path} {value : Value}
    (hvalue : path.resolve frame scope = .ok value) :
    (value.Plain ∧ ∀ init name, path.steps ≠ init ++ [.attr name]) ∨
      (Value.ArrayPart value ∧ ∃ init name, path.steps = init ++ [.attr name]) := by
  obtain ⟨root, hroot, hfollow⟩ := path_resolve_eq_ok_iff.1 hvalue
  exact Path.follow_cases (h _ _ _ hroot) hfollow

lemma Plain.identity?_eq_none (h : frame.Plain) {value : Value} (hvalue : frame.Reaches value) :
    value.identity? = none := by
  obtain ⟨scope, path, hpath⟩ := hvalue
  exact (h.cases hpath).elim (fun h => h.1.identity?_eq_none) fun h => h.1.identity?_eq_none

lemma Plain.regular (h : frame.Plain) : frame.Regular := by
  rintro entries ⟨scope, path, hpath⟩
  have hplain : Value.Plain (.dict entries) := by
    rcases h.cases hpath with ⟨hplain, -⟩ | ⟨hpart, -⟩
    · exact hplain
    · cases hpart with
      | plain hplain _ => exact hplain
  exact ⟨hplain.1.1.nodup, hplain.1.2⟩

lemma Plain.coherent (h : frame.Plain) (h' : other.Plain) : frame.Coherent other := by
  intro a b ha _ id hid _
  have hnone : a.identity? = none := ha.elim h.identity?_eq_none h'.identity?_eq_none
  rw [hnone] at hid
  cases hid

/-- Where a plain frame has a tuple, the path ends with an attribute, and no such path leads to a
list. -/
lemma Plain.sameKind (h : frame.Plain) (h' : other.Plain) (scope : Scope) (text : String) :
    frame.SameKind other scope text := by
  have hclash : ∀ {frame other : Frame} {items others}, frame.Plain → other.Plain →
      frame.resolve scope text = .ok (.list items) →
      other.resolve scope text ≠ .ok (.tuple others) := by
    intro frame other items others h h' hlist htuple
    obtain ⟨path, hread, hlist⟩ := resolve_eq_ok_iff.1 hlist
    obtain ⟨path', hread', htuple⟩ := resolve_eq_ok_iff.1 htuple
    obtain rfl : path = path' := Except.ok.inj (hread.symm.trans hread')
    rcases h'.cases htuple with ⟨hplain, -⟩ | ⟨-, init, name, hsteps⟩
    · exact hplain.elim
    · rcases h.cases hlist with ⟨-, hindex⟩ | ⟨hpart, -⟩
      · exact hindex init name hsteps
      · cases hpart with
        | plain _ hlist => exact hlist rfl
  exact fun items others => ⟨hclash h h', fun htuple hlist => hclash h' h hlist htuple⟩

end Frame

end GuardedTrace
