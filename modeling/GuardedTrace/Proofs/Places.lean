/-
Places in frames.

A *place* is a scope and the text of a path.  This file says how the value at a place determines
the values at the places below it, what it means that a value is reachable in a frame, and what a
guard that holds says about the value at its place.

Two properties of frames are assumed where places have to be told apart.  A frame is *regular* when
in every dictionary that it reaches each key occurs once and no text among the keys contains a
closing bracket, so that every item has a text of its own.  Two frames are *coherent* when equal
identities in them belong to equal objects.
-/
import Mathlib.Tactic
import GuardedTrace.Guard.Basic
import GuardedTrace.Proofs.PathReading
import GuardedTrace.Proofs.Results

namespace GuardedTrace

namespace Frame

variable {frame : Frame} {scope : Scope} {text : String} {value item : Value}

/-! ### Below a place -/

lemma resolve_eq_ok_iff : frame.resolve scope text = .ok value ↔
    ∃ path, Path.read text = .ok path ∧ path.resolve frame scope = .ok value := by
  cases h : Path.read text with
  | error error => simp [resolve, h, Except.bind]
  | ok path => simp [resolve, h, Except.bind]

lemma path_resolve_eq_ok_iff {path : Path} : path.resolve frame scope = .ok value ↔
    ∃ root, frame.lookup? scope path.root = some root ∧
      Path.follow root path.steps = .ok value := by
  unfold Path.resolve
  cases frame.lookup? scope path.root with
  | none => simp
  | some root => cases h : Path.follow root path.steps <;> simp [h]

lemma resolve_identifier {name : String} (hname : Text.isIdentifier name.toList = true) :
    frame.resolve scope name = .ok value ↔ frame.lookup? scope name = some value := by
  rw [resolve_eq_ok_iff, Path.read_identifier hname]
  constructor
  · rintro ⟨path, hpath, h⟩
    obtain rfl := Except.ok.inj hpath
    obtain ⟨root, hroot, hfollow⟩ := path_resolve_eq_ok_iff.1 h
    obtain rfl := Except.ok.inj hfollow
    exact hroot
  · intro h
    exact ⟨_, rfl, path_resolve_eq_ok_iff.2 ⟨value, h, rfl⟩⟩

/-- The value at a place with one more step is what the step takes from the value at the place. -/
lemma resolve_step {next : String} {step : PathStep}
    (hread : ∀ path, Path.read text = .ok path →
      Path.read next = .ok ⟨path.root, path.steps ++ [step]⟩)
    (h : frame.resolve scope text = .ok value) :
    frame.resolve scope next = .ok item ↔ Path.take value step = .ok item := by
  obtain ⟨path, hpath, hplace⟩ := resolve_eq_ok_iff.1 h
  obtain ⟨root, hroot, hfollow⟩ := path_resolve_eq_ok_iff.1 hplace
  have hstep : Path.follow root (path.steps ++ [step]) = Path.take value step := by
    rw [Path.follow_append hfollow, Path.follow]
    cases Path.take value step <;> rfl
  rw [resolve_eq_ok_iff, hread path hpath]
  constructor
  · rintro ⟨longer, hlonger, hitem⟩
    obtain rfl := Except.ok.inj hlonger
    obtain ⟨root', hroot', hitem⟩ := path_resolve_eq_ok_iff.1 hitem
    obtain rfl : root = root' := Option.some.inj (hroot.symm.trans hroot')
    rwa [← hstep]
  · intro hitem
    exact ⟨_, rfl, path_resolve_eq_ok_iff.2 ⟨root, hroot, hstep.trans hitem⟩⟩

lemma resolve_attr {name : String} (hname : Text.isIdentifier name.toList = true)
    (h : frame.resolve scope text = .ok value) :
    frame.resolve scope (text ++ "." ++ name) = .ok item ↔ value.getAttr 0 name = .ok item :=
  resolve_step (fun _ hpath => Path.read_attr hpath (PathStep.isAttrName_of_isIdentifier hname)) h

lemma resolve_index {key : Key} (hkey : ∀ value, key = .text value → ']' ∉ value.toList)
    (h : frame.resolve scope text = .ok value) :
    frame.resolve scope (text ++ "[" ++ key.written ++ "]") = .ok item ↔
      value.subscript 0 (Value.ofKey key) = .ok item :=
  resolve_step (fun _ hpath => Path.read_index hpath hkey) h

lemma resolve_position {position : Nat} (hword : position < wordLimit)
    (h : frame.resolve scope text = .ok value) :
    frame.resolve scope (text ++ "[" ++ Text.showNat position ++ "]") = .ok item ↔
      value.subscript 0 (.int (Int64.ofInt position)) = .ok item :=
  resolve_step (fun _ hpath => Path.read_position hpath hword) h

/-- Where an attribute of a place can be read, the place itself can be. -/
lemma exists_resolve_of_attr {name : String} (hname : Text.isIdentifier name.toList = true)
    {path : Path} (hpath : Path.read text = .ok path)
    (h : frame.resolve scope (text ++ "." ++ name) = .ok item) :
    ∃ holder, frame.resolve scope text = .ok holder ∧ holder.getAttr 0 name = .ok item := by
  obtain ⟨longer, hlonger, hitem⟩ := resolve_eq_ok_iff.1 h
  rw [Path.read_attr hpath (PathStep.isAttrName_of_isIdentifier hname)] at hlonger
  obtain rfl := Except.ok.inj hlonger
  obtain ⟨root, hroot, hfollow⟩ := path_resolve_eq_ok_iff.1 hitem
  obtain ⟨holder, hholder, -⟩ := Path.exists_of_follow_append hfollow
  have hplace := resolve_eq_ok_iff.2 ⟨path, hpath, path_resolve_eq_ok_iff.2 ⟨root, hroot, hholder⟩⟩
  exact ⟨holder, hplace, (resolve_attr hname hplace).1 h⟩

lemma toInt_ofInt_position {position : Nat} (h : position < wordLimit) :
    (Int64.ofInt position).toInt = position := by
  unfold wordLimit at h
  exact Int64.toInt_ofInt_of_le (by omega) (by omega)

/-- An item of a sequence that is not too long stands at its position. -/
lemma itemAt_position {items : List Value} {position : Nat} (hword : items.length < wordLimit)
    (h : items[position]? = some item) :
    Value.itemAt items (Int64.ofInt position) = .ok item := by
  have hlt : position < items.length := (List.getElem?_eq_some_iff.1 h).1
  have hposition : position? (Int64.ofInt position) items.length = some position := by
    have hnonneg : ¬ (position : Int) < 0 := by omega
    simp only [position?, toInt_ofInt_position (hlt.trans hword), if_neg hnonneg]
    rw [if_pos ⟨hword, by omega, by omega⟩, Int.toNat_natCast]
  simp [Value.itemAt, hposition, h]

/-- A sequence of which an item can be read is not too long. -/
lemma length_lt_of_itemAt {items : List Value} {index : Int64}
    (h : Value.itemAt items index = .ok item) : items.length < wordLimit := by
  by_contra hlong
  simp [Value.itemAt, position?, hlong] at h

lemma resolve_item {items : List Value} {position : Nat}
    (h : frame.resolve scope text = .ok (.tuple items) ∨
      frame.resolve scope text = .ok (.list items))
    (hword : items.length < wordLimit) (hitem : items[position]? = some item) :
    frame.resolve scope (text ++ "[" ++ Text.showNat position ++ "]") = .ok item := by
  have hlt : position < items.length := (List.getElem?_eq_some_iff.1 hitem).1
  rcases h with h | h
  all_goals
    rw [resolve_position (hlt.trans hword) h]
    exact itemAt_position hword hitem

lemma length_lt_of_resolve {items : List Value}
    (h : frame.resolve scope text = .ok (.tuple items) ∨
      frame.resolve scope text = .ok (.list items))
    (hitem : frame.resolve scope (text ++ "[" ++ Text.showNat 0 ++ "]") = .ok item) :
    items.length < wordLimit := by
  have hzero : 0 < wordLimit := by decide
  rcases h with h | h
  all_goals
    rw [resolve_position hzero h] at hitem
    exact length_lt_of_itemAt hitem

lemma lookup_eq_some_of_mem {entries : List (Key × Value)} {key : Key}
    (hnodup : (Table.keys entries).Nodup) (h : (key, item) ∈ entries) :
    entries.lookup key = some item := by
  induction entries with
  | nil => cases h
  | cons entry rest ih =>
    obtain ⟨other, value⟩ := entry
    simp only [Table.keys, List.map_cons, List.nodup_cons, List.mem_map] at hnodup
    rcases List.mem_cons.1 h with hhead | hrest
    · cases hhead
      simp
    · have hne : key ≠ other := by
        rintro rfl
        exact hnodup.1 ⟨(key, item), hrest, rfl⟩
      simp only [List.lookup_cons, beq_eq_false_iff_ne.2 hne]
      exact ih hnodup.2 hrest

/-! ### Reachable values -/

/-- The value stands at the end of some path of the frame. -/
def Reaches (frame : Frame) (value : Value) : Prop :=
  ∃ (scope : Scope) (path : Path), path.resolve frame scope = .ok value

lemma reaches_of_resolve (h : frame.resolve scope text = .ok value) : frame.Reaches value := by
  obtain ⟨path, -, hplace⟩ := resolve_eq_ok_iff.1 h
  exact ⟨scope, path, hplace⟩

/-- What holds of the bindings and is kept by every step of a path holds of all reachable values. -/
lemma Reaches.induct {P : Value → Prop}
    (hroots : ∀ scope name value, frame.lookup? scope name = some value → P value)
    (hsteps : ∀ value step item, P value → Path.take value step = .ok item → P item)
    (h : frame.Reaches value) : P value := by
  obtain ⟨scope, ⟨name, steps⟩, hpath⟩ := h
  obtain ⟨root, hroot, hfollow⟩ := path_resolve_eq_ok_iff.1 hpath
  have hvalue := hroots scope name root hroot
  clear hroot hpath
  induction steps generalizing root with
  | nil => exact Except.ok.inj hfollow ▸ hvalue
  | cons step rest ih =>
    obtain ⟨next, hnext, hrest⟩ := except_bind_eq_ok.1 hfollow
    exact ih next hrest (hsteps root step next hvalue hnext)

/-- In every reachable dictionary each key occurs once, and no text among the keys contains a
closing bracket. -/
def Regular (frame : Frame) : Prop :=
  ∀ entries, frame.Reaches (.dict entries) →
    (Table.keys entries).Nodup ∧ ∀ text, Key.text text ∈ Table.keys entries → ']' ∉ text.toList

lemma Regular.resolve_entry (hregular : frame.Regular) {entries : List (Key × Value)} {key : Key}
    (h : frame.resolve scope text = .ok (.dict entries)) (hitem : (key, item) ∈ entries) :
    frame.resolve scope (text ++ "[" ++ key.written ++ "]") = .ok item := by
  obtain ⟨hnodup, hclosing⟩ := hregular entries (reaches_of_resolve h)
  have hkey : key ∈ Table.keys entries := List.mem_map.2 ⟨_, hitem, rfl⟩
  rw [resolve_index (fun text htext => hclosing text (htext ▸ hkey)) h]
  have hlookup := lookup_eq_some_of_mem hnodup hitem
  cases key <;> simp [Value.ofKey, Value.subscript, Value.entryAt, hlookup]

/-- No list of one frame stands where the other one has a tuple. -/
def SameKind (frame other : Frame) (scope : Scope) (text : String) : Prop :=
  ∀ items others,
    (frame.resolve scope text = .ok (.list items) →
      other.resolve scope text ≠ .ok (.tuple others)) ∧
    (frame.resolve scope text = .ok (.tuple items) → other.resolve scope text ≠ .ok (.list others))

/-- Equal identities of values that one of the two frames reaches belong to equal values. -/
def Coherent (frame other : Frame) : Prop :=
  ∀ a b, frame.Reaches a ∨ other.Reaches a → frame.Reaches b ∨ other.Reaches b →
    ∀ id, a.identity? = some id → b.identity? = some id → a = b

end Frame

/-! ### Guards that hold -/

namespace Guard

variable {frame : Frame} {guard : Guard}

/-- A guard that asks for a value holds when the value at its place passes the check. -/
lemma holds_iff (hcheck : guard.check ≠ .unbound) :
    guard.Holds frame ↔ ∃ value, frame.resolve guard.scope guard.name = .ok value ∧
      guard.check.mismatch? value = none := by
  unfold Holds rejection?
  cases h : frame.resolve guard.scope guard.name with
  | ok value => simp
  | error error => cases error <;> simp [hcheck]

/-- A guard that asks for a free name holds when nothing is bound to it. -/
lemma holds_unbound {name : String} (hname : Text.isIdentifier name.toList = true) {scope : Scope}
    (h : Holds ⟨name, scope, .unbound⟩ frame) : frame.lookup? scope name = none := by
  cases hlookup : frame.lookup? scope name with
  | none => rfl
  | some value =>
    have := (Frame.resolve_identifier hname).2 hlookup
    simp [Holds, rejection?, this, Check.mismatch?] at h

end Guard

namespace Value

mutual

lemma eq_ofLiteral_of_literal? : ∀ {value : Value} {literal : Literal},
    value.literal? = some literal → value = ofLiteral literal
  | none, _, h | bool _, _, h | int _, _, h | float _, _, h | str _, _, h | slice _, _, h
  | elementType _, _, h | device _, _, h => by
    simp only [literal?, Option.some.injEq] at h
    subst h
    rfl
  | tuple items, _, h => by
    simp only [literal?, Option.map_eq_some_iff] at h
    obtain ⟨literals, hliterals, rfl⟩ := h
    rw [ofLiteral, ← eq_ofLiterals_of_literals? hliterals]
  | list items, _, h => by
    simp only [literal?, Option.map_eq_some_iff] at h
    obtain ⟨literals, hliterals, rfl⟩ := h
    rw [ofLiteral, ← eq_ofLiterals_of_literals? hliterals]
  | dict _, _, h | array _, _, h | layer _, _, h | routine _, _, h | boundPrimitive _ _ _, _, h
  | boundRoutine _ _ _, _, h | primitive _, _, h | builtin _, _, h | library _, _, h
  | object _, _, h => by simp [literal?] at h
termination_by structural value => value

lemma eq_ofLiterals_of_literals? : ∀ {items : List Value} {literals : List Literal},
    literals? items = some literals → items = ofLiterals literals
  | [], _, h => by
    simp only [literals?, Option.some.injEq] at h
    subst h
    rfl
  | item :: rest, _, h => by
    simp only [literals?] at h
    split at h
    · next literal literals hitem hrest =>
      obtain rfl := Option.some.inj h
      rw [ofLiterals, ← eq_ofLiteral_of_literal? hitem, ← eq_ofLiterals_of_literals? hrest]
    · simp at h
termination_by structural items => items

end

mutual

lemma literal?_ofLiteral : ∀ literal : Literal, (ofLiteral literal).literal? = some literal
  | .none | .bool _ | .int _ | .float _ | .str _ | .slice _ | .elementType _ | .device _ => rfl
  | .tuple items => by rw [ofLiteral, literal?, literals?_ofLiterals items]; rfl
  | .list items => by rw [ofLiteral, literal?, literals?_ofLiterals items]; rfl
termination_by structural literal => literal

lemma literals?_ofLiterals : ∀ items : List Literal, literals? (ofLiterals items) = some items
  | [] => rfl
  | item :: rest => by
    rw [ofLiterals, literals?, literal?_ofLiteral item, literals?_ofLiterals rest]
termination_by structural items => items

end

end Value

namespace Check

variable {value : Value}

lemma eq_of_constantMatch {literal : Literal}
    (h : (constantMatch literal).mismatch? value = none) : value = .ofLiteral literal := by
  simp only [mismatch?] at h
  split at h
  · next actual hactual =>
    split at h
    · next heq => exact heq ▸ Value.eq_ofLiteral_of_literal? hactual
    · simp at h
  · simp at h

lemma typeName_of_typeMatch {type : TypeName} (h : (typeMatch type).mismatch? value = none) :
    value.typeName = type := by
  simpa [mismatch?] using h

lemma identity_of_idMatch {id : Identity} (h : (idMatch id).mismatch? value = none) :
    value.identity? = some id := by
  simp only [mismatch?] at h
  split at h
  · next actual hactual =>
    split at h
    · next heq => rw [hactual, heq]
    · simp at h
  · simp at h

lemma exists_of_arrayMatch {spec : ArraySpec} (h : (arrayMatch spec).mismatch? value = none) :
    ∃ array, value = .array array ∧ spec.mismatch? array = none := by
  cases value <;> simp [mismatch?] at h
  exact ⟨_, rfl, h⟩

lemma exists_of_lengthMatch {length : Nat} (h : (lengthMatch length).mismatch? value = none) :
    ∃ items, items.length = length ∧ (value = .tuple items ∨ value = .list items) := by
  cases value <;> simp [mismatch?] at h
  · exact ⟨_, h, Or.inl rfl⟩
  · exact ⟨_, h, Or.inr rfl⟩

lemma exists_of_keysMatch {keys : List Key} (h : (keysMatch keys).mismatch? value = none) :
    ∃ entries, value = .dict entries ∧ Table.keys entries = keys := by
  cases value <;> simp [mismatch?] at h
  exact ⟨_, rfl, h⟩

lemma of_hostMatch {callable : HostCallable} (h : (hostMatch callable).mismatch? value = none) :
    HostCallable.of? value = some callable := by
  simpa [mismatch?] using h

/-- An array passes the description of another one when a trace learns the same of both. -/
lemma facts_eq_of_arrayMatch {a b : NumArray} {dynamicShapes : Bool}
    (h : (ArraySpec.of a dynamicShapes).mismatch? b = none) :
    ArraySpec.of b dynamicShapes = ArraySpec.of a dynamicShapes := by
  simp only [ArraySpec.mismatch?, ArraySpec.of, ne_eq] at h ⊢
  by_cases htype : b.elementType = a.elementType
  · by_cases hdevice : b.device = a.device
    · by_cases hrank : b.rank = a.rank
      · cases dynamicShapes
        · simp only [htype, hdevice, hrank, ArraySpec.differs] at h ⊢
          by_cases hshape : b.shape = a.shape
          · by_cases hstrides : b.strides = a.strides
            · simp [hshape, hstrides]
            · simp [hshape, hstrides] at h
          · simp [hshape] at h
        · simp [htype, hdevice, hrank]
      · simp [htype, hdevice, hrank] at h
    · simp [htype, hdevice] at h
  · simp [htype] at h

end Check

end GuardedTrace
