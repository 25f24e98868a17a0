/-
The paths of wrapped values.

A trace wraps a binding under its name, the items of a wrapped sequence or dictionary under the path
of the container with the position or key in brackets, and an attribute of a wrapped object under
the path of the object with the name behind a point (`Frame.Wraps`).  Guards and inputs keep the
texts of these paths, and the texts are read again when a guard is checked and when an artifact is
run.

The text of a well-formed path leads back to what was wrapped under it, and no other well-formed
path shares it.  Names and keys are written as they are, so a path that is not well formed has a
text that is malformed or belongs to another path; in some frame it leads elsewhere
(`Frame.wrapped_leads_back_iff`).
-/
import GuardedTrace.Proofs.WellFormedPaths
import GuardedTrace.Proofs.WrappedValues

namespace GuardedTrace

/-! ### Items -/

namespace Value

/-- The step leads from a container to one of the items that are wrapped along with it.  Sequences
are shorter than a word can count, as all sequences in memory are. -/
inductive Contains : Value → PathStep → Value → Prop where
  | tuple {items : List Value} {item : Value} {position : Nat} (hshort : items.length < wordLimit)
    (hitem : items[position]? = some item) :
    Contains (.tuple items) (.index (.int (Int64.ofInt position))) item
  | list {items : List Value} {item : Value} {position : Nat} (hshort : items.length < wordLimit)
    (hitem : items[position]? = some item) :
    Contains (.list items) (.index (.int (Int64.ofInt position))) item
  | dict {entries : List (Key × Value)} {key : Key} {item : Value}
    (hitem : entries.lookup key = some item) :
    Contains (.dict entries) (.index key) item

/-- The same value, up to the binding of a routine to an object, which is made anew at every
access. -/
inductive Rebound : Value → Value → Prop where
  | refl (value : Value) : Rebound value value
  | routine (id id' : Identity) (receiver : Value) (function : Routine) :
    Rebound (.boundRoutine id receiver function) (.boundRoutine id' receiver function)

variable {outer found item : Value} {step : PathStep}

lemma Contains.take (h : outer.Contains step item) : Path.take outer step = .ok item := by
  cases h with
  | tuple hshort hitem | list hshort hitem => exact Frame.itemAt_position hshort hitem
  | @dict entries key _ hitem =>
    cases key <;> simp [Path.take, ofKey, subscript, entryAt, hitem]

lemma contains_sequence_iff {items : List Value}
    (houter : outer = .tuple items ∨ outer = .list items)
    (hshort : items.length < wordLimit) : outer.Contains step item ↔
      ∃ position : Nat, items[position]? = some item ∧
        step = .index (.int (Int64.ofInt position)) := by
  constructor
  · intro h
    rcases houter with rfl | rfl
    · cases h with | tuple _ hitem => exact ⟨_, hitem, rfl⟩
    · cases h with | list _ hitem => exact ⟨_, hitem, rfl⟩
  · rintro ⟨position, hitem, rfl⟩
    rcases houter with rfl | rfl
    · exact .tuple hshort hitem
    · exact .list hshort hitem

lemma contains_dict_iff {entries : List (Key × Value)} (hkeys : (Table.keys entries).Nodup) :
    (dict entries).Contains step item ↔ ∃ key, (key, item) ∈ entries ∧ step = .index key := by
  constructor
  · intro h
    cases h with
    | dict hitem =>
      obtain ⟨before, behind, rfl, -⟩ := List.lookup_eq_some_iff.1 hitem
      exact ⟨_, by simp, rfl⟩
  · rintro ⟨key, hitem, rfl⟩
    exact .dict (Frame.lookup_eq_some_of_mem hkeys hitem)

/-- A container is the same at every access. -/
lemma Contains.eq_of_rebound (h : outer.Contains step item) (hsame : outer.Rebound found) :
    found = outer := by
  cases hsame with
  | refl => rfl
  | routine => cases h

/-- Reading an attribute once more gives the same value, up to the binding of a routine. -/
lemma exists_rebound_of_getAttr {owner : Instance} {name : String} {serial serial' : Nat}
    (h : (object owner).getAttr serial name = .ok item) :
    ∃ found, (object owner).getAttr serial' name = .ok found ∧ item.Rebound found := by
  unfold getAttr at h ⊢
  cases hattr : owner.attributes.lookup name with
  | none => simp [hattr] at h
  | some attr =>
    simp only [hattr] at h ⊢
    cases attr with
    | routine function =>
      obtain rfl := Except.ok.inj h
      exact ⟨_, rfl, .routine ..⟩
    | _ =>
      obtain rfl := Except.ok.inj h
      exact ⟨_, rfl, .refl _⟩

end Value

/-! ### What is wrapped together -/

namespace Value

/-- When the value is wrapped under the path, the part is wrapped with it, under the place. -/
inductive Beneath : Path → Value → Path → Value → Prop where
  | self (path : Path) (value : Value) : Beneath path value path value
  | item {path place : Path} {outer item part : Value} {step : PathStep}
    (hitem : outer.Contains step item)
    (h : Beneath (path.below step) item place part) : Beneath path outer place part

/-- Sequences in the value are shorter than a word can count, and each key of a dictionary occurs
once. -/
structure InMemory (value : Value) : Prop where
  short : ∀ items, value.HasPart (.tuple items) ∨ value.HasPart (.list items) →
    items.length < wordLimit
  keys : ∀ entries, value.HasPart (.dict entries) → (Table.keys entries).Nodup

/-- The guard asks for the check of the part that is wrapped at its place. -/
def Guarded (config : Config) (scope : Scope) (path : Path) (value : Value)
    (guard : Guard) : Prop :=
  ∃ place part, Beneath path value place part ∧ guard = ⟨place.written, scope, part.check config⟩

variable {config : Config} {scope : Scope} {path : Path} {value : Value} {guard : Guard}

lemma InMemory.sequence {items : List Value} (h : value.InMemory)
    (hvalue : value = .tuple items ∨ value = .list items) :
    items.length < wordLimit ∧ ∀ item ∈ items, item.InMemory := by
  have hpart : ∀ item ∈ items, ∀ part, item.HasPart part → value.HasPart part := by
    intro item hitem part hpart
    rcases hvalue with rfl | rfl
    · exact .tuple hitem hpart
    · exact .list hitem hpart
  constructor
  · rcases hvalue with rfl | rfl
    · exact h.short items (Or.inl (.self _))
    · exact h.short items (Or.inr (.self _))
  · intro item hitem
    exact ⟨fun inner hinner => h.short inner (hinner.imp (hpart item hitem _) (hpart item hitem _)),
      fun entries hentries => h.keys entries (hpart item hitem _ hentries)⟩

lemma InMemory.dict {entries : List (Key × Value)} (h : (Value.dict entries).InMemory) :
    (Table.keys entries).Nodup ∧ ∀ key item, (key, item) ∈ entries → item.InMemory :=
  ⟨h.keys entries (.self _), fun _ _ hitem =>
    ⟨fun items hitems => h.short items (hitems.imp (.dict hitem) (.dict hitem)),
      fun inner hinner => h.keys inner (.dict hitem hinner)⟩⟩

lemma guarded_iff : value.Guarded config scope path guard ↔
    (∃ step item, value.Contains step item ∧ item.Guarded config scope (path.below step) guard) ∨
      guard = ⟨path.written, scope, value.check config⟩ := by
  constructor
  · rintro ⟨place, part, hpart, rfl⟩
    cases hpart with
    | self => exact Or.inr rfl
    | item hitem hpart => exact Or.inl ⟨_, _, hitem, place, part, hpart, rfl⟩
  · rintro (⟨step, item, hitem, place, part, hpart, rfl⟩ | rfl)
    · exact ⟨place, part, .item hitem hpart, rfl⟩
    · exact ⟨path, value, .self .., rfl⟩

/-- A sequence is guarded at its own place and with its items. -/
lemma guarded_sequence_iff {items : List Value}
    (hvalue : value = .tuple items ∨ value = .list items)
    (hshort : items.length < wordLimit) : value.Guarded config scope path guard ↔
      (∃ (i : Nat) (item : Value), items[i]? = some item ∧
        item.Guarded config scope (path.below (.index (.int (Int64.ofInt i)))) guard) ∨
      guard = ⟨path.written, scope, value.check config⟩ := by
  rw [guarded_iff]
  refine or_congr_left ?_
  constructor
  · rintro ⟨step, item, hstep, hguard⟩
    obtain ⟨i, hitem, rfl⟩ := (contains_sequence_iff hvalue hshort).1 hstep
    exact ⟨i, item, hitem, hguard⟩
  · rintro ⟨i, item, hitem, hguard⟩
    exact ⟨_, item, (contains_sequence_iff hvalue hshort).2 ⟨i, hitem, rfl⟩, hguard⟩

/-- A dictionary is guarded at its own place and with its items. -/
lemma guarded_dict_iff {entries : List (Key × Value)} (hkeys : (Table.keys entries).Nodup) :
    (Value.dict entries).Guarded config scope path guard ↔
      (∃ (key : Key) (item : Value), (key, item) ∈ entries ∧
        item.Guarded config scope (path.below (.index key)) guard) ∨
      guard = ⟨path.written, scope, .keysMatch (Table.keys entries)⟩ := by
  rw [guarded_iff]
  refine or_congr_left ?_
  constructor
  · rintro ⟨step, item, hstep, hguard⟩
    obtain ⟨key, hitem, rfl⟩ := (contains_dict_iff hkeys).1 hstep
    exact ⟨key, item, hitem, hguard⟩
  · rintro ⟨key, item, hitem, hguard⟩
    exact ⟨_, item, (contains_dict_iff hkeys).2 ⟨key, hitem, rfl⟩, hguard⟩

/-- A value without items is guarded at its own place only. -/
lemma guarded_iff_of_leaf (hleaf : ∀ step item, ¬ value.Contains step item) :
    value.Guarded config scope path guard ↔ guard = ⟨path.written, scope, value.check config⟩ := by
  rw [guarded_iff]
  exact or_iff_right fun ⟨step, item, hitem, _⟩ => hleaf step item hitem

end Value

namespace TraceM

variable {config : Config} {scope : Scope}

lemma mem_guards_ofKind_boundTo {kind : Kind} {text : String} {check : Check} {guard : Guard} :
    guard ∈ ((Symbolic.ofKind kind).boundTo text scope check).guards ↔
      guard = ⟨text, scope, check⟩ := by
  rw [Symbolic.mem_boundTo]
  exact or_iff_right List.not_mem_nil

mutual

/-- The guards of a wrapped value are the checks of all that is wrapped with it, at their places. -/
lemma mem_guards_wrap_iff : ∀ (value : Value) (path : Path), value.InMemory → ∀ state wrapped after,
    wrap config scope value path.written state = .ok (wrapped, after) →
      ∀ guard, guard ∈ wrapped.guards ↔ value.Guarded config scope path guard
  | value, path, hmemory, state, wrapped, after, h, guard => by
    cases value with
    | tuple items | list items =>
      have hsequence : items.length < wordLimit ∧ ∀ item ∈ items, item.InMemory :=
  hmemory.sequence (by simp)
      obtain ⟨hshort, hitems⟩ := hsequence
      obtain ⟨inner, middle, hinner, hvalue⟩ := bind_eq_ok.1 h
      cases pure_eq_ok.1 hvalue
      have hguards := mem_guards_wrapItems_iff items path 0 (by simpa using hshort)
        hitems _ _ _ hinner guard
      simp only [Nat.zero_add] at hguards
      rw [Symbolic.mem_boundTo, Symbolic.sequence, Symbolic.mem_derived, hguards,
        Value.guarded_sequence_iff (by simp) hshort]
      rfl
    | dict entries =>
      obtain ⟨hnodup, hitems⟩ := hmemory.dict
      obtain ⟨inner, middle, hinner, hvalue⟩ := bind_eq_ok.1 h
      cases pure_eq_ok.1 hvalue
      have hguards := mem_guards_wrapEntries_iff entries path hitems _ _ _ hinner guard
      rw [Symbolic.mem_boundTo, Symbolic.mem_derived, hguards, Value.guarded_dict_iff hnodup]
    | array numbers =>
      obtain ⟨node, middle, -, hvalue⟩ := bind_eq_ok.1 h
      cases pure_eq_ok.1 hvalue
      rw [Value.guarded_iff_of_leaf]
      · exact mem_guards_ofKind_boundTo
      · rintro step item ⟨⟩
    | int _ | float _ =>
      rw [Value.guarded_iff_of_leaf, Value.check]
      · cases hscalars : config.specializeScalars with
        | true =>
          simp only [wrap, hscalars, if_true] at h ⊢
          cases pure_eq_ok.1 h
          exact mem_guards_ofKind_boundTo
        | false =>
          simp only [wrap, hscalars, Bool.false_eq_true, if_false] at h ⊢
          obtain ⟨node, middle, -, hvalue⟩ := bind_eq_ok.1 h
          cases pure_eq_ok.1 hvalue
          exact mem_guards_ofKind_boundTo
      · rintro step item ⟨⟩
    | _ =>
      cases pure_eq_ok.1 h
      rw [Value.guarded_iff_of_leaf]
      · exact mem_guards_ofKind_boundTo
      · rintro step item ⟨⟩
termination_by structural value => value

lemma mem_guards_wrapItems_iff : ∀ (items : List Value) (path : Path) (position : Nat),
    position + items.length < wordLimit → (∀ item ∈ items, item.InMemory) → ∀ state wrapped after,
    wrapItems config scope items path.written position state = .ok (wrapped, after) →
      ∀ guard, (∃ value ∈ wrapped, guard ∈ value.guards) ↔
        ∃ (i : Nat) (item : Value), items[i]? = some item ∧
        item.Guarded config scope
          (path.below (.index (.int (Int64.ofInt (position + i : Nat))))) guard
  | [], path, position, _, _, state, wrapped, after, h, guard => by
    cases pure_eq_ok.1 h
    simp
  | first :: rest, path, position, hshort, hmemory, state, wrapped, after, h, guard => by
    obtain ⟨value, middle, hfirst, h⟩ := bind_eq_ok.1 h
    obtain ⟨values, last, hrest, h⟩ := bind_eq_ok.1 h
    cases pure_eq_ok.1 h
    simp only [List.length_cons] at hshort
    rw [← Path.written_below_position path (by omega)] at hfirst
    have hhead := mem_guards_wrap_iff first _
      (hmemory first (List.mem_cons_self ..)) _ _ _ hfirst guard
    have htail := mem_guards_wrapItems_iff rest path (position + 1) (by omega)
      (fun item hitem => hmemory item (List.mem_cons_of_mem _ hitem)) _ _ _ hrest guard
    rw [List.exists_mem_cons_iff, hhead, htail]
    constructor
    · rintro (hguard | ⟨i, item, hitem, hguard⟩)
      · exact ⟨0, first, rfl, hguard⟩
      · rw [Nat.add_right_comm] at hguard
        exact ⟨i + 1, item, hitem, hguard⟩
    · rintro ⟨_ | i, item, hitem, hguard⟩
      · cases hitem
        exact Or.inl hguard
      · refine Or.inr ⟨i, item, hitem, ?_⟩
        rw [Nat.add_right_comm]
        exact hguard
termination_by structural items => items

lemma mem_guards_wrapEntries_iff : ∀ (entries : List (Key × Value)) (path : Path),
    (∀ key item, (key, item) ∈ entries → item.InMemory) → ∀ state wrapped after,
    wrapEntries config scope entries path.written state = .ok (wrapped, after) →
      ∀ guard, (∃ value ∈ Table.values wrapped, guard ∈ value.guards) ↔
        ∃ (key : Key) (item : Value),
        (key, item) ∈ entries ∧ item.Guarded config scope (path.below (.index key)) guard
  | [], path, _, state, wrapped, after, h, guard => by
    cases pure_eq_ok.1 h
    simp [Table.values]
  | (key, first) :: rest, path, hmemory, state, wrapped, after, h, guard => by
    obtain ⟨value, middle, hfirst, h⟩ := bind_eq_ok.1 h
    obtain ⟨values, last, hrest, h⟩ := bind_eq_ok.1 h
    cases pure_eq_ok.1 h
    rw [← Path.written_below_index] at hfirst
    have hhead := mem_guards_wrap_iff first _
      (hmemory key first (List.mem_cons_self ..)) _ _ _ hfirst guard
    have htail := mem_guards_wrapEntries_iff rest path
      (fun key item hitem => hmemory key item (List.mem_cons_of_mem _ hitem)) _ _ _ hrest guard
    rw [Table.values, List.map_cons, List.exists_mem_cons_iff, hhead]
    refine (or_congr_right htail).trans ?_
    constructor
    · rintro (hguard | ⟨key, item, hitem, hguard⟩)
      · exact ⟨key, first, List.mem_cons_self .., hguard⟩
      · exact ⟨key, item, List.mem_cons_of_mem _ hitem, hguard⟩
    · rintro ⟨key', item, hitem, hguard⟩
      rcases List.mem_cons.1 hitem with heq | hitem
      · cases heq
        exact Or.inl hguard
      · exact Or.inr ⟨key', item, hitem, hguard⟩
termination_by structural entries => entries

end

end TraceM

/-! ### Wrapped places -/

namespace Frame

/-- A trace of the frame can wrap the value under the path. -/
inductive Wraps (frame : Frame) (scope : Scope) : Path → Value → Prop where
  | binding {name : String} {value : Value} (hvalue : frame.lookup? scope name = some value) :
    Wraps frame scope ⟨name, []⟩ value
  | item {path : Path} {outer item : Value} {step : PathStep} (h : Wraps frame scope path outer)
    (hitem : outer.Contains step item) : Wraps frame scope (path.below step) item
  | attr {path : Path} {owner : Instance} {name : String} {serial : Nat} {item : Value}
    (h : Wraps frame scope path (.object owner))
    (hattr : (Value.object owner).getAttr serial name = .ok item) :
    Wraps frame scope (path.below (.attr name)) item

variable {frame : Frame} {scope : Scope} {path : Path} {value : Value}

lemma Wraps.beneath {place : Path} {part : Value} (h : frame.Wraps scope path value)
    (hpart : Value.Beneath path value place part) : frame.Wraps scope place part := by
  induction hpart with
  | self => exact h
  | item hitem _ ih => exact ih (h.item hitem)

/-- The guards of a wrapped value stand at places where a trace can wrap a value, and ask for its
check. -/
lemma Wraps.exists_of_mem_guards (h : frame.Wraps scope path value) (hmemory : value.InMemory)
    {config : Config} {state after : Tracer} {wrapped : Symbolic}
    (hwrap : TraceM.wrap config scope value path.written state = .ok (wrapped, after))
    {guard : Guard}
    (hguard : guard ∈ wrapped.guards) :
    ∃ place part, frame.Wraps scope place part ∧
      guard = ⟨place.written, scope, part.check config⟩ := by
  obtain ⟨place, part, hpart, heq⟩ :=
    (TraceM.mem_guards_wrap_iff value path hmemory _ _ _ hwrap guard).1 hguard
  exact ⟨place, part, h.beneath hpart, heq⟩

/-- Reading an attribute of a wrapped object adds guards of this kind. -/
lemma Wraps.exists_of_mem_guards_getAttr {owner : Instance}
    (h : frame.Wraps scope path (.object owner))
    {holder result : Symbolic} {type : TypeName}
    (hkind : holder.kind = .unsupported (.object owner) type)
    (hplace : TraceM.nameAndScope? holder = some (path.written, scope)) {name : String}
    (hmemory : ∀ live, (Value.object owner).getAttr 0 name = .ok live → live.InMemory)
    {config : Config} {state after : Tracer}
    (hattr : TraceM.getAttr config holder name state = .ok (result, after)) {guard : Guard}
    (hguard : guard ∈ result.guards) : guard ∈ holder.guards ∨
      ∃ place part, frame.Wraps scope place part ∧
        guard = ⟨place.written, scope, part.check config⟩ := by
  simp only [TraceM.getAttr, hkind, hplace, TraceM.bind_eq_ok, TraceM.ofRun_eq_ok] at hattr
  obtain ⟨live, middle, ⟨hlive, rfl⟩, wrapped, last, hwrap, hresult⟩ := hattr
  cases TraceM.pure_eq_ok.1 hresult
  rw [← Path.written_below_attr] at hwrap
  rcases GuardSet.mem_union.1 hguard with hguard | hguard
  · exact Or.inr ((h.attr hlive).exists_of_mem_guards (hmemory live hlive) hwrap hguard)
  · exact Or.inl hguard

/-! ### Well-formed paths lead back -/

lemma resolve_below {step : PathStep} {item : Value} (hpath : path.WellFormed)
    (hstep : step.Legible)
    (h : frame.resolve scope path.written = .ok value) :
    frame.resolve scope (path.below step).written = .ok item ↔ Path.take value step = .ok item := by
  refine resolve_step (fun found hfound => ?_) h
  obtain rfl : path = found := Except.ok.inj ((Path.read_written hpath).symm.trans hfound)
  exact Path.read_written (Path.wellFormed_below.2 ⟨hpath, hstep⟩)

/-- The text of a well-formed path leads back to what was wrapped under it. -/
lemma Wraps.leads_back (h : frame.Wraps scope path value) (hpath : path.WellFormed) :
    ∃ found, frame.resolve scope path.written = .ok found ∧ value.Rebound found := by
  induction h with
  | binding hvalue => exact ⟨_, (resolve_identifier hpath.root).2 hvalue, .refl _⟩
  | item h hitem ih =>
    obtain ⟨houter, hstep⟩ := Path.wellFormed_below.1 hpath
    obtain ⟨outer, hplace, hsame⟩ := ih houter
    obtain rfl := hitem.eq_of_rebound hsame
    exact ⟨_, (resolve_below houter hstep hplace).2 hitem.take, .refl _⟩
  | attr h hattr ih =>
    obtain ⟨houter, hstep⟩ := Path.wellFormed_below.1 hpath
    obtain ⟨outer, hplace, hsame⟩ := ih houter
    cases hsame
    obtain ⟨found, hfound, hsame⟩ := Value.exists_rebound_of_getAttr hattr
    exact ⟨found, (resolve_below houter hstep hplace).2 hfound, hsame⟩

/-! ### Other paths lead elsewhere -/

lemma lookup_singleton_eq_some {α β : Type} [BEq α] [LawfulBEq α]
    {key key' : α} {value value' : β} :
    [(key, value)].lookup key' = some value' ↔ key' = key ∧ value' = value := by
  by_cases hkey : key' = key
  · simp [hkey, eq_comm]
  · simp [hkey, List.lookup_cons, beq_eq_false_iff_ne.2 hkey]

/-- A value with nothing at the end of the steps, which no other steps lead to. -/
def nest : List PathStep → Value
  | [] => .none
  | .index key :: rest => .dict [(key, nest rest)]
  | .attr name :: rest => .object ⟨.declared rest.length, "Holder", [(name, nest rest)]⟩

lemma nest_ne_routine (steps : List PathStep) (function : Routine) :
    nest steps ≠ .routine function := by
  rcases steps with _ | ⟨_ | _, _⟩ <;> simp [nest]

lemma take_nest_iff {step other : PathStep} {steps : List PathStep} {item : Value} :
    Path.take (nest (step :: steps)) other = .ok item ↔ other = step ∧ item = nest steps := by
  cases step with
  | index key =>
    cases other with
    | attr name => simp [Path.take, nest, Value.getAttr]
    | index key' =>
      have hentry : Path.take (nest (.index key :: steps)) (.index key') =
          Value.entryAt [(key, nest steps)] key' := by
        cases key' <;> rfl
      rw [hentry, PathStep.index.injEq, ← lookup_singleton_eq_some, Value.entryAt]
      cases [(key, nest steps)].lookup key' <;> simp
  | attr name =>
    cases other with
    | index key => cases key <;> simp [Path.take, nest, Value.subscript, Value.ofKey]
    | attr name' =>
      rw [PathStep.attr.injEq, ← lookup_singleton_eq_some]
      simp only [Path.take, nest, Value.getAttr]
      cases hfound : [(name, nest steps)].lookup name' with
      | none => simp
      | some found =>
        obtain ⟨-, rfl⟩ := lookup_singleton_eq_some.1 hfound
        cases hnest : nest steps with
        | routine function => exact absurd hnest (nest_ne_routine steps function)
        | _ => simp

lemma steps_eq_of_follow_nest {steps other : List PathStep}
    (h : Path.follow (nest steps) other = .ok .none) :
    other = steps := by
  induction steps generalizing other with
  | nil =>
    cases other with
    | nil => rfl
    | cons step rest =>
      obtain ⟨next, hnext, -⟩ := except_bind_eq_ok.1 h
      rcases step with name | key | key <;> cases hnext
  | cons step steps ih =>
    cases other with
    | nil => cases step <;> cases h
    | cons step' rest =>
      obtain ⟨next, hnext, hrest⟩ := except_bind_eq_ok.1 h
      obtain ⟨rfl, rfl⟩ := take_nest_iff.1 hnext
      rw [ih hrest]

/-- What is nested in a wrapped value is wrapped at the end of its steps. -/
lemma Wraps.of_nest {steps : List PathStep} (h : frame.Wraps scope path (nest steps)) :
    frame.Wraps scope ⟨path.root, path.steps ++ steps⟩ .none := by
  induction steps generalizing path with
  | nil => simpa [nest] using h
  | cons step steps ih =>
    have hnext : frame.Wraps scope (path.below step) (nest steps) := by
      cases step with
      | index key => exact h.item (.dict (by simp))
      | attr name =>
        have hattr : Path.take (nest (.attr name :: steps)) (.attr name) = .ok (nest steps) :=
          take_nest_iff.2 ⟨rfl, rfl⟩
        exact h.attr hattr
    simpa [Path.below] using ih hnext

/-- **When the paths of wrapped values lead back.**  The text of a path leads back to whatever a
trace of any frame wraps under the path, exactly when the path is well formed, and two well-formed
paths have two texts. -/
theorem wrapped_leads_back_iff (path : Path) :
    (path.WellFormed ↔ ∀ (frame : Frame) (scope : Scope) (value : Value),
      frame.Wraps scope path value →
      ∃ found, frame.resolve scope path.written = .ok found ∧ value.Rebound found) ∧
    ∀ other : Path, path.WellFormed → other.WellFormed →
      other.written = path.written → other = path := by
  refine ⟨⟨fun hpath frame scope value h => h.leads_back hpath, fun h => ?_⟩,
    fun other hpath hother => Path.eq_of_written_eq hpath hother⟩
  -- in this frame nothing but the path itself leads to what is wrapped under it
  let frame : Frame := { locals := [(path.root, nest path.steps)] }
  have hroot : frame.Wraps .locals ⟨path.root, []⟩ (nest path.steps) :=
    .binding (by simp [frame, lookup?])
  obtain ⟨found, hfound, hsame⟩ := h frame .locals .none (by simpa using hroot.of_nest)
  cases hsame
  obtain ⟨other, hread, hplace⟩ := resolve_eq_ok_iff.1 hfound
  obtain ⟨root, hlookup, hfollow⟩ := path_resolve_eq_ok_iff.1 hplace
  obtain ⟨hroot, rfl⟩ := lookup_singleton_eq_some.1 hlookup
  have hsteps := steps_eq_of_follow_nest hfollow
  obtain ⟨name, steps⟩ := other
  cases hroot
  cases hsteps
  exact Path.wellFormed_of_read hread

/-- An object that holds two sizes. -/
def sizesHolder : Instance := ⟨.declared 1, "Config", [("dims", .list [.int 3, .int 4])]⟩

/-- A size that the object holds is found again under the path it is wrapped under. -/
theorem size_leads_back : ∃ found,
    resolve { locals := [("cfg", .object sizesHolder)] } .locals "cfg.dims[1]" = .ok found ∧
      Value.Rebound (.int 4) found := by
  let frame : Frame := { locals := [("cfg", .object sizesHolder)] }
  have hobject : frame.Wraps .locals ⟨"cfg", []⟩ (.object sizesHolder) := .binding rfl
  have hattr : (Value.object sizesHolder).getAttr 0 "dims" = .ok (.list [.int 3, .int 4]) := rfl
  have hitem : (Value.list [.int 3, .int 4]).Contains (.index (.int 1)) (.int 4) :=
    @Value.Contains.list [.int 3, .int 4] (.int 4) 1 (by decide) rfl
  have hpath : Path.WellFormed ⟨"cfg", [.attr "dims", .index (.int 1)]⟩ := by
    refine ⟨by decide, List.forall_mem_cons.2 ⟨?_, List.forall_mem_cons.2 ⟨nofun, nofun⟩⟩⟩
    change PathStep.isAttrName "dims".toList = true
    decide
  exact (wrapped_leads_back_iff ⟨"cfg", [.attr "dims", .index (.int 1)]⟩).1.1
    hpath frame .locals (.int 4)
    ((hobject.attr hattr).item hitem)

/-- A key that contains brackets has the path of another place. -/
theorem not_wrapped_leads_back : ¬ ∀ (frame : Frame) (scope : Scope) (path : Path) (value : Value),
    Text.isIdentifier path.root.toList = true → frame.Wraps scope path value →
      ∃ found, frame.resolve scope path.written = .ok found ∧ value.Rebound found := by
  intro h
  let frame : Frame :=
    { locals :=
        [("d", .dict [(.text "k", .dict [(.text "k", .int 2)]), (.text "k']['k", .int 1)])] }
  have hitem : frame.Wraps .locals ⟨"d", [.index (.text "k']['k")]⟩ (.int 1) :=
    .item (.binding rfl) (.dict rfl)
  obtain ⟨found, hfound, hsame⟩ :=
    h frame .locals ⟨"d", [.index (.text "k']['k")]⟩ (.int 1) (by decide) hitem
  cases hsame
  have : frame.resolve .locals (Path.written ⟨"d", [.index (.text "k']['k")]⟩) = .ok (.int 2) := by
    rfl
  cases this.symm.trans hfound

end Frame

end GuardedTrace
