/-
Properties that derived values inherit.

A property of symbolic values is *inherited* when it says something of guards that unions keep, and
otherwise looks at no more than what a value is and where it was read.  Then everything that is made
from values which have it throughout, by deriving values, taking items, advancing iterators, reading
attributes or calling what is known, has it throughout.  What a trace wraps from its frame has it
when the paths that it writes lead where they say (`Binds`).
-/
import GuardedTrace.Proofs.NestedValues
import GuardedTrace.Proofs.TwoRuns

namespace GuardedTrace

namespace Symbolic

lemma throughoutKind_nodeResult {P : Symbolic → Prop} (node : Nat) (function : Primitive)
    (operands : List Symbolic) : ThroughoutKind P (nodeResult node function operands) := by
  rcases nodeResult_cases node function operands with ⟨facts, h⟩ | ⟨facts, h⟩ <;>
    exact h ▸ trivial

/-- A property of values that derived values inherit; `G` is what it says of their guards. -/
structure Inherited (G : GuardSet → Prop) (P : Symbolic → Prop) : Prop where
  empty : G []
  union : ∀ {guards others : GuardSet}, G guards → G others → G (guards.union others)
  guards : ∀ {value : Symbolic}, P value → G value.guards
  bare : ∀ kind : Kind, P (.ofKind kind)
  joined : ∀ {value : Symbolic} {support : Support} {guards : GuardSet}, P value → G guards →
    P { value with support, guards := GuardSet.union value.guards guards }
  unnamed : ∀ {value : Symbolic} {kind : Kind}, P value →
    P { value with kind, localName := none, globalName := none }

namespace Inherited

variable {G : GuardSet → Prop} {P : Symbolic → Prop} (hP : Inherited G P)
  {value key callee : Symbolic} {kind : Kind} {items args : List Symbolic}

include hP

/-! ### Derived values -/

lemma guards_of (h : value.Throughout P) : G value.guards := hP.guards h.self

protected lemma propagate (h : ∀ value ∈ items, value.Throughout P) :
    G (propagate items).guards := by
  suffices hfold : ∀ start : Propagation, G start.guards → G (items.foldl (fun acc value =>
      ⟨acc.support.combine value.support, GuardSet.union acc.guards value.guards⟩)
        start).guards from
    hfold ⟨.unknown, []⟩ hP.empty
  induction items with
  | nil => exact fun start hstart => hstart
  | cons value rest ih =>
    obtain ⟨hvalue, hrest⟩ := List.forall_mem_cons.1 h
    exact fun start hstart => ih hrest _ (hP.union hstart (hP.guards_of hvalue))

protected lemma inherit (h : value.Throughout P) {propagation : Propagation}
    (hinherited : G propagation.guards) :
    (value.inherit propagation).Throughout P :=
  throughout_iff.2 ⟨hP.joined h.self hinherited, h.parts⟩

protected lemma addGuards (h : value.Throughout P) {guards : GuardSet} (hadded : G guards) :
    (value.addGuards guards).Throughout P :=
  throughout_iff.2 ⟨hP.joined h.self hadded, h.parts⟩

protected lemma ofKind (hkind : ThroughoutKind P kind) : (ofKind kind).Throughout P :=
  throughout_iff.2 ⟨hP.bare kind, hkind⟩

protected lemma constant (literal : Literal) : (constant literal).Throughout P := hP.ofKind trivial

/-- A value of such parts that is derived from such values. -/
protected lemma derived (hkind : ThroughoutKind P kind)
    (hoperands : ∀ value ∈ items, value.Throughout P) :
    (derived kind items).Throughout P :=
  hP.inherit (hP.ofKind hkind) (hP.propagate hoperands)

lemma derived_one (hkind : ThroughoutKind P kind) (h : value.Throughout P) :
    (derived kind [value]).Throughout P :=
  hP.derived hkind (by simpa using h)

lemma derived_pair (hkind : ThroughoutKind P kind) (h : value.Throughout P)
    (hkey : key.Throughout P) :
    (derived kind [value, key]).Throughout P :=
  hP.derived hkind (by simpa using ⟨h, hkey⟩)

protected lemma sequence {kind : SequenceKind} (h : ∀ item ∈ items, item.Throughout P) :
    (sequence kind items).Throughout P :=
  hP.derived (throughoutItems_iff.2 h) h

/-! ### Containers -/

lemma of_layerItems (hvalue : value.Throughout P) (h : value.layerItems = .ok items) :
    ∀ item ∈ items, item.Throughout P := by
  unfold layerItems at h
  split at h
  · split at h
    · cases h
      intro item hitem
      obtain ⟨position, hposition, rfl⟩ := List.mem_mapIdx.1 hitem
      exact hP.derived_one trivial hvalue
    · cases h
  · cases h

lemma of_items (hvalue : value.Throughout P) (h : value.items = .ok items) :
    ∀ item ∈ items, item.Throughout P := by
  have hkind := hvalue.parts
  have hparts {parts : List Symbolic} (hparts : ThroughoutItems P parts) :
      ∀ item ∈ parts.map (·.addGuards value.guards), item.Throughout P := by
    intro item hitem
    obtain ⟨part, hpart, rfl⟩ := List.mem_map.1 hitem
    exact hP.addGuards (throughoutItems_iff.1 hparts part hpart) (hP.guards_of hvalue)
  unfold Symbolic.items at h
  split at h
  · next heq =>
    cases h
    rw [heq] at hkind
    exact hparts hkind
  · next heq =>
    cases h
    rw [heq] at hkind
    exact hparts hkind
  · split at h
    · cases h
      intro item hitem
      obtain ⟨literal, -, rfl⟩ := List.mem_map.1 hitem
      exact hP.derived_one trivial hvalue
    · cases h
  · exact hP.of_layerItems hvalue h
  · cases h

lemma of_sequenceItem {kind : SequenceKind} {index : Literal} {item : Symbolic}
    (hvalue : value.Throughout P) (hkey : key.Throughout P) (hitems : ThroughoutItems P items)
    (h : value.sequenceItem kind items key index = .ok item) : item.Throughout P := by
  have hall := throughoutItems_iff.1 hitems
  unfold sequenceItem at h
  split at h
  · split at h
    · cases h
      refine hP.derived_pair (throughoutItems_iff.2 fun part hpart => ?_) hvalue hkey
      obtain ⟨position, -, hposition⟩ := List.mem_filterMap.1 hpart
      exact hall part (List.mem_of_getElem? hposition)
    · cases h
  · split at h
    · cases h
    · split at h
      · next found hfound =>
        cases h
        obtain ⟨position, -, hposition⟩ := Option.bind_eq_some_iff.1 hfound
        exact hP.inherit (hall found (List.mem_of_getElem? hposition))
          (hP.propagate (by simpa using ⟨hvalue, hkey⟩))
      · cases h

lemma of_layerItem {index : Int64} {item : Symbolic} (hvalue : value.Throughout P)
    (hkey : key.Throughout P) (h : value.layerItem index key = .ok item) : item.Throughout P := by
  unfold layerItem at h
  split at h
  · split at h
    · cases h
    · split at h
      · cases h
        exact hP.derived_pair trivial hvalue hkey
      · cases h
  · cases h

lemma of_getItem {item : Symbolic} (hvalue : value.Throughout P) (hkey : key.Throughout P)
    (h : value.getItem key = .ok item) : item.Throughout P := by
  obtain ⟨index, -, h⟩ := except_bind_eq_ok.1 h
  have hkind := hvalue.parts
  split at h
  · next heq =>
    rw [heq] at hkind
    exact hP.of_sequenceItem hvalue hkey hkind h
  · next heq =>
    rw [heq] at hkind
    exact hP.of_sequenceItem hvalue hkey hkind h
  · next entries heq =>
    rw [heq] at hkind
    split at h
    · cases h
    · split at h
      · next found hfound =>
        cases h
        obtain ⟨before, behind, hsplit, -⟩ := List.lookup_eq_some_iff.1 hfound
        have hentry := throughoutEntries_iff.1 hkind _
          (hsplit ▸ List.mem_append_right _ (List.mem_cons_self ..))
        exact hP.inherit hentry (hP.propagate (by simpa using ⟨hvalue, hkey⟩))
      · cases h
  · split at h
    · cases h
      exact hP.derived_pair trivial hvalue hkey
    · cases h
  · split at h
    · exact hP.of_layerItem hvalue hkey h
    · cases h
  · cases h

lemma of_iterate {iterator : Symbolic} (hvalue : value.Throughout P)
    (h : value.iterate = .ok iterator) : iterator.Throughout P := by
  obtain ⟨items, hitems, rfl⟩ := except_map_eq_ok.1 h
  exact hP.derived_one (throughoutItems_iff.2 (hP.of_items hvalue hitems)) hvalue

lemma of_advance {item next : Symbolic} (hvalue : value.Throughout P)
    (h : value.advance = .ok (some (item, next))) : item.Throughout P ∧ next.Throughout P := by
  have hkind := hvalue.parts
  unfold advance at h
  split at h
  · next items position heq =>
    rw [heq] at hkind
    split at h
    · cases h
    · next found hfound =>
      cases h
      have hitem := throughoutItems_iff.1 hkind found (List.mem_of_getElem? hfound)
      exact ⟨hP.addGuards hitem (hP.guards_of hvalue),
        throughout_iff.2 ⟨hP.unnamed hvalue.self, hkind⟩⟩
  · cases h

/-! ### Calls and attributes -/

lemma of_callDeferred {result : Symbolic} (hcallee : callee.Throughout P)
    (hargs : ∀ arg ∈ args, arg.Throughout P) (h : callee.callDeferred args = .ok result) :
    result.Throughout P := by
  have hresult (literal : Literal) : (derived (.constant literal) (callee :: args)).Throughout P :=
    hP.derived trivial (List.forall_mem_cons.2 ⟨hcallee, hargs⟩)
  unfold callDeferred at h
  split at h
  · obtain ⟨literal, -, h⟩ := except_bind_eq_ok.1 h
    match args, h with
    | [], h =>
      cases h
      exact hresult literal
    | [index], h =>
      obtain ⟨key, -, h⟩ := except_bind_eq_ok.1 h
      split at h
      · cases h
        exact hresult _
      · cases h
    | _ :: _ :: _, h => cases h
  · cases h

lemma of_constAttr? {name : String} {attr : Symbolic} (hvalue : value.Throughout P)
    (h : value.constAttr? name = some attr) : attr.Throughout P := by
  unfold constAttr? at h
  split at h
  · obtain ⟨literal, -, rfl⟩ := Option.map_eq_some_iff.1 h
    have hconstant : (derived (.constant literal) [value]).Throughout P :=
      hP.derived_one trivial hvalue
    dsimp only
    split
    · exact hP.derived_one hconstant hvalue
    · exact hconstant
  · cases h

lemma lazyAttr (hvalue : value.Throughout P) (name : String) :
    (TraceM.lazyAttr value name).Throughout P := hP.derived_one hvalue hvalue

lemma constOrLazyAttr (hvalue : value.Throughout P) (name : String) :
    (TraceM.constOrLazyAttr value name).Throughout P := by
  unfold TraceM.constOrLazyAttr
  split
  · exact hP.derived_one trivial hvalue
  · exact hP.lazyAttr hvalue name

lemma wrapMember (hvalue : value.Throughout P) (member : Value) :
    (TraceM.wrapMember value member).Throughout P := by
  refine hP.derived_one ?_ hvalue
  split
  case h_6 => split <;> trivial
  all_goals trivial

end Inherited

end Symbolic

/-! ### Wrapped values -/

lemma ArraySpec.mismatch?_of (numbers : NumArray) (dynamicShapes : Bool) :
    (ArraySpec.of numbers dynamicShapes).mismatch? numbers = none := by
  cases dynamicShapes <;> simp [ArraySpec.mismatch?, ArraySpec.of, ArraySpec.differs]

/-- What a trace wraps has a property: `At` says what stands at a path, it holds of all paths that
the trace writes, and values keep the property when they are bound to the path of what they stand
for. -/
structure Binds (context : TraceContext) (P : Symbolic → Prop)
    (At : Scope → String → Value → Prop) : Prop where
  root : ∀ {scope : Scope} {name : String} {live : Value},
    name ∈ context.code.varNames ∨ name ∈ context.code.names →
    context.frame.lookup? scope name = some live → At scope name live
  item : ∀ {scope : Scope} {path : String} {items : List Value} {position : Nat} {item : Value},
    At scope path (.tuple items) ∨ At scope path (.list items) → items[position]? = some item →
    At scope (path ++ "[" ++ Text.showNat position ++ "]") item
  entry : ∀ {scope : Scope} {path : String} {entries : List (Key × Value)}
    {key : Key} {item : Value},
    At scope path (.dict entries) → (key, item) ∈ entries →
      At scope (path ++ "[" ++ key.written ++ "]") item
  attr : ∀ {value : Symbolic} {held live : Value} {type : TypeName}
    {base name : String} {scope : Scope},
    P value → value.kind = .unsupported held type →
      TraceM.nameAndScope? value = some (base, scope) →
    name ∈ context.code.names → held.getAttr 0 name = .ok live → At scope (base ++ "." ++ name) live
  bound : ∀ {value : Symbolic} {scope : Scope} {path : String} {live : Value} {check : Check},
    P value → value.localName = none → At scope path live → check.mismatch? live = none →
    (∀ held type, value.kind = .unsupported held type → live = held) →
      P (value.boundTo path scope check)
  builtin : ∀ {name : String} {function : Builtin}, name ∈ context.code.names →
    context.frame.lookup? .globals name = none → P (TraceM.wrapBuiltin name function)

namespace Binds

variable {context : TraceContext} {G : GuardSet → Prop} {P : Symbolic → Prop}
  {At : Scope → String → Value → Prop} {scope : Scope} {path : String} {live : Value}

section

variable (hB : Binds context P At)

include hB

lemma boundTo {value : Symbolic} {check : Check} (h : value.Throughout P)
    (hlocal : value.localName = none)
    (hat : At scope path live) (hpasses : check.mismatch? live = none)
    (hheld : ∀ held type, value.kind = .unsupported held type → live = held) :
    (value.boundTo path scope check).Throughout P := by
  refine Symbolic.throughout_iff.2 ⟨hB.bound h.self hlocal hat hpasses hheld, ?_⟩
  rw [Symbolic.kind_boundTo]
  exact h.parts

variable (hP : Symbolic.Inherited G P)

include hP

lemma boundKind {kind : Kind} {check : Check} (hkind : Symbolic.ThroughoutKind P kind)
    (hat : At scope path live) (hpasses : check.mismatch? live = none)
    (hheld : ∀ held type, kind = .unsupported held type → live = held) :
    ((Symbolic.ofKind kind).boundTo path scope check).Throughout P :=
  hB.boundTo (hP.ofKind hkind) rfl hat hpasses hheld

lemma wrapConstant {literal : Literal} (hat : At scope path (.ofLiteral literal)) :
    (TraceM.wrapConstant literal path scope).Throughout P := by
  refine hB.boundKind hP trivial hat ?_ nofun
  simp [Check.mismatch?, Value.literal?_ofLiteral]

lemma wrapScalar {elementType : ElementType} {type : TypeName}
    {state after : Tracer} {value : Symbolic}
    (h : TraceM.wrapScalar path scope elementType type state = .ok (value, after))
    (hat : At scope path live) (htype : live.typeName = type) : value.Throughout P := by
  simp only [TraceM.wrapScalar, TraceM.bind_eq_ok, TraceM.pure_eq_ok, Prod.mk.injEq] at h
  obtain ⟨node, _, -, rfl, -⟩ := h
  exact hB.boundKind hP trivial hat (by simp [Check.mismatch?, htype]) fun _ _ h => by cases h

end

mutual

/-- What is wrapped from a path where it stands has the property. -/
lemma wrap (hB : Binds context P At) (hP : Symbolic.Inherited G P) (config : Config) :
    ∀ {live : Value} {path : String} {state after : Tracer} {value : Symbolic},
    TraceM.wrap config scope live path state = .ok (value, after) →
      At scope path live → value.Throughout P
  | .array numbers, path, state, after, value, h, hat => by
    simp only [TraceM.wrap, TraceM.bind_eq_ok, TraceM.pure_eq_ok, Prod.mk.injEq] at h
    obtain ⟨node, _, -, rfl, -⟩ := h
    exact hB.boundKind hP trivial hat (ArraySpec.mismatch?_of _ _) nofun
  | .int number, path, state, after, value, h, hat => by
    simp only [TraceM.wrap] at h
    split at h
    · obtain ⟨rfl, -⟩ := Prod.mk.inj (TraceM.pure_eq_ok.1 h)
      exact hB.wrapConstant hP hat
    · exact hB.wrapScalar hP h hat rfl
  | .float number, path, state, after, value, h, hat => by
    simp only [TraceM.wrap] at h
    split at h
    · obtain ⟨rfl, -⟩ := Prod.mk.inj (TraceM.pure_eq_ok.1 h)
      exact hB.wrapConstant hP hat
    · exact hB.wrapScalar hP h hat rfl
  | .tuple items, path, state, after, value, h, hat => by
    simp only [TraceM.wrap, TraceM.bind_eq_ok, TraceM.pure_eq_ok, Prod.mk.injEq] at h
    obtain ⟨wrapped, _, hwrapped, rfl, -⟩ := h
    have hitems := wrapItems hB hP config hwrapped fun position item hitem => by
      rw [Nat.zero_add]
      exact hB.item (Or.inl hat) hitem
    exact hB.boundTo (hP.sequence hitems) rfl hat (by simp [Check.mismatch?]) nofun
  | .list items, path, state, after, value, h, hat => by
    simp only [TraceM.wrap, TraceM.bind_eq_ok, TraceM.pure_eq_ok, Prod.mk.injEq] at h
    obtain ⟨wrapped, _, hwrapped, rfl, -⟩ := h
    have hitems := wrapItems hB hP config hwrapped fun position item hitem => by
      rw [Nat.zero_add]
      exact hB.item (Or.inr hat) hitem
    exact hB.boundTo (hP.sequence hitems) rfl hat (by simp [Check.mismatch?]) nofun
  | .dict entries, path, state, after, value, h, hat => by
    simp only [TraceM.wrap, TraceM.bind_eq_ok, TraceM.pure_eq_ok, Prod.mk.injEq] at h
    obtain ⟨wrapped, _, hwrapped, rfl, -⟩ := h
    have hentries := wrapEntries hB hP config hwrapped fun key item hitem => hB.entry hat hitem
    have hvalues : ∀ item ∈ Table.values wrapped, item.Throughout P := by
      intro item hitem
      obtain ⟨entry, hentry, rfl⟩ := List.mem_map.1 hitem
      exact hentries entry hentry
    exact hB.boundTo (hP.derived (Symbolic.throughoutEntries_iff.2 hentries) hvalues) rfl hat
      (by simp [Check.mismatch?]) nofun
  | .layer node, path, state, after, value, h, hat
  | .routine function, path, state, after, value, h, hat
  | .library space, path, state, after, value, h, hat => by
    obtain ⟨rfl, -⟩ := Prod.mk.inj (TraceM.pure_eq_ok.1 h)
    exact hB.boundKind hP trivial hat (by simp [Check.mismatch?, Value.identity?]) nofun
  | .primitive function, path, state, after, value, h, hat
  | .builtin function, path, state, after, value, h, hat => by
    obtain ⟨rfl, -⟩ := Prod.mk.inj (TraceM.pure_eq_ok.1 h)
    exact hB.boundKind hP trivial hat (by simp [Check.mismatch?, HostCallable.of?]) nofun
  | .object owner, path, state, after, value, h, hat
  | .boundPrimitive id receiver function, path, state, after, value, h, hat
  | .boundRoutine id receiver function, path, state, after, value, h, hat => by
    obtain ⟨rfl, -⟩ := Prod.mk.inj (TraceM.pure_eq_ok.1 h)
    refine hB.boundKind hP trivial hat (by simp [Check.mismatch?, Value.typeName]) ?_
    rintro held type ⟨⟩
    rfl
  | .none, path, state, after, value, h, hat
  | .bool _, path, state, after, value, h, hat
  | .str _, path, state, after, value, h, hat
  | .slice _, path, state, after, value, h, hat
  | .elementType _, path, state, after, value, h, hat
  | .device _, path, state, after, value, h, hat => by
    obtain ⟨rfl, -⟩ := Prod.mk.inj (TraceM.pure_eq_ok.1 h)
    exact hB.wrapConstant hP hat
termination_by structural live => live

lemma wrapItems (hB : Binds context P At) (hP : Symbolic.Inherited G P) (config : Config) :
    ∀ {items : List Value} {path : String} {position : Nat} {state after : Tracer}
      {values : List Symbolic},
    TraceM.wrapItems config scope items path position state = .ok (values, after) →
    (∀ (offset : Nat) item, items[offset]? = some item →
      At scope (path ++ "[" ++ Text.showNat (position + offset) ++ "]") item) →
    ∀ value ∈ values, value.Throughout P
  | [], path, position, state, after, values, h, _ => by
    obtain ⟨rfl, -⟩ := Prod.mk.inj (TraceM.pure_eq_ok.1 h)
    simp
  | item :: rest, path, position, state, after, values, h, hplaces => by
    simp only [TraceM.wrapItems, TraceM.bind_eq_ok, TraceM.pure_eq_ok, Prod.mk.injEq] at h
    obtain ⟨wrapped, middle, hwrapped, others, _, hothers, rfl, -⟩ := h
    refine List.forall_mem_cons.2 ⟨wrap hB hP config hwrapped (hplaces 0 item rfl), ?_⟩
    refine wrapItems hB hP config hothers fun offset other hother => ?_
    rw [Nat.add_right_comm, Nat.add_assoc]
    exact hplaces (offset + 1) other hother
termination_by structural items => items

lemma wrapEntries (hB : Binds context P At) (hP : Symbolic.Inherited G P) (config : Config) :
    ∀ {entries : List (Key × Value)} {path : String} {state after : Tracer}
      {values : List (Key × Symbolic)},
    TraceM.wrapEntries config scope entries path state = .ok (values, after) →
    (∀ key item, (key, item) ∈ entries → At scope (path ++ "[" ++ key.written ++ "]") item) →
    ∀ value ∈ values, value.2.Throughout P
  | [], path, state, after, values, h, _ => by
    obtain ⟨rfl, -⟩ := Prod.mk.inj (TraceM.pure_eq_ok.1 h)
    simp
  | (key, item) :: rest, path, state, after, values, h, hplaces => by
    simp only [TraceM.wrapEntries, TraceM.bind_eq_ok, TraceM.pure_eq_ok, Prod.mk.injEq] at h
    obtain ⟨wrapped, middle, hwrapped, others, _, hothers, rfl, -⟩ := h
    refine List.forall_mem_cons.2
      ⟨wrap hB hP config hwrapped (hplaces key item (List.mem_cons_self ..)), ?_⟩
    exact wrapEntries hB hP config hothers fun key item hitem =>
      hplaces key item (List.mem_cons_of_mem _ hitem)
termination_by structural entries => entries

end

end Binds

end GuardedTrace
