/-
The guards of wrapped values.

Deriving a value unites the guards of its operands, and binding a value adds one guard to it.  So a
value that is wrapped from a path carries the guards of the items inside it and, at its own place,
the check of what stands there (`Value.check`).  Where these guards hold, what stands at the place
passes the check, and the items of a sequence can be read at their places.
-/
import GuardedTrace.Proofs.Inversion
import GuardedTrace.Proofs.Places

namespace GuardedTrace

variable {frame : Frame} {config : Config} {scope : Scope} {path : String}

/-- What stands at the place of a guard that holds passes its check. -/
lemma Guard.Holds.passes {check : Check} {value : Value}
    (h : Guard.Holds ⟨path, scope, check⟩ frame)
    (hcheck : check ≠ .unbound) (hvalue : frame.resolve scope path = .ok value) :
    check.mismatch? value = none := by
  obtain ⟨found, hfound, hpasses⟩ := (Guard.holds_iff hcheck).1 h
  obtain rfl : value = found := Except.ok.inj (hvalue.symm.trans hfound)
  exact hpasses

/-- A sequence stands at its place as a tuple or as a list. -/
lemma Frame.resolve_sequence {items : List Value} {value : Value}
    (h : value = .tuple items ∨ value = .list items)
    (hplace : frame.resolve scope path = .ok value) :
    frame.resolve scope path = .ok (.tuple items) ∨
      frame.resolve scope path = .ok (.list items) := by
  rcases h with rfl | rfl
  · exact Or.inl hplace
  · exact Or.inr hplace

/-! ### Derived and bound values -/

namespace Symbolic

variable {value : Symbolic} {check : Check}

lemma mem_propagate {values : List Symbolic} {guard : Guard} :
    guard ∈ (propagate values).guards ↔ ∃ value ∈ values, guard ∈ value.guards := by
  suffices h : ∀ acc : Propagation, guard ∈ (values.foldl
      (fun acc value => ⟨acc.support.combine value.support, GuardSet.union acc.guards value.guards⟩)
      acc).guards ↔ guard ∈ acc.guards ∨ ∃ value ∈ values, guard ∈ value.guards by
    simpa [propagate] using h ⟨.unknown, []⟩
  induction values with
  | nil => simp
  | cons value rest ih =>
    intro acc
    simp only [List.foldl_cons, ih, GuardSet.mem_union, List.exists_mem_cons_iff, or_assoc]

lemma mem_derived {kind : Kind} {values : List Symbolic} {guard : Guard} :
    guard ∈ (derived kind values).guards ↔ ∃ value ∈ values, guard ∈ value.guards := by
  simp [derived, inherit, ofKind, GuardSet.mem_union, mem_propagate]

lemma mem_boundTo {guard : Guard} : guard ∈ (value.boundTo path scope check).guards ↔
    guard ∈ value.guards ∨ guard = ⟨path, scope, check⟩ := by
  cases scope <;> exact GuardSet.mem_insert

end Symbolic

/-! ### Wrapped values -/

namespace Value

/-- The check with which a value is guarded when it is wrapped. -/
def check (config : Config) : Value → Check
  | array numbers => .arrayMatch (.of numbers config.dynamicShapes)
  | int value => if config.specializeScalars then .constantMatch (.int value) else .typeMatch .int
  | float value =>
    if config.specializeScalars then .constantMatch (.float value) else .typeMatch .float
  | tuple items | list items => .lengthMatch items.length
  | dict entries => .keysMatch (Table.keys entries)
  | layer node => .idMatch node.id
  | routine function => .idMatch function.id
  | library space => .idMatch space.id
  | primitive function => .hostMatch (.primitive function)
  | builtin function => .hostMatch (.builtin function)
  | object owner => .typeMatch (.object owner.typeName)
  | boundPrimitive .. | boundRoutine .. => .typeMatch .method
  | none => .constantMatch .none
  | bool value => .constantMatch (.bool value)
  | str value => .constantMatch (.str value)
  | slice bounds => .constantMatch (.slice bounds)
  | elementType type => .constantMatch (.elementType type)
  | device place => .constantMatch (.device place)

lemma check_ne_unbound (value : Value) : value.check config ≠ .unbound := by
  cases value with
  | int _ | float _ => cases hscalars : config.specializeScalars <;> simp [check, hscalars]
  | _ => simp [check]

end Value

namespace TraceM

lemma mem_guards_of_wrapScalar {elementType : ElementType} {type : TypeName} {state after : Tracer}
    {value : Symbolic} (h : wrapScalar path scope elementType type state = .ok (value, after)) :
    ⟨path, scope, .typeMatch type⟩ ∈ value.guards := by
  obtain ⟨node, middle, -, hvalue⟩ := bind_eq_ok.1 h
  cases pure_eq_ok.1 hvalue
  exact Symbolic.mem_boundTo.2 (Or.inr rfl)

/-- A wrapped value is guarded at its own place by its check. -/
lemma mem_guards_of_wrap {value : Value} {state after : Tracer} {wrapped : Symbolic}
    (h : wrap config scope value path state = .ok (wrapped, after)) :
    ⟨path, scope, value.check config⟩ ∈ wrapped.guards := by
  have hbound : ∀ (value : Symbolic) (check : Check),
      ⟨path, scope, check⟩ ∈ (value.boundTo path scope check).guards :=
    fun _ _ => Symbolic.mem_boundTo.2 (Or.inr rfl)
  cases value with
  | array numbers =>
    obtain ⟨node, middle, -, h⟩ := bind_eq_ok.1 h
    cases pure_eq_ok.1 h
    exact hbound _ _
  | int value | float value =>
    cases hscalars : config.specializeScalars with
    | true =>
      simp only [wrap, hscalars, if_true] at h
      cases pure_eq_ok.1 h
      simp only [Value.check, hscalars, if_true]
      exact hbound _ _
    | false =>
      simp only [wrap, hscalars, Bool.false_eq_true, if_false] at h
      simpa only [Value.check, hscalars, Bool.false_eq_true, if_false]
        using mem_guards_of_wrapScalar h
  | tuple items | list items | dict entries =>
    obtain ⟨inner, middle, -, h⟩ := bind_eq_ok.1 h
    cases pure_eq_ok.1 h
    exact hbound _ _
  | _ =>
    cases pure_eq_ok.1 h
    exact hbound _ _

/-- A sequence whose items are wrapped under guards that hold is not too long: its first item, if
there is one, can be read. -/
lemma length_lt_of_wrapItems {found items : List Value} {state after : Tracer}
    {wrapped : List Symbolic}
    (hplaces : frame.resolve scope path = .ok (.tuple found) ∨
      frame.resolve scope path = .ok (.list found))
    (hlength : found.length = items.length)
    (h : wrapItems config scope items path 0 state = .ok (wrapped, after))
    (hguards : ∀ value ∈ wrapped, ∀ guard ∈ value.guards, guard.Holds frame) :
    found.length < wordLimit := by
  cases items with
  | nil =>
    rw [hlength]
    decide
  | cons first rest =>
    obtain ⟨value, middle, hfirst, h⟩ := bind_eq_ok.1 h
    obtain ⟨others, last, -, h⟩ := bind_eq_ok.1 h
    cases pure_eq_ok.1 h
    have hholds := hguards value (List.mem_cons_self ..) _ (mem_guards_of_wrap hfirst)
    obtain ⟨item, hitem, -⟩ := (Guard.holds_iff first.check_ne_unbound).1 hholds
    exact Frame.length_lt_of_resolve hplaces hitem

/-- All items of an accepted sequence can be read at their places when the first one can. -/
lemma resolve_found {found : List Value} {b : Value} (hb : b = .tuple found ∨ b = .list found)
    (hplace : frame.resolve scope path = .ok b) {items : List Value} {state after : Tracer}
    {wrapped : List Symbolic} (hlength : found.length = items.length)
    (h : wrapItems config scope items path 0 state = .ok (wrapped, after))
    (hguards : ∀ value ∈ wrapped, ∀ guard ∈ value.guards, guard.Holds frame) :
    ∀ i item, found[i]? = some item →
      frame.resolve scope (path ++ "[" ++ Text.showNat (0 + i) ++ "]") = .ok item := by
  have hplaces := Frame.resolve_sequence hb hplace
  intro i item hitem
  rw [Nat.zero_add]
  exact Frame.resolve_item hplaces (length_lt_of_wrapItems hplaces hlength h hguards) hitem

end TraceM

end GuardedTrace
