/-
Inferred shapes are right.

A trace infers the rank, the shape and the strides of every node from those of its operands.  Here
it is shown that what is inferred holds of the value that the node computes (`nodeResult_fits`).
Numbers count as arrays without dimensions; values that are neither arrays nor numbers have no
dimensions, and nothing is ever inferred about them.

The inferred element types and devices are not considered: they are not always those of the value.
-/
import GuardedTrace.Proofs.DataValues
import GuardedTrace.Trace.Inference

namespace GuardedTrace

namespace Value

/-- The dimensions of an array or a number. -/
def dims? : Value → Option (List Nat)
  | array numbers => some numbers.shape
  | bool _ | int _ | float _ => some []
  | _ => Option.none

/-- The strides of an array or a number. -/
def layout? : Value → Option (List Nat)
  | array numbers => some numbers.strides
  | bool _ | int _ | float _ => some []
  | _ => Option.none

lemma dims?_of_isSome {value : Value} (h : (Number.of? value).isSome) : value.dims? = some [] := by
  cases value <;> first | rfl | cases h

lemma layout?_of_isSome {value : Value} (h : (Number.of? value).isSome) :
    value.layout? = some [] := by
  cases value <;> first | rfl | cases h

/-- A value with dimensions is an array or a number. -/
lemma array_or_number {value : Value} {dims : List Nat} (h : value.dims? = some dims) :
    (∃ numbers, value = array numbers ∧ numbers.shape = dims) ∨
      ((Number.of? value).isSome ∧ dims = []) := by
  cases value with
  | array numbers => exact Or.inl ⟨numbers, rfl, Option.some.inj h⟩
  | bool _ | int _ | float _ => exact Or.inr ⟨rfl, (Option.some.inj h).symm⟩
  | _ => cases h

/-- A value in row-major layout with the given dimensions. -/
def Packed (value : Value) (dims : List Nat) : Prop :=
  value.dims? = some dims ∧ value.layout? = some (rowMajorStrides dims)

lemma packed_of_isSome {value : Value} (h : (Number.of? value).isSome) : value.Packed [] :=
  ⟨dims?_of_isSome h, layout?_of_isSome h⟩

lemma packed_contiguous (elementType : ElementType) (device : Device) (shape : List Nat)
    (data : List Double) : (array (.contiguous elementType device shape data)).Packed shape :=
  ⟨rfl, rfl⟩

end Value

/-! ### Dimensions of results -/

/-- The dimensions of a combination: those of the operands, or those of one of them when the other
one has none. -/
def Combined (lhs rhs dims : List Nat) : Prop :=
  (lhs = rhs ∧ dims = lhs) ∨ (rhs = [] ∧ dims = lhs) ∨ (lhs = [] ∧ dims = rhs)

namespace NumArray

lemma zipWith_eq_ok {a b result : NumArray} {f : Double → Double → Double}
    (h : a.zipWith b f = .ok result) :
    Combined a.shape b.shape result.shape ∧ result.strides = rowMajorStrides result.shape := by
  unfold zipWith at h
  split at h
  · next hshape =>
    cases h
    exact ⟨Or.inl ⟨hshape, rfl⟩, rfl⟩
  · split at h
    · next hb =>
      cases h
      exact ⟨Or.inr (Or.inl ⟨hb, rfl⟩), rfl⟩
    · next ha _ =>
      cases h
      exact ⟨Or.inr (Or.inr ⟨ha, rfl⟩), rfl⟩
    · cases h

lemma select_eq_ok {array row : NumArray} {index : Int64} (h : array.select index = .ok row) :
    ∃ size, array.shape = size :: row.shape ∧ row.strides = rowMajorStrides row.shape := by
  unfold select at h
  split at h
  · cases h
  · next size rest hshape =>
    split at h
    · cases h
    · simp only at h
      split at h
      · cases h
        exact ⟨size, hshape, rfl⟩
      · cases h

end NumArray

lemma arrayBinary_eq_ok {operation : Primitive} {a b : NumArray} {value : Value}
    (h : arrayBinary operation a b = .ok value) :
    ∃ dims, value.Packed dims ∧ Combined a.shape b.shape dims := by
  unfold arrayBinary at h
  split at h
  · cases h
  · obtain ⟨result, hresult, rfl⟩ := except_map_eq_ok.1 h
    obtain ⟨hdims, hstrides⟩ := NumArray.zipWith_eq_ok hresult
    exact ⟨result.shape, ⟨rfl, congrArg some hstrides⟩, hdims⟩

lemma isSome_of_scalarBinary {operation : Primitive} {lhs rhs value : Value}
    (hlhs : (Number.of? lhs).isSome) (hrhs : (Number.of? rhs).isSome)
    (h : scalarBinary operation lhs rhs = .ok value) : (Number.of? value).isSome := by
  unfold scalarBinary at h
  split at h
  · exact isSome_of_intBinary h
  · exact isSome_of_floatBinary h
  · next hnone =>
    obtain ⟨a, ha⟩ := Option.isSome_iff_exists.1 hlhs
    obtain ⟨b, hb⟩ := Option.isSome_iff_exists.1 hrhs
    exact absurd hb (hnone a b ha)

/-- The dimensions of what a primitive of two operands computes, when both have dimensions. -/
lemma binary_dims {operation : Primitive} {lhs rhs value : Value} {a b : List Nat}
    (h : binary operation lhs rhs = .ok value) (hlhs : lhs.dims? = some a)
    (hrhs : rhs.dims? = some b) : ∃ dims, value.Packed dims ∧ Combined a b dims := by
  rcases Value.array_or_number hlhs with ⟨numbers, rfl, rfl⟩ | ⟨hnumber, rfl⟩ <;>
    rcases Value.array_or_number hrhs with ⟨others, rfl, rfl⟩ | ⟨hother, rfl⟩
  · exact arrayBinary_eq_ok h
  · cases rhs with
    | bool _ | int _ | float _ => exact arrayBinary_eq_ok h
    | _ => cases hother
  · cases lhs with
    | bool _ | int _ | float _ => exact arrayBinary_eq_ok h
    | _ => cases hnumber
  · have hscalar : scalarBinary operation lhs rhs = .ok value := by
      cases lhs with
      | bool _ | int _ | float _ =>
        cases rhs with
        | bool _ | int _ | float _ => exact h
        | _ => cases hother
      | _ => cases hnumber
    exact ⟨[], Value.packed_of_isSome (isSome_of_scalarBinary hnumber hother hscalar),
      Or.inl ⟨rfl, rfl⟩⟩

/-- A primitive of one operand keeps its dimensions. -/
lemma unary_dims {operation : Primitive} {arg value : Value} {dims : List Nat}
    (h : unary operation arg = .ok value) (harg : arg.dims? = some dims) : value.Packed dims := by
  rcases Value.array_or_number harg with ⟨numbers, rfl, rfl⟩ | ⟨hnumber, rfl⟩
  · simp only [unary] at h
    split at h
    · cases h
      exact Value.packed_contiguous ..
    · cases h
  · refine Value.packed_of_isSome ?_
    unfold unary at h
    split at h
    · cases hnumber
    · split at h
      · obtain ⟨word, rfl⟩ := exists_of_wordResult h
        rfl
      · cases h
        rfl
      · cases h

/-! ### Facts that fit -/

namespace ArrayFacts

/-- What is known of rank, shape and strides holds of a value. -/
structure Fits (facts : ArrayFacts) (value : Value) : Prop where
  rank : ∀ rank, facts.rank = some rank → value.dims?.map List.length = some rank
  shape : ∀ shape, facts.shape = some shape → value.dims? = some shape
  strides : ∀ strides, facts.strides = some strides → value.layout? = some strides

variable {facts : ArrayFacts} {value : Value} {node : Nat}

lemma fits_unknown : (unknown node).Fits value := ⟨nofun, nofun, nofun⟩

lemma fits_ofArray (numbers : NumArray) (dynamicShapes : Bool) :
    (ofArray node numbers dynamicShapes).Fits (.array numbers) := by
  cases dynamicShapes
  · refine ⟨?_, ?_, ?_⟩ <;> rintro _ ⟨⟩ <;> rfl
  · refine ⟨?_, nofun, nofun⟩
    rintro _ ⟨⟩
    rfl

lemma fits_scalar {elementType : Option ElementType} (h : value.Packed []) :
    (scalar node elementType).Fits value := by
  refine ⟨?_, ?_, ?_⟩ <;> rintro _ ⟨⟩
  · simp [h.1]
  · exact h.1
  · exact h.2

lemma fits_reduced (h : value.Packed []) : (reduced node facts).Fits value := by
  have hscalar : (scalar node facts.elementType).Fits value := fits_scalar h
  exact ⟨hscalar.rank, hscalar.shape, hscalar.strides⟩

/-- Facts of a shape and a rank that fit, in row-major layout. -/
lemma fits_of_packed {elementType : Option ElementType} {device : Option Device}
    {rank : Option Nat} {shape : Option (List Nat)}
    (hrank : ∀ known, rank = some known → ∃ dims, value.Packed dims ∧ dims.length = known)
    (hshape : ∀ known, shape = some known → value.Packed known) :
    Fits ⟨node, elementType, device, rank, shape, shape.map rowMajorStrides⟩ value := by
  refine ⟨?_, ?_, ?_⟩
  · intro known hknown
    obtain ⟨dims, hdims, rfl⟩ := hrank known hknown
    simp [hdims.1]
  · exact fun known hknown => (hshape known hknown).1
  · intro known hknown
    obtain ⟨shape, hknown', rfl⟩ := Option.map_eq_some_iff.1 hknown
    exact (hshape shape hknown').2

lemma exists_dims_of_rank (h : facts.Fits value) {rank : Nat} (hrank : facts.rank = some rank) :
    ∃ dims, value.dims? = some dims ∧ dims.length = rank :=
  Option.map_eq_some_iff.1 (h.rank rank hrank)

lemma combined_left {b dims : List Nat} (h : Combined [] b dims) : dims = b := by
  rcases h with ⟨rfl, rfl⟩ | ⟨rfl, rfl⟩ | ⟨-, rfl⟩ <;> rfl

lemma combined_right {a dims : List Nat} (h : Combined a [] dims) : dims = a := by
  rcases h with ⟨rfl, rfl⟩ | ⟨-, rfl⟩ | ⟨rfl, rfl⟩ <;> rfl

/-- The facts of a primitive of two operands fit what it computes. -/
lemma fits_broadcast_two {a b : ArrayFacts} {x y z : Value} (ha : a.Fits x) (hb : b.Fits y)
    {operation function : Primitive} (h : binary operation x y = .ok z) :
    (broadcast node function (some a) (some b)).Fits z := by
  unfold broadcast combined
  by_cases hleft : a.rank = some 0
  · -- the left operand has no dimensions: the result has those of the right one
    obtain ⟨dims, hdims, hlength⟩ := exists_dims_of_rank ha hleft
    obtain rfl := List.length_eq_zero_iff.1 hlength
    simp only [hleft, if_true]
    refine fits_of_packed (fun known hknown => ?_) (fun known hknown => ?_)
    · obtain ⟨other, hother, hrank⟩ := exists_dims_of_rank hb hknown
      obtain ⟨result, hresult, hcombined⟩ := binary_dims h hdims hother
      exact ⟨result, hresult, combined_left hcombined ▸ hrank⟩
    · obtain ⟨result, hresult, hcombined⟩ := binary_dims h hdims (hb.shape known hknown)
      exact combined_left hcombined ▸ hresult
  · by_cases hright : b.rank = some 0
    · obtain ⟨dims, hdims, hlength⟩ := exists_dims_of_rank hb hright
      obtain rfl := List.length_eq_zero_iff.1 hlength
      simp only [hleft, hright, if_true, if_false]
      refine fits_of_packed (fun known hknown => ?_) (fun known hknown => ?_)
      · obtain ⟨other, hother, hrank⟩ := exists_dims_of_rank ha hknown
        obtain ⟨result, hresult, hcombined⟩ := binary_dims h hother hdims
        exact ⟨result, hresult, combined_right hcombined ▸ hrank⟩
      · obtain ⟨result, hresult, hcombined⟩ := binary_dims h (ha.shape known hknown) hdims
        exact combined_right hcombined ▸ hresult
    · -- neither is known to be without dimensions: what both agree on
      simp only [hleft, hright, if_false]
      refine fits_of_packed (fun known hknown => ?_) (fun known hknown => ?_)
      · split at hknown
        · next hsame =>
          obtain ⟨first, hfirst, hlength⟩ := exists_dims_of_rank ha hknown
          obtain ⟨second, hsecond, hlength'⟩ := exists_dims_of_rank hb (hsame ▸ hknown)
          obtain ⟨result, hresult, hcombined⟩ := binary_dims h hfirst hsecond
          refine ⟨result, hresult, ?_⟩
          rcases hcombined with ⟨-, rfl⟩ | ⟨-, rfl⟩ | ⟨-, rfl⟩
          · exact hlength
          · exact hlength
          · exact hlength'
        · cases hknown
      · split at hknown
        · next hsame =>
          obtain ⟨result, hresult, hcombined⟩ :=
            binary_dims h (ha.shape known hknown) (hb.shape known (hsame ▸ hknown))
          rcases hcombined with ⟨-, rfl⟩ | ⟨-, rfl⟩ | ⟨-, rfl⟩ <;> exact hresult
        · cases hknown

/-- The facts of a primitive of one operand fit what it computes. -/
lemma fits_broadcast_one {a : ArrayFacts} {x z : Value} (ha : a.Fits x)
    {operation function : Primitive} (h : unary operation x = .ok z) :
    (broadcast node function (some a) none).Fits z := by
  unfold broadcast combined
  refine fits_of_packed (fun known hknown => ?_) (fun known hknown => ?_)
  · obtain ⟨dims, hdims, hrank⟩ := exists_dims_of_rank ha hknown
    exact ⟨dims, unary_dims h hdims, hrank⟩
  · exact unary_dims h (ha.shape known hknown)

/-- The facts of a row fit the row. -/
lemma fits_selected {container key row : Value} (hfits : facts.Fits container) {serial : Nat}
    (h : container.subscript serial key = .ok row) : (selected node facts).Fits row := by
  -- only an array has more than no dimensions, and only its rows are selected
  have hrow : ∀ {size : Nat} {rest : List Nat}, container.dims? = some (size :: rest) →
      row.Packed rest := by
    intro size rest hdims
    rcases Value.array_or_number hdims with ⟨numbers, rfl, hshape⟩ | ⟨-, hnil⟩
    · cases key with
      | int index =>
        obtain ⟨selected, hselected, rfl⟩ := except_map_eq_ok.1 h
        obtain ⟨first, hfirst, hstrides⟩ := NumArray.select_eq_ok hselected
        rw [hshape] at hfirst
        obtain ⟨-, rfl⟩ := List.cons.inj hfirst
        exact ⟨rfl, congrArg some hstrides⟩
      | _ => cases h
    · cases hnil
  unfold selected
  refine fits_of_packed (fun known hknown => ?_) (fun known hknown => ?_)
  · obtain ⟨rank, hrank, hsucc⟩ := Option.bind_eq_some_iff.1 hknown
    obtain ⟨dims, hdims, hlength⟩ := exists_dims_of_rank hfits hrank
    match dims, rank, hsucc with
    | size :: rest, rank + 1, hsucc =>
      obtain rfl := Option.some.inj hsucc
      exact ⟨rest, hrow hdims, by simpa using hlength⟩
    | [], rank + 1, _ => simp at hlength
  · obtain ⟨shape, hshape, htail⟩ := Option.bind_eq_some_iff.1 hknown
    match shape, htail with
    | size :: rest, htail =>
      obtain rfl := Option.some.inj htail
      exact hrow (hfits.shape _ hshape)

end ArrayFacts

/-! ### Nodes -/

namespace Kind

/-- The kind is that of a node with facts that fit a value. -/
def FitsNode (kind : Kind) (node : Nat) (value : Value) : Prop :=
  ∃ facts : ArrayFacts, (kind = .array facts ∨ kind = .scalar facts) ∧ facts.node = node ∧
    facts.Fits value

end Kind

/-- An item of a container, by the facts of the container. -/
lemma itemResult_fits {id serial : Nat} {container key : Symbolic} {x k value : Value}
    (hfits : (container.facts id).Fits x) (h : x.subscript serial k = .ok value) :
    (itemResult id [container, key]).FitsNode id value := by
  unfold itemResult
  simp only
  split
  · next facts hkind =>
    have hfits : facts.Fits x := by simpa [Symbolic.facts, hkind] using hfits
    split
    · exact ⟨_, Or.inl rfl, rfl, ArrayFacts.fits_selected hfits h⟩
    · exact ⟨_, Or.inl rfl, rfl, ArrayFacts.fits_selected hfits h⟩
    · exact ⟨_, Or.inl rfl, rfl, ⟨nofun, nofun, nofun⟩⟩
  · exact ⟨_, Or.inr rfl, rfl, ArrayFacts.fits_unknown⟩

/-- The kind of a node of a primitive of one operand. -/
lemma nodeResult_unary {id : Nat} {function : Primitive} (hkernel : (unaryKernel? function).isSome)
    (operand : Symbolic) : nodeResult id function [operand] =
      if [operand].all Symbolic.isScalarLike then
        .scalar (.broadcast id function (some (operand.facts id)) none)
      else .array (.broadcast id function (some (operand.facts id)) none) := by
  cases function with
  | neg | abs | relu => rfl
  | _ => cases hkernel

/-- The kind of a node of an elementwise primitive of two operands. -/
lemma nodeResult_binary {id : Nat} {function : Primitive} (hkernel : (kernel? function).isSome)
    (first second : Symbolic) : nodeResult id function [first, second] =
      if [first, second].all Symbolic.isScalarLike then
        .scalar (.broadcast id function (some (first.facts id)) (some (second.facts id)))
      else .array (.broadcast id function (some (first.facts id)) (some (second.facts id))) := by
  cases function with
  | neg | abs | relu | sum | getItem | size | dim | stride => cases hkernel
  | _ => rfl

/-- The kind that is given to a node fits the value that its primitive computes. -/
lemma nodeResult_fits {id serial : Nat} {function : Primitive} {operands : List Symbolic}
    {args : List Value} {value : Value}
    (hfits : List.Forall₂ (fun operand arg => (operand.facts id).Fits arg) operands args)
    (h : function.call serial args = .ok value) :
    (nodeResult id function operands).FitsNode id value := by
  cases Primitive.succeeds_of_call h with
  | @unary function arg value hkernel h =>
    obtain ⟨operand, _, hoperand, hnil, rfl⟩ := List.forall₂_cons_right_iff.1 hfits
    cases hnil
    have hresult := @ArrayFacts.fits_broadcast_one id _ _ _ hoperand function function h
    rw [nodeResult_unary hkernel]
    split
    · exact ⟨_, Or.inr rfl, rfl, hresult⟩
    · exact ⟨_, Or.inl rfl, rfl, hresult⟩
  | sum numbers =>
    simp only [nodeResult]
    split
    · exact ⟨_, Or.inl rfl, rfl, ArrayFacts.fits_reduced ⟨rfl, rfl⟩⟩
    · exact ⟨_, Or.inl rfl, rfl, ArrayFacts.fits_unknown⟩
  | sumNumber hnumber =>
    simp only [nodeResult]
    split
    · exact ⟨_, Or.inl rfl, rfl, ArrayFacts.fits_reduced (Value.packed_of_isSome hnumber)⟩
    · exact ⟨_, Or.inl rfl, rfl, ArrayFacts.fits_unknown⟩
  | getItem h =>
    obtain ⟨container, _, hcontainer, hrest, rfl⟩ := List.forall₂_cons_right_iff.1 hfits
    obtain ⟨key, _, -, hnil, rfl⟩ := List.forall₂_cons_right_iff.1 hrest
    cases hnil
    exact itemResult_fits hcontainer h
  | sizes hfunction h =>
    obtain ⟨operand, _, -, hnil, rfl⟩ := List.forall₂_cons_right_iff.1 hfits
    cases hnil
    rcases hfunction with rfl | rfl <;> exact ⟨_, Or.inr rfl, rfl, ArrayFacts.fits_unknown⟩
  | size hfunction h =>
    obtain ⟨word, rfl⟩ := Primitive.exists_of_reportedAt h
    obtain ⟨operand, _, -, hrest, rfl⟩ := List.forall₂_cons_right_iff.1 hfits
    obtain ⟨index, _, -, hnil, rfl⟩ := List.forall₂_cons_right_iff.1 hrest
    cases hnil
    rcases hfunction with rfl | rfl <;>
        exact ⟨_, Or.inr rfl, rfl, ArrayFacts.fits_scalar ⟨rfl, rfl⟩⟩
  | dim h =>
    obtain ⟨word, rfl⟩ := exists_of_ofSize h
    exact ⟨_, Or.inr rfl, rfl, ArrayFacts.fits_scalar ⟨rfl, rfl⟩⟩
  | @binary function lhs rhs value hkernel h =>
    obtain ⟨first, _, hfirst, hrest, rfl⟩ := List.forall₂_cons_right_iff.1 hfits
    obtain ⟨second, _, hsecond, hnil, rfl⟩ := List.forall₂_cons_right_iff.1 hrest
    cases hnil
    have hresult := @ArrayFacts.fits_broadcast_two id _ _ _ _ _ hfirst hsecond function function h
    rw [nodeResult_binary hkernel]
    split
    · exact ⟨_, Or.inr rfl, rfl, hresult⟩
    · exact ⟨_, Or.inl rfl, rfl, hresult⟩

end GuardedTrace
