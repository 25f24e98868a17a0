/-
Inferred element types and devices.

A trace infers the element type and the device of every node from those of its operands.  What is
inferred of a sum, a row or the result of a primitive of one operand is right.  The result of an
elementwise primitive of two operands is another matter.  In a run a number gives way to the array
that it meets, and the device is that of the operand with dimensions; in a trace a number takes part
in the promotion with a type of its own, an operand of unknown type is left out of account, and a
device may be taken from the operand without dimensions.  `nodeResult_right_iff` says exactly when
the two agree.
-/
import GuardedTrace.Proofs.Shapes

namespace GuardedTrace

/-! ### Results of combinations -/

namespace ElementType

lemma promote_comm (a b : ElementType) : a.promote b = b.promote a := by
  cases a <;> cases b <;> rfl

lemma promote_self (a : ElementType) : a.promote a = a := by
  cases a <;> rfl

lemma promote_quotient (a : ElementType) : a.promote a.quotient = a.quotient := by
  cases a <;> rfl

end ElementType

namespace NumArray

/-- The element type of a combination is promoted from both operands; the device is that of the left
one, unless only the right one has dimensions. -/
lemma zipWith_type_device {a b result : NumArray} {f : Double → Double → Double}
    (h : a.zipWith b f = .ok result) :
    result.elementType = a.elementType.promote b.elementType ∧
      result.device = if a.shape = [] ∧ b.shape ≠ [] then b.device else a.device := by
  unfold zipWith at h
  split at h
  · next hshape =>
    cases h
    refine ⟨rfl, ?_⟩
    rw [if_neg fun hright => hright.2 (hshape ▸ hright.1)]
    rfl
  · next hshape =>
    split at h
    · next hb =>
      cases h
      refine ⟨rfl, ?_⟩
      rw [if_neg fun hright => hright.2 hb]
      rfl
    · next ha _ =>
      cases h
      refine ⟨rfl, ?_⟩
      rw [if_pos ⟨ha, fun hb => hshape (ha.trans hb.symm)⟩]
      rfl
    · cases h

lemma select_type_device {array row : NumArray} {index : Int64} (h : array.select index = .ok row) :
    row.elementType = array.elementType ∧ row.device = array.device := by
  unfold select at h
  split at h
  · cases h
  · split at h
    · cases h
    · simp only at h
      split at h
      · cases h
        exact ⟨rfl, rfl⟩
      · cases h

end NumArray

lemma arrayBinary_type_device {operation : Primitive} {a b result : NumArray}
    (h : arrayBinary operation a b = .ok (.array result)) :
    result.elementType = combinedType operation (a.elementType.promote b.elementType) ∧
      result.device = if a.shape = [] ∧ b.shape ≠ [] then b.device else a.device := by
  unfold arrayBinary at h
  split at h
  · cases h
  · obtain ⟨combined, hcombined, heq⟩ := except_map_eq_ok.1 h
    obtain ⟨htype, hdevice⟩ := NumArray.zipWith_type_device hcombined
    cases heq
    exact ⟨by rw [htype], hdevice⟩

lemma otherBinary_ne_array {operation : Primitive} {lhs rhs : Value} {result : NumArray} :
    otherBinary operation lhs rhs ≠ .ok (.array result) := by
  intro h
  unfold otherBinary at h
  split at h <;> cases h

/-- An array comes from two arrays, or from an array and a number. -/
lemma binary_eq_array {operation : Primitive} {lhs rhs : Value} {result : NumArray}
    (h : binary operation lhs rhs = .ok (.array result)) :
    (∃ a b, lhs = .array a ∧ rhs = .array b ∧ arrayBinary operation a b = .ok (.array result)) ∨
      (∃ a number, lhs = .array a ∧ Number.of? rhs = some number ∧
        arrayBinary operation a (number.toArray a.elementType) = .ok (.array result)) ∨
      ∃ b number, Number.of? lhs = some number ∧ rhs = .array b ∧
        arrayBinary operation (number.toArray b.elementType) b = .ok (.array result) := by
  unfold binary at h
  split at h
  · exact Or.inl ⟨_, _, rfl, rfl, h⟩
  · split at h
    · next hnumber => exact Or.inr (Or.inl ⟨_, _, rfl, hnumber, h⟩)
    · exact absurd h otherBinary_ne_array
  · split at h
    · next hnumber => exact Or.inr (Or.inr ⟨_, _, hnumber, rfl, h⟩)
    · exact absurd h otherBinary_ne_array
  · unfold scalarBinary at h
    split at h
    · exact nomatch isSome_of_intBinary h
    · exact nomatch isSome_of_floatBinary h
    · exact absurd h otherBinary_ne_array

/-! ### What is known of operands -/

/-- The element type that a trace gives to a number. -/
def Value.numberType? : Value → Option ElementType
  | .int _ => some .int64
  | .float _ => some .float64
  | .bool _ => some .bool
  | _ => Option.none

/-- The known element type and device are those of an array. -/
structure ArrayFacts.Right (facts : ArrayFacts) (numbers : NumArray) : Prop where
  elementType : ∀ type, facts.elementType = some type → type = numbers.elementType
  device : ∀ place, facts.device = some place → place = numbers.device

/-- The kind is that of a node whose known element type and device are those of an array. -/
def Kind.Right (kind : Kind) (numbers : NumArray) : Prop :=
  ∃ facts : ArrayFacts, (kind = .array facts ∨ kind = .scalar facts) ∧ facts.Right numbers

/-- What is known of an operand holds of its value.  Everything known of an array is true, a number
is a constant or a scalar of its type, and of other values neither element type nor device is
known. -/
inductive Symbolic.Describes (node : Nat) (operand : Symbolic) : Value → Prop where
  | array {numbers : NumArray} (hright : (operand.facts node).Right numbers)
    (hfits : (operand.facts node).Fits (.array numbers)) : Describes node operand (.array numbers)
  | number {arg : Value} {type : ElementType} (harg : arg.numberType? = some type)
    (hkind : operand.isScalarLike = true) (htype : (operand.facts node).elementType = some type)
    (hdevice : (operand.facts node).device = none) : Describes node operand arg
  | other {arg : Value} (harray : ∀ numbers, arg ≠ .array numbers) (harg : arg.numberType? = none)
    (htype : (operand.facts node).elementType = none)
      (hdevice : (operand.facts node).device = none) :
    Describes node operand arg

/-! ### When the inference is right -/

/-- The type of a number does not change what is inferred next to an array of element type `type`;
`known` says whether the type of the array is known. -/
def Unwidened (function : Primitive) (known : Bool) (type : ElementType) : Value → Prop
  | .bool _ => known = true ∨ combinedType function type = combinedType function .bool
  | .int _ =>
    if known then type ≠ .bool ∨ function = .div else combinedType function type =
      combinedType function .int64
  | .float _ => type = .float64
  | _ => True

/-- The element type that is inferred for a combination is right: the combination is a comparison,
no array of unknown type would change the type, and neither does a number. -/
def TypeSettled (function : Primitive) (first second : ArrayFacts) (x y : Value) : Prop :=
  function.isComparison = true ∨
    match x, y with
    | .array a, .array b =>
      (first.elementType = none → second.elementType = none ∨
          combinedType function (a.elementType.promote b.elementType) =
            combinedType function b.elementType) ∧
        (second.elementType = none → first.elementType = none ∨
          combinedType function (a.elementType.promote b.elementType) =
            combinedType function a.elementType)
    | .array a, number => Unwidened function first.elementType.isSome a.elementType number
    | number, .array b => Unwidened function second.elementType.isSome b.elementType number
    | _, _ => True

/-- The device that is inferred for a combination is right: the devices are the same, or none is
known, or it is taken from the operand that the run takes it from. -/
def DeviceSettled (first second : ArrayFacts) : Value → Value → Prop
  | .array a, .array b =>
    a.device = b.device ∨
      if first.rank = some 0 then second.device = none ∨ b.shape ≠ []
      else if second.rank = some 0 then True
      else if first.device = none then second.device = none ∨ (a.shape = [] ∧ b.shape ≠ [])
      else ¬ (a.shape = [] ∧ b.shape ≠ [])
  | .array _, _ => True
  | _, .array b =>
    b.device = .cpu ∨ b.shape ≠ [] ∨ second.device = none ∨
      (first.rank ≠ some 0 ∧ second.rank = some 0)
  | _, _ => True

/-- What is inferred for a primitive is right: nothing can be wrong but the result of a combination
of two operands. -/
def Settled (node : Nat) (function : Primitive) : List Symbolic → List Value → Prop
  | [first, second], [x, y] => (kernel? function).isSome →
    TypeSettled function (first.facts node) (second.facts node) x y ∧
      DeviceSettled (first.facts node) (second.facts node) x y
  | _, _ => True

/-! ### Combinations -/

namespace ArrayFacts

variable {node : Nat} {function : Primitive} {first second : ArrayFacts} {result : NumArray}

lemma right_unknown : (unknown node).Right result := by
  constructor <;> rintro _ ⟨⟩

lemma elementType_broadcast (hcomparison : function.isComparison = false)
    (lhs rhs : Option ArrayFacts) :
    (broadcast node function lhs rhs).elementType =
      (promoted? (lhs.bind elementType) (rhs.bind elementType)).map (combinedType function) := by
  by_cases hdiv : function = .div
  · subst hdiv
    rfl
  · have hcombined : combinedType function = id := funext fun type => by
      simp [combinedType, hcomparison, hdiv]
    rw [hcombined, Option.map_id]
    simp [broadcast, hcomparison, hdiv]

lemma elementType_broadcast_comparison (hcomparison : function.isComparison = true)
    (lhs rhs : Option ArrayFacts) : (broadcast node function lhs rhs).elementType = some .bool := by
  simp [broadcast, hcomparison]

lemma device_broadcast (first second : ArrayFacts) :
    (broadcast node function (some first) (some second)).device =
      if first.rank = some 0 then second.device
      else if second.rank = some 0 then first.device
      else first.device.or second.device := by
  simp only [broadcast, combined]
  split
  · rfl
  · split <;> rfl

/-- The inferred type of a combination of arrays. -/
lemma right_type_arrays_iff {a b : NumArray} (hfirst : first.Right a) (hsecond : second.Right b)
    (hresult : result.elementType = combinedType function (a.elementType.promote b.elementType)) :
    (∀ type, (broadcast node function (some first) (some second)).elementType = some type →
        type = result.elementType) ↔
      TypeSettled function first second (.array a) (.array b) := by
  cases hcomparison : function.isComparison with
  | true =>
    simp [TypeSettled, elementType_broadcast_comparison, hcomparison, hresult, combinedType]
  | false =>
    rw [elementType_broadcast hcomparison, hresult]
    cases hfirst' : first.elementType with
    | none =>
      cases hsecond' : second.elementType with
      | none => simp [TypeSettled, hfirst', hsecond', promoted?]
      | some type =>
        obtain rfl := hsecond.elementType type hsecond'
        simp [TypeSettled, hfirst', hsecond', promoted?, hcomparison, eq_comm]
    | some type =>
      obtain rfl := hfirst.elementType type hfirst'
      cases hsecond' : second.elementType with
      | none => simp [TypeSettled, hfirst', hsecond', promoted?, hcomparison, eq_comm]
      | some other =>
        obtain rfl := hsecond.elementType other hsecond'
        simp [TypeSettled, hfirst', hsecond', promoted?]

/-- The inferred type of a combination of an array of element type `type`, of which `known` is
known, with a number. -/
lemma right_type_number_iff (hcomparison : function.isComparison = false)
    {known : Option ElementType}
    {type numberType : ElementType} {arg : Value} {number : Number}
    (hknown : ∀ found, known = some found → found = type)
    (harg : arg.numberType? = some numberType) (hnumber : Number.of? arg = some number) :
    (∀ found, (promoted? known (some numberType)).map (combinedType function) = some found →
        found = combinedType function (type.promote (number.toArray type).elementType)) ↔
      Unwidened function known.isSome type arg := by
  have hother (hdiv : function ≠ .div) (type : ElementType) :
      combinedType function type = type := by
    simp [combinedType, hcomparison, hdiv]
  -- A run gives an integer and a truth value the type of the array, and a float the type of its
  -- quotients.
  cases arg with
  | int value =>
    cases harg
    cases hnumber
    change (∀ found, _ = some found → found = combinedType function (type.promote type)) ↔ _
    rw [ElementType.promote_self]
    cases known with
    | none => simp [promoted?, Unwidened, eq_comm]
    | some found =>
      obtain rfl := hknown found rfl
      by_cases hdiv : function = .div
      · subst hdiv
        have hquotient : combinedType .div .int64 = combinedType .div .bool := rfl
        cases found <;> simp [promoted?, Unwidened, ElementType.promote, hquotient]
      · cases found <;> simp [promoted?, Unwidened, ElementType.promote, hother hdiv, hdiv]
  | bool value =>
    cases harg
    cases hnumber
    change (∀ found, _ = some found → found = combinedType function (type.promote type)) ↔ _
    rw [ElementType.promote_self]
    cases known with
    | none => simp [promoted?, Unwidened, eq_comm]
    | some found =>
      obtain rfl := hknown found rfl
      cases found <;> simp [promoted?, Unwidened, ElementType.promote]
  | float value =>
    cases harg
    cases hnumber
    change (∀ found, _ = some found →
      found = combinedType function (type.promote type.quotient)) ↔ _
    rw [ElementType.promote_quotient]
    have hwide : promoted? known (some .float64) = some .float64 := by
      cases known with
      | none => rfl
      | some found => cases found <;> rfl
    rw [hwide]
    by_cases hdiv : function = .div
    · subst hdiv
      cases type <;> simp [Unwidened] <;> decide
    · cases type <;> simp [Unwidened, hother hdiv, ElementType.quotient, ElementType.isFloating]
  | _ => cases harg

/-- The inferred device of a combination of arrays. -/
lemma right_device_arrays_iff {a b : NumArray} (hfirst : first.Right a) (hsecond : second.Right b)
    (hleft : first.rank = some 0 → a.shape = []) (hright : second.rank = some 0 → b.shape = [])
    (hresult : result.device = if a.shape = [] ∧ b.shape ≠ [] then b.device else a.device) :
    (∀ place, (broadcast node function (some first) (some second)).device = some place →
        place = result.device) ↔ DeviceSettled first second (.array a) (.array b) := by
  rw [device_broadcast, hresult]
  -- An array known to have no dimensions is passed over; otherwise the first known device is taken.
  by_cases hzero : first.rank = some 0
  · simp only [DeviceSettled, hzero, if_true, hleft hzero, true_and]
    cases hplace : second.device with
    | none => simp
    | some place =>
      obtain rfl := hsecond.device place hplace
      by_cases hb : b.shape = [] <;> simp [hb, eq_comm]
  · by_cases hzero' : second.rank = some 0
    · simpa [DeviceSettled, hzero, hzero', hright hzero'] using hfirst.device
    · simp only [DeviceSettled, hzero, hzero', if_false]
      cases hplace : first.device with
      | none =>
        cases hplace' : second.device with
        | none => simp
        | some place =>
          obtain rfl := hsecond.device place hplace'
          by_cases honly : a.shape = [] ∧ b.shape ≠ []
          · simp [honly]
          · simp [honly, eq_comm]
      | some place =>
        obtain rfl := hfirst.device place hplace
        by_cases honly : a.shape = [] ∧ b.shape ≠ []
        · simp [honly]
        · simp [honly]

/-- Next to a number on its right an array keeps its device. -/
lemma right_device_number {a : NumArray} (hfirst : first.Right a) (hsecond : second.device = none)
    (hresult : result.device = a.device) :
    ∀ place, (broadcast node function (some first) (some second)).device = some place →
      place = result.device := by
  rw [device_broadcast, hresult, hsecond, Option.or_none]
  intro place hplace
  split at hplace
  · cases hplace
  · split at hplace <;> exact hfirst.device place hplace

/-- A number on the left is where the result is only if the array has no dimensions either. -/
lemma right_device_number_left_iff {b : NumArray} {arg : Value} (hsecond : second.Right b)
    (harg : arg.numberType?.isSome) (hfirst : first.device = none)
    (hresult : result.device = if b.shape = [] then .cpu else b.device) :
    (∀ place, (broadcast node function (some first) (some second)).device = some place →
        place = result.device) ↔ DeviceSettled first second arg (.array b) := by
  have hsettled : DeviceSettled first second arg (.array b) ↔ b.device = .cpu ∨ b.shape ≠ [] ∨
      second.device = none ∨ (first.rank ≠ some 0 ∧ second.rank = some 0) := by
    cases arg with
    | array _ => cases harg
    | _ => rfl
  rw [hsettled, device_broadcast, hresult, hfirst, Option.none_or]
  by_cases hskip : first.rank ≠ some 0 ∧ second.rank = some 0
  · simp [hskip]
  · have hinferred : (if first.rank = some 0 then second.device
        else if second.rank = some 0 then none else second.device) = second.device := by
      split
      · rfl
      · next hzero => rw [if_neg fun hzero' => hskip ⟨hzero, hzero'⟩]
    rw [hinferred]
    cases hplace : second.device with
    | none => simp
    | some place =>
      obtain rfl := hsecond.device place hplace
      by_cases hb : b.shape = [] <;> simp [hskip, hb]

lemma promoted?_comm (a b : Option ElementType) : promoted? a b = promoted? b a := by
  cases a with
  | none => cases b <;> rfl
  | some a =>
    cases b with
    | none => rfl
    | some b => exact congrArg some (a.promote_comm b)

/-- The inferred type does not depend on the order of the operands. -/
lemma elementType_broadcast_comm (first second : ArrayFacts) :
    (broadcast node function (some first) (some second)).elementType =
      (broadcast node function (some second) (some first)).elementType := by
  cases hcomparison : function.isComparison with
  | true =>
    rw [elementType_broadcast_comparison hcomparison, elementType_broadcast_comparison hcomparison]
  | false =>
    rw [elementType_broadcast hcomparison, elementType_broadcast hcomparison, promoted?_comm]

/-- What a number leaves of the inferred type does not depend on its side. -/
lemma typeSettled_comm {b : NumArray} {arg : Value} (harg : arg.numberType?.isSome) :
    TypeSettled function first second arg (.array b) ↔
      TypeSettled function second first (.array b) arg := by
  cases arg with
  | array _ => cases harg
  | _ => rfl

/-- The inferred type of a combination of an array with a number on its right. -/
lemma right_type_with_number_iff {a : NumArray} {arg : Value} {number : Number}
    {numberType : ElementType}
    (hfirst : first.Right a) (harg : arg.numberType? = some numberType)
    (hnumber : Number.of? arg = some number)
    (hsecond : second.elementType = some numberType)
    (hresult : result.elementType =
      combinedType function (a.elementType.promote (number.toArray a.elementType).elementType)) :
    (∀ type, (broadcast node function (some first) (some second)).elementType = some type →
        type = result.elementType) ↔ TypeSettled function first second (.array a) arg := by
  have hsettled : TypeSettled function first second (.array a) arg ↔ function.isComparison = true ∨
      Unwidened function first.elementType.isSome a.elementType arg := by
    cases arg with
    | array _ => cases harg
    | _ => rfl
  rw [hsettled, hresult]
  cases hcomparison : function.isComparison with
  | true => simp [elementType_broadcast_comparison hcomparison, combinedType, hcomparison]
  | false =>
    rw [elementType_broadcast hcomparison,
      ← right_type_number_iff hcomparison hfirst.elementType harg hnumber,
      Option.bind_some, Option.bind_some, hsecond]
    simp

end ArrayFacts

/-! ### Nodes -/

section

variable {id serial : Nat} {function : Primitive} {operand first second : Symbolic} {x y : Value}
  {numbers result : NumArray}

lemma Symbolic.Describes.of_array (h : operand.Describes id (.array numbers)) :
    (operand.facts id).Right numbers ∧ (operand.facts id).Fits (.array numbers) := by
  cases h with
  | array hright hfits => exact ⟨hright, hfits⟩
  | number harg _ _ _ => cases harg
  | other harray _ _ _ => exact absurd rfl (harray numbers)

lemma Symbolic.Describes.of_number {number : Number} (h : operand.Describes id x)
    (hnumber : Number.of? x = some number) : ∃ type, x.numberType? = some type ∧
      (operand.facts id).elementType = some type ∧ (operand.facts id).device = none := by
  cases h with
  | array _ _ => cases hnumber
  | number harg _ htype hdevice => exact ⟨_, harg, htype, hdevice⟩
  | other _ harg _ _ =>
    cases x with
    | int _ | float _ | bool _ => cases harg
    | _ => cases hnumber

lemma shape_eq_nil_of_rank (h : (operand.facts id).Fits (.array numbers))
    (hrank : (operand.facts id).rank = some 0) : numbers.shape = [] :=
  List.length_eq_zero_iff.1 (Option.some.inj (h.rank 0 hrank))

/-- What is inferred for a combination of two operands is right exactly when it is settled. -/
lemma right_broadcast_iff (hx : first.Describes id x) (hy : second.Describes id y)
    (h : binary function x y = .ok (.array result)) :
    (ArrayFacts.broadcast id function (some (first.facts id))
      (some (second.facts id))).Right result ↔
      TypeSettled function (first.facts id) (second.facts id) x y ∧
        DeviceSettled (first.facts id) (second.facts id) x y := by
  have hright (facts : ArrayFacts) : facts.Right result ↔
      (∀ type, facts.elementType = some type → type = result.elementType) ∧
        ∀ place, facts.device = some place → place = result.device :=
    ⟨fun h => ⟨h.elementType, h.device⟩, fun h => ⟨h.1, h.2⟩⟩
  rw [hright]
  rcases binary_eq_array h with ⟨a, b, rfl, rfl, hresult⟩ | ⟨a, number, rfl, hnumber, hresult⟩ |
    ⟨b, number, hnumber, rfl, hresult⟩
  · obtain ⟨hfirst, hfits⟩ := hx.of_array
    obtain ⟨hsecond, hfits'⟩ := hy.of_array
    obtain ⟨htype, hdevice⟩ := arrayBinary_type_device hresult
    exact and_congr (ArrayFacts.right_type_arrays_iff hfirst hsecond htype)
      (ArrayFacts.right_device_arrays_iff hfirst hsecond (shape_eq_nil_of_rank hfits)
        (shape_eq_nil_of_rank hfits')
        hdevice)
  · obtain ⟨hfirst, -⟩ := hx.of_array
    obtain ⟨type, harg, hsecond, hplace⟩ := hy.of_number hnumber
    obtain ⟨htype, hdevice⟩ := arrayBinary_type_device hresult
    have hkept : result.device = a.device := by
      rw [hdevice, if_neg fun honly => honly.2 rfl]
    have hsettled : DeviceSettled (first.facts id) (second.facts id) (.array a) y := by
      cases y with
      | array _ => cases harg
      | _ => trivial
    exact and_congr (ArrayFacts.right_type_with_number_iff hfirst harg hnumber hsecond htype)
      (iff_of_true (ArrayFacts.right_device_number hfirst hplace hkept) hsettled)
  · obtain ⟨hsecond, -⟩ := hy.of_array
    obtain ⟨type, harg, hfirst, hplace⟩ := hx.of_number hnumber
    obtain ⟨htype, hdevice⟩ := arrayBinary_type_device hresult
    have hkept : result.device = if b.shape = [] then .cpu else b.device := by
      rw [hdevice]
      by_cases hb : b.shape = []
      · rw [if_neg fun honly => honly.2 hb, if_pos hb]
        rfl
      · rw [if_pos ⟨rfl, hb⟩, if_neg hb]
    -- The inferred type is that with the sides exchanged, but the device depends on the side.
    have hisSome : x.numberType?.isSome := by simp [harg]
    rw [ElementType.promote_comm] at htype
    rw [ArrayFacts.elementType_broadcast_comm, ArrayFacts.typeSettled_comm hisSome]
    exact and_congr (ArrayFacts.right_type_with_number_iff hsecond harg hnumber hfirst htype)
      (ArrayFacts.right_device_number_left_iff hsecond hisSome hplace hkept)

lemma right_ite_iff {facts : ArrayFacts} {c : Prop} [Decidable c] :
    (if c then Kind.scalar facts else Kind.array facts).Right result ↔ facts.Right result := by
  constructor
  · rintro ⟨found, hfound, hright⟩
    split at hfound <;> rcases hfound with hfound | hfound <;> cases hfound <;> exact hright
  · intro hright
    split
    · exact ⟨facts, Or.inr rfl, hright⟩
    · exact ⟨facts, Or.inl rfl, hright⟩

/-- A primitive of one operand keeps the element type and the device. -/
lemma right_broadcast_one (hx : operand.Describes id x) (hkernel : (unaryKernel? function).isSome)
    (h : unary function x = .ok (.array result)) :
    (ArrayFacts.broadcast id function (some (operand.facts id)) none).Right result := by
  unfold unary at h
  split at h
  · split at h
    · cases h
      obtain ⟨hright, -⟩ := hx.of_array
      have hplain : function.isComparison = false ∧ ∀ type, combinedType function type = type := by
        cases function with
        | neg | abs | relu => exact ⟨rfl, fun _ => rfl⟩
        | _ => cases hkernel
      have hkept : (ArrayFacts.broadcast id function (some (operand.facts id)) none).elementType =
          (operand.facts id).elementType := by
        rw [ArrayFacts.elementType_broadcast hplain.1, Option.bind_some, Option.bind_none]
        cases (operand.facts id).elementType <;> simp [ArrayFacts.promoted?, hplain.2]
      refine ⟨?_, hright.device⟩
      rw [hkept]
      exact hright.elementType
    · cases h
  · split at h
    · obtain ⟨word, hword⟩ := exists_of_wordResult h
      cases hword
    · cases h
    · cases h

/-- A row has the element type and the device of its array; of other containers neither is known. -/
lemma right_of_subscript {key : Value} (hx : operand.Describes id x)
    (h : x.subscript serial key = .ok (.array result)) : (operand.facts id).Right result := by
  cases hx with
  | @array numbers hright _ =>
    cases key with
    | int index =>
      obtain ⟨row, hrow, heq⟩ := except_map_eq_ok.1 h
      cases heq
      obtain ⟨htype, hdevice⟩ := NumArray.select_type_device hrow
      exact ⟨fun type htype' => (hright.elementType type htype').trans htype.symm,
        fun place hplace => (hright.device place hplace).trans hdevice.symm⟩
    | _ => cases h
  | number harg _ _ _ =>
    cases x with
    | int _ | float _ | bool _ => cases h
    | _ => cases harg
  | other _ _ htype hdevice => exact ⟨by simp [htype], by simp [hdevice]⟩

lemma right_itemResult {key : Symbolic} {k : Value} (hx : operand.Describes id x)
    (h : x.subscript serial k = .ok (.array result)) :
    (itemResult id [operand, key]).Right result := by
  have hright := right_of_subscript hx h
  unfold itemResult
  simp only
  split
  · next facts hkind =>
    have hfacts : operand.facts id = facts := by simp [Symbolic.facts, hkind]
    rw [hfacts] at hright
    split <;> exact ⟨_, Or.inl rfl, hright.elementType, hright.device⟩
  · exact ⟨_, Or.inr rfl, ArrayFacts.right_unknown⟩

/-- **When inferred element types and devices are right.**  A primitive has computed an array from
operands of which something true is known.  What is inferred is the element type and the device of
that array, or nothing, exactly when the inference is settled; it always is, unless two operands are
combined element by element. -/
theorem nodeResult_right_iff {operands : List Symbolic} {args : List Value}
    (hoperands : List.Forall₂ (Symbolic.Describes id) operands args)
    (hcall : function.call serial args = .ok (.array result)) :
    (nodeResult id function operands).Right result ↔ Settled id function operands args := by
  cases Primitive.succeeds_of_call hcall with
  | @unary function arg _ hkernel h =>
    obtain ⟨operand, _, hoperand, hnil, rfl⟩ := List.forall₂_cons_right_iff.1 hoperands
    cases hnil
    refine iff_of_true ?_ trivial
    rw [nodeResult_unary hkernel, right_ite_iff]
    exact right_broadcast_one hoperand hkernel h
  | sum numbers =>
    obtain ⟨operand, _, hoperand, hnil, rfl⟩ := List.forall₂_cons_right_iff.1 hoperands
    cases hnil
    obtain ⟨hright, -⟩ := hoperand.of_array
    exact iff_of_true ⟨_, Or.inl rfl, hright.elementType, hright.device⟩ trivial
  | sumNumber hnumber => cases hnumber
  | getItem h =>
    obtain ⟨operand, _, hoperand, hrest, rfl⟩ := List.forall₂_cons_right_iff.1 hoperands
    obtain ⟨key, _, hkey, hnil, rfl⟩ := List.forall₂_cons_right_iff.1 hrest
    cases hnil
    exact iff_of_true (right_itemResult hoperand h) nofun
  -- Sizes are no arrays.
  | sizes _ h =>
    obtain ⟨items, -, heq⟩ := except_map_eq_ok.1 h
    cases heq
  | size _ h =>
    obtain ⟨word, heq⟩ := Primitive.exists_of_reportedAt h
    cases heq
  | dim h =>
    obtain ⟨word, heq⟩ := exists_of_ofSize h
    cases heq
  | @binary function lhs rhs _ hkernel h =>
    obtain ⟨first, _, hfirst, hrest, rfl⟩ := List.forall₂_cons_right_iff.1 hoperands
    obtain ⟨second, _, hsecond, hnil, rfl⟩ := List.forall₂_cons_right_iff.1 hrest
    cases hnil
    rw [nodeResult_binary hkernel, right_ite_iff, right_broadcast_iff hfirst hsecond h]
    exact ⟨fun hsettled _ => hsettled, fun hsettled => hsettled hkernel⟩

end

/-! ### Operands as a trace has them -/

lemma Symbolic.describes_ofArray (node id : Nat) (numbers : NumArray) (dynamicShapes : Bool) :
    (Symbolic.ofKind (.array (.ofArray id numbers dynamicShapes))).Describes
      node (.array numbers) :=
  .array ⟨fun _ htype => (Option.some.inj htype).symm, fun _ hplace =>
    (Option.some.inj hplace).symm⟩
    (ArrayFacts.fits_ofArray numbers dynamicShapes)

lemma Symbolic.describes_constant (node : Nat) (literal : Literal) :
    (Symbolic.constant literal).Describes node (Value.ofLiteral literal) := by
  cases literal with
  | int _ | float _ | bool _ => exact .number rfl rfl rfl rfl
  | _ => exact .other nofun rfl rfl rfl

/-- An array of integers plus one is an array of integers, as it is inferred. -/
theorem right_integers_add_one : ∃ result, Primitive.add.call 0
      [.array (.contiguous .int64 (.cuda 0) [2] [⟨0⟩, ⟨0⟩]), .int 1] = .ok (.array result) ∧
    result.elementType = .int64 ∧ result.device = .cuda 0 ∧
    (nodeResult 1 .add [.ofKind
      (.array (.ofArray 0 (.contiguous .int64 (.cuda 0) [2] [⟨0⟩, ⟨0⟩]) false)),
      .constant (.int 1)]).Right result := by
  obtain ⟨result, hcall, htype, hdevice⟩ : ∃ result, Primitive.add.call 0
      [.array (.contiguous .int64 (.cuda 0) [2] [⟨0⟩, ⟨0⟩]), .int 1] = .ok (.array result) ∧
      result.elementType = .int64 ∧ result.device = .cuda 0 := ⟨_, rfl, rfl, rfl⟩
  refine ⟨result, hcall, htype, hdevice, (nodeResult_right_iff ?_ hcall).2 ?_⟩
  · exact .cons (Symbolic.describes_ofArray ..)
      (.cons (Symbolic.describes_constant _ (.int 1)) .nil)
  · exact fun _ => ⟨Or.inr (Or.inl (by decide)), trivial⟩

/-- An array of `float32` plus `1.0` is one of `float32`, but `float64` is inferred. -/
theorem not_nodeResult_right :
    ¬ ∀ (id serial : Nat) (function : Primitive) (operands : List Symbolic)
    (args : List Value) (result : NumArray), List.Forall₂ (Symbolic.Describes id) operands args →
      function.call serial args = .ok (.array result) →
        (nodeResult id function operands).Right result := by
  intro h
  have hfloat : ∃ result, Primitive.add.call 0
      [.array (.contiguous .float32 .cpu [1] [⟨0x3ff0000000000000⟩]), .float ⟨0x3ff0000000000000⟩] =
        .ok (.array result) ∧ result.elementType = .float32 := ⟨_, rfl, rfl⟩
  obtain ⟨result, hcall, htype⟩ := hfloat
  obtain ⟨facts, hfacts, hright⟩ := h 1 0 .add
    [.ofKind (.array (.ofArray 0 (.contiguous .float32 .cpu [1] [⟨0x3ff0000000000000⟩]) false)),
      .constant (.float ⟨0x3ff0000000000000⟩)] _ result
    (.cons (Symbolic.describes_ofArray ..)
      (.cons (Symbolic.describes_constant _ (.float _)) .nil)) hcall
  have hinferred : facts.elementType = some .float64 := by
    rcases hfacts with hfacts | hfacts <;> cases hfacts
    rfl
  cases (hright.elementType _ hinferred).trans htype

end GuardedTrace
