/-
What is inferred of dimensions, for nodes and for layers.

A trace keeps of every node as much of rank, shape and strides as it knows.  For primitives what it
infers describes the value that the node computes, whatever was known of the operands
(`nodeResult_describes`).

For layers the trace looks at the first argument only.  That is enough for a layer of one input,
through chains of any depth (`Layer.fits_forward`).  A leaf that combines two operands takes the
dimensions of the second one when the first has none; then, and only then, what is inferred is wrong
(`outputFacts_measures_iff`).
-/
import GuardedTrace.Proofs.InferredTypes

namespace GuardedTrace

variable {node id serial : Nat} {dynamicShapes : Bool} {function : Primitive}
  {value : Value} {result : NumArray}

namespace ArrayFacts

variable {facts : ArrayFacts} {lhs rhs : Option ArrayFacts}

/-! ### Descriptions -/

/-- What is known of rank, shape and strides describes a value.  Of an array it is true, a number
has no dimensions, and of other values nothing is known; a shape is known together with its rank. -/
structure Describes (facts : ArrayFacts) (value : Value) : Prop where
  known : match value with
    | .array numbers => (∀ rank, facts.rank = some rank → rank = numbers.rank) ∧
        (∀ shape, facts.shape = some shape → shape = numbers.shape) ∧
        ∀ strides, facts.strides = some strides → strides = numbers.strides
    | .int _ | .float _ | .bool _ => (facts.rank = none ∨ facts.rank = some 0) ∧
        (facts.shape = none ∨ facts.shape = some []) ∧
          (facts.strides = none ∨ facts.strides = some [])
    | _ => facts.rank = none ∧ facts.shape = none ∧ facts.strides = none
  ranked : ∀ shape, facts.shape = some shape → facts.rank = some shape.length

/-- A known shape comes with its rank. -/
def Ranked (facts : ArrayFacts) : Prop :=
  ∀ shape, facts.shape = some shape → facts.rank = some shape.length

lemma eq_none_or_some_iff {α : Type} {known : Option α} {found : α} :
    (known = none ∨ known = some found) ↔ ∀ value, known = some value → found = value := by
  cases known <;> simp [eq_comm]

/-- Facts describe a value when they fit it and their shape is ranked. -/
lemma describes_iff : facts.Describes value ↔ facts.Fits value ∧ facts.Ranked := by
  constructor
  · rintro ⟨hknown, hranked⟩
    refine ⟨?_, hranked⟩
    cases value with
    | array numbers =>
      obtain ⟨hrank, hshape, hstrides⟩ := hknown
      exact ⟨fun rank h => congrArg some (hrank rank h).symm,
        fun shape h => congrArg some (hshape shape h).symm,
        fun strides h => congrArg some (hstrides strides h).symm⟩
    | int _ | float _ | bool _ =>
      simp only [eq_none_or_some_iff] at hknown
      obtain ⟨hrank, hshape, hstrides⟩ := hknown
      exact ⟨fun rank h => congrArg some (hrank rank h),
        fun shape h => congrArg some (hshape shape h),
        fun strides h => congrArg some (hstrides strides h)⟩
    | _ =>
      obtain ⟨hrank, hshape, hstrides⟩ := hknown
      exact ⟨by simp [hrank], by simp [hshape], by simp [hstrides]⟩
  · rintro ⟨⟨hrank, hshape, hstrides⟩, hranked⟩
    refine ⟨?_, hranked⟩
    cases value with
    | array numbers =>
      exact ⟨fun rank h => (Option.some.inj (hrank rank h)).symm,
        fun shape h => (Option.some.inj (hshape shape h)).symm,
        fun strides h => (Option.some.inj (hstrides strides h)).symm⟩
    | int _ | float _ | bool _ =>
      simp only [eq_none_or_some_iff]
      exact ⟨fun rank h => Option.some.inj (hrank rank h),
        fun shape h => Option.some.inj (hshape shape h),
        fun strides h => Option.some.inj (hstrides strides h)⟩
    | _ =>
      exact ⟨Option.eq_none_iff_forall_ne_some.2 fun rank h => (nomatch hrank rank h),
        Option.eq_none_iff_forall_ne_some.2 fun shape h => (nomatch hshape shape h),
        Option.eq_none_iff_forall_ne_some.2 fun strides h => (nomatch hstrides strides h)⟩

/-! ### Ranks of known shapes -/

lemma ranked_unknown : (unknown node).Ranked := nofun

lemma ranked_scalar {elementType : Option ElementType} : (scalar node elementType).Ranked := by
  rintro _ ⟨⟩
  rfl

lemma ranked_reduced : (reduced node facts).Ranked := by
  rintro _ ⟨⟩
  rfl

lemma ranked_ofArray (numbers : NumArray) : (ofArray node numbers dynamicShapes).Ranked := by
  intro shape hshape
  cases dynamicShapes
  · cases hshape
    rfl
  · cases hshape

lemma Ranked.selected (h : facts.Ranked) : (selected node facts).Ranked := by
  intro rest hrest
  obtain ⟨shape, hshape, htail⟩ := Option.bind_eq_some_iff.1 hrest
  match shape, htail with
  | size :: tail, htail =>
    cases htail
    simp [ArrayFacts.selected, h _ hshape]

lemma Ranked.broadcast (hlhs : ∀ facts, lhs = some facts → facts.Ranked)
    (hrhs : ∀ facts, rhs = some facts → facts.Ranked) :
    (broadcast node function lhs rhs).Ranked := by
  intro shape hshape
  unfold ArrayFacts.broadcast combined at hshape ⊢
  cases lhs with
  | none =>
    cases rhs with
    | none => cases hshape
    | some b => exact hrhs b rfl shape hshape
  | some a =>
    cases rhs with
    | none => exact hlhs a rfl shape hshape
    | some b =>
      by_cases hleft : a.rank = some 0
      · simp only [hleft, if_true] at hshape ⊢
        exact hrhs b rfl shape hshape
      · by_cases hright : b.rank = some 0
        · simp only [hleft, hright, if_true, if_false] at hshape ⊢
          exact hlhs a rfl shape hshape
        · simp only [hleft, hright, if_false] at hshape ⊢
          -- one shape known on both sides is one rank known on both sides
          split at hshape
          · next hsame =>
            have hrank := hlhs a rfl shape hshape
            rw [if_pos (hrank.trans (hrhs b rfl shape (hsame ▸ hshape)).symm), hrank]
          · cases hshape

end ArrayFacts

/-- The kind is that of a node whose facts are ranked. -/
def Kind.Ranked (kind : Kind) : Prop :=
  ∀ facts : ArrayFacts, kind = .array facts ∨ kind = .scalar facts → facts.Ranked

namespace Kind

lemma ranked_array {facts : ArrayFacts} (h : facts.Ranked) : (Kind.array facts).Ranked := by
  rintro _ (heq | heq) <;> cases heq
  exact h

lemma ranked_scalar {facts : ArrayFacts} (h : facts.Ranked) : (Kind.scalar facts).Ranked := by
  rintro _ (heq | heq) <;> cases heq
  exact h

end Kind

lemma ranked_itemResult {operands : List Symbolic}
    (hoperands : ∀ operand ∈ operands, (operand.facts id).Ranked) :
    (itemResult id operands).Ranked := by
  cases operands with
  | nil => exact Kind.ranked_scalar ArrayFacts.ranked_unknown
  | cons container rest =>
    have hcontainer := hoperands container (List.mem_cons_self ..)
    unfold itemResult
    dsimp only
    split
    · next inner hinner =>
      have hinner : inner.Ranked := by simpa [Symbolic.facts, hinner] using hcontainer
      split
      · exact Kind.ranked_array hinner.selected
      · exact Kind.ranked_array hinner.selected
      · refine Kind.ranked_array ?_
        intro shape hshape
        cases hshape
    · exact Kind.ranked_scalar ArrayFacts.ranked_unknown

/-- A known shape of a node comes with its rank when those of its operands do. -/
lemma ranked_nodeResult {operands : List Symbolic}
    (hoperands : ∀ operand ∈ operands, (operand.facts id).Ranked) :
    (nodeResult id function operands).Ranked := by
  have hoption : ∀ {operand? : Option Symbolic},
      (∀ operand, operand? = some operand → operand ∈ operands) →
      ∀ facts, operand?.map (Symbolic.facts · id) = some facts → facts.Ranked := by
    intro operand? hmem facts hfacts
    obtain ⟨operand, hoperand, rfl⟩ := Option.map_eq_some_iff.1 hfacts
    exact hoperands operand (hmem operand hoperand)
  have hfirst := hoption fun _ => List.mem_of_mem_head?
  have hsecond := hoption fun _ => List.mem_of_getElem? (i := 1)
  have hbroadcast : (ArrayFacts.broadcast id function (operands.head?.map (·.facts id))
      (operands[1]?.map (·.facts id))).Ranked := ArrayFacts.Ranked.broadcast hfirst hsecond
  unfold nodeResult
  dsimp only
  split
  · split
    · exact Kind.ranked_array ArrayFacts.ranked_reduced
    · exact Kind.ranked_array ArrayFacts.ranked_unknown
  · exact Kind.ranked_scalar ArrayFacts.ranked_scalar
  · split
    · exact Kind.ranked_scalar ArrayFacts.ranked_scalar
    · exact Kind.ranked_scalar ArrayFacts.ranked_unknown
  · split
    · exact Kind.ranked_scalar ArrayFacts.ranked_scalar
    · exact Kind.ranked_scalar ArrayFacts.ranked_unknown
  · exact ranked_itemResult hoperands
  · split
    · exact Kind.ranked_scalar hbroadcast
    · exact Kind.ranked_array hbroadcast

/-- **What is inferred of dimensions is right.**  When what is known of every operand describes its
value, what is inferred of a node describes the value that its primitive computes. -/
theorem nodeResult_describes {operands : List Symbolic} {args : List Value}
    (hoperands : List.Forall₂ (fun operand arg => (operand.facts id).Describes arg) operands args)
    (hcall : function.call serial args = .ok value) :
    ∃ facts : ArrayFacts, (nodeResult id function operands = .array facts ∨
      nodeResult id function operands = .scalar facts) ∧ facts.Describes value := by
  have hranked : ∀ operand ∈ operands, (operand.facts id).Ranked := by
    intro operand hoperand
    obtain ⟨arg, -, hdescribes⟩ := exists_of_mem_right hoperands.flip hoperand
    exact (ArrayFacts.describes_iff.1 hdescribes).2
  have hfits := hoperands.imp fun _ _ hdescribes => (ArrayFacts.describes_iff.1 hdescribes).1
  obtain ⟨facts, hkind, -, hresult⟩ := nodeResult_fits hfits hcall
  exact ⟨facts, hkind, ArrayFacts.describes_iff.2 ⟨hresult, ranked_nodeResult hranked facts hkind⟩⟩

/-- An array in row-major layout that holds zeros. -/
def NumArray.zeros (shape : List Nat) : NumArray := .full shape .zero

/-- A row of an array of two rows is described by what is inferred of it. -/
theorem row_described : ∃ (row : NumArray) (facts : ArrayFacts),
    Primitive.getItem.call 0 [.array (.zeros [2, 3]), .int 1] = .ok (.array row) ∧ row.shape = [3] ∧
    (nodeResult 1 .getItem [.ofKind (.array (.ofArray 0 (.zeros [2, 3]) false)),
      .constant (.int 1)] = .array facts ∨
      nodeResult 1 .getItem [.ofKind (.array (.ofArray 0 (.zeros [2, 3]) false)),
        .constant (.int 1)] = .scalar facts) ∧
    facts.Describes (.array row) := by
  obtain ⟨row, hcall, hshape⟩ : ∃ row, Primitive.getItem.call 0 [.array (.zeros [2, 3]), .int 1] =
      .ok (.array row) ∧
      row.shape = [3] := ⟨_, rfl, rfl⟩
  have harray : (ArrayFacts.ofArray 0 (.zeros [2, 3]) false).Describes (.array (.zeros [2, 3])) :=
    ArrayFacts.describes_iff.2 ⟨ArrayFacts.fits_ofArray _ _, ArrayFacts.ranked_ofArray _⟩
  have hindex : (ArrayFacts.scalar 1 (some .int64)).Describes (.int 1) :=
    ArrayFacts.describes_iff.2 ⟨ArrayFacts.fits_scalar ⟨rfl, rfl⟩, ArrayFacts.ranked_scalar⟩
  have hoperands : List.Forall₂ (fun operand arg => (Symbolic.facts operand 1).Describes arg)
      [.ofKind (.array (.ofArray 0 (.zeros [2, 3]) false)), .constant (.int 1)]
      [.array (.zeros [2, 3]), .int 1] := .cons harray (.cons hindex .nil)
  obtain ⟨facts, hkind, hdescribes⟩ := nodeResult_describes hoperands hcall
  exact ⟨row, facts, hcall, hshape, hkind, hdescribes⟩

/-! ### Layers of one input -/

/-- The value is no array with dimensions. -/
def Value.NoDims (value : Value) : Prop := ∀ numbers, value = .array numbers → numbers.shape = []

/-- Only values with dimensions are multiplied. -/
lemma isSome_dims_of_mul {x weight : Value} (h : binary .mul x weight = .ok value) :
    x.dims?.isSome := by
  cases x with
  | array _ | bool _ | int _ | float _ => rfl
  | _ =>
    cases weight with
    | _ => cases h

lemma ArrayFacts.fits_weightFacts (weight : Value) :
    (weightFacts node dynamicShapes (some weight)).Fits weight := by
  cases weight with
  | array numbers => exact fits_ofArray numbers dynamicShapes
  | int _ | float _ => exact fits_scalar ⟨rfl, rfl⟩
  | _ => exact fits_unknown

namespace Layer

/-- What is known of the first argument of a layer: the facts of the argument fit it, and an
argument without facts is no array with dimensions. -/
structure InputFits (input : Option ArrayFacts) (x : Value) : Prop where
  fits : ∀ facts, input = some facts → facts.Fits x
  noDims : input = none → x.NoDims

variable {input : Option ArrayFacts} {x : Value}

/-- The facts of a leaf fit what its primitive computes from one operand. -/
lemma fits_leaf {identity : Identity} {typeName : String} {members : List (String × Value)}
    (hinput : InputFits input x) (h : function.call serial [x] = .ok value) :
    (outputFacts node dynamicShapes ⟨identity, typeName, .leaf function, members⟩ input).Fits
      value := by
  have helementwise (hkernel : (unaryKernel? function).isSome) :
      outputFacts node dynamicShapes ⟨identity, typeName, .leaf function, members⟩ input =
        .broadcast node function input none := by
    cases function with
    | neg | abs | relu => rfl
    | _ => cases hkernel
  cases Primitive.succeeds_of_call h with
  | unary hkernel h =>
    rw [helementwise hkernel]
    cases input with
    | none => exact ⟨nofun, nofun, nofun⟩
    | some facts => exact ArrayFacts.fits_broadcast_one (hinput.fits facts rfl) h
  | sum numbers =>
    cases input with
    | none => exact ArrayFacts.fits_unknown
    | some facts => exact ArrayFacts.fits_reduced ⟨rfl, rfl⟩
  | sumNumber hnumber =>
    cases input with
    | none => exact ArrayFacts.fits_unknown
    | some facts => exact ArrayFacts.fits_reduced (Value.packed_of_isSome hnumber)
  | sizes hfunction =>
    rcases hfunction with rfl | rfl <;> exact ArrayFacts.fits_unknown
  | dim => exact ArrayFacts.fits_unknown

/-- The facts of a product with the weight of a layer fit the product. -/
lemma fits_scale {weight : Value} (hinput : InputFits input x)
    (h : binary .mul x weight = .ok value) :
    (ArrayFacts.broadcast node .mul input
      (some (weightFacts node dynamicShapes (some weight)))).Fits value := by
  have hweight := @ArrayFacts.fits_weightFacts node dynamicShapes weight
  cases input with
  | some facts => exact ArrayFacts.fits_broadcast_two (hinput.fits facts rfl) hweight h
  | none =>
    -- an operand without facts has no dimensions, so the product has those of the weight
    have hdims : x.dims? = some [] := by
      obtain ⟨dims, hdims⟩ := Option.isSome_iff_exists.1 (isSome_dims_of_mul h)
      rcases Value.array_or_number hdims with ⟨numbers, rfl, rfl⟩ | ⟨-, rfl⟩
      · rw [hdims, hinput.noDims rfl numbers rfl]
      · exact hdims
    unfold ArrayFacts.broadcast ArrayFacts.combined
    refine ArrayFacts.fits_of_packed (fun known hknown => ?_) (fun known hknown => ?_)
    · obtain ⟨other, hother, hrank⟩ := ArrayFacts.exists_dims_of_rank hweight hknown
      obtain ⟨dims, hresult, hcombined⟩ := binary_dims h hdims hother
      exact ⟨dims, hresult, ArrayFacts.combined_left hcombined ▸ hrank⟩
    · obtain ⟨dims, hresult, hcombined⟩ := binary_dims h hdims (hweight.shape known hknown)
      exact ArrayFacts.combined_left hcombined ▸ hresult

mutual

/-- The facts of a layer fit what it computes from one input.  The induction is on the tree of
layers; what is handed from one layer of a chain to the next has facts. -/
lemma fits_forward : ∀ (layer : Layer) (input : Option ArrayFacts) (x value : Value),
    InputFits input x →
    layer.forward serial [x] = .ok value → (layer.outputFacts node dynamicShapes input).Fits value
  | ⟨_, typeName, kind, members⟩, input, x, value, hinput, h => by
    cases kind with
    | leaf function => exact fits_leaf hinput (by simpa only [forward] using h)
    | scale =>
      simp only [forward] at h
      simp only [outputFacts]
      cases hweight : members.lookup "weight" with
      | none => simp [hweight] at h
      | some weight =>
        rw [hweight] at h
        exact fits_scale hinput h
    | sequential =>
      simp only [forward] at h
      simp only [outputFacts]
      cases hfacts : chainFacts node dynamicShapes members input with
      | none => exact ArrayFacts.fits_unknown
      | some facts => exact fits_forwardMembers members input x value hinput h facts hfacts
    | list | container => simp [forward] at h
termination_by structural layer => layer

lemma fits_forwardMembers :
    ∀ (members : List (String × Value)) (input : Option ArrayFacts) (x value : Value),
    InputFits input x → forwardMembers serial members x = .ok value →
    ∀ facts, chainFacts node dynamicShapes members input = some facts → facts.Fits value
  | [], input, x, value, hinput, h, facts, hfacts => by
    obtain rfl := Except.ok.inj h
    exact hinput.fits facts hfacts
  | (_, member) :: rest, input, x, value, hinput, h, facts, hfacts => by
    cases member with
    | layer child =>
      simp only [forwardMembers] at h
      simp only [chainFacts] at hfacts
      split at h
      · next output houtput =>
        have hchild := fits_forward child input x output hinput houtput
        have hnext : InputFits (some (outputFacts node dynamicShapes child input)) output :=
          ⟨fun facts hfacts => Option.some.inj hfacts ▸ hchild, fun hnone => (nomatch hnone)⟩
        exact fits_forwardMembers rest _ output value hnext h facts hfacts
      · cases h
    | _ => exact fits_forwardMembers rest input x value hinput h facts hfacts
termination_by structural members => members

end

/-! ### Layers of two operands -/

/-- The layer combines two operands of which the first has no dimensions, as is known, and the
second has some. -/
def Overlooks (layer : Layer) (input : Option ArrayFacts) (args : List Value) : Prop :=
  ∃ function facts first numbers, layer.kind = .leaf function ∧ (kernel? function).isSome ∧
    input = some facts ∧ (facts.rank = some 0 ∨ facts.shape = some []) ∧
    args = [first, .array numbers] ∧ numbers.shape ≠ []

end Layer

/-- The known rank and shape are those of an array. -/
structure ArrayFacts.Measures (facts : ArrayFacts) (numbers : NumArray) : Prop where
  rank : ∀ rank, facts.rank = some rank → rank = numbers.rank
  shape : ∀ shape, facts.shape = some shape → shape = numbers.shape

namespace ArrayFacts

lemma Fits.measures {facts : ArrayFacts} (h : facts.Fits (.array result)) : facts.Measures result :=
  ⟨fun rank hrank => (Option.some.inj (h.rank rank hrank)).symm,
    fun shape hshape => (Option.some.inj (h.shape shape hshape)).symm⟩

/-- A combination has the dimensions of its first operand, unless only the second one has any. -/
lemma combined_eq_left_iff {a b c : List Nat} (h : Combined a b c) :
    c = a ↔ ¬ (a = [] ∧ b ≠ []) := by
  constructor
  · rintro rfl ⟨rfl, hne⟩
    exact hne (combined_left h).symm
  · intro hseen
    rcases h with ⟨-, heq⟩ | ⟨-, heq⟩ | ⟨hnil, heq⟩
    · exact heq
    · exact heq
    · have hb : b = [] := by_contra fun hne => hseen ⟨hnil, hne⟩
      rw [heq, hnil, hb]

/-- The facts of the first operand are those of a combination, unless only the second one has
dimensions. -/
lemma measures_iff_of_combined {facts : ArrayFacts} {x y : Value} (hfits : facts.Fits x)
    (h : binary function x y = .ok (.array result)) :
    facts.Measures result ↔ ¬ ((facts.rank = some 0 ∨ facts.shape = some []) ∧
      ∃ numbers, y = .array numbers ∧ numbers.shape ≠ []) := by
  obtain ⟨a, b, ha, hb, hcombined⟩ : ∃ a b, x.dims? = some a ∧ y.dims? = some b ∧
      Combined a b result.shape := by
    obtain ⟨a, b, ha, hb⟩ : ∃ a b, x.dims? = some a ∧ y.dims? = some b := by
      rcases binary_eq_array h with
          ⟨a, b, rfl, rfl, -⟩ | ⟨a, number, rfl, hy, -⟩ | ⟨b, number, hx, rfl, -⟩
      · exact ⟨_, _, rfl, rfl⟩
      · exact ⟨_, _, rfl, Value.dims?_of_isSome (by simp [hy])⟩
      · exact ⟨_, _, Value.dims?_of_isSome (by simp [hx]), rfl⟩
    obtain ⟨dims, hresult, hcombined⟩ := binary_dims h ha hb
    exact ⟨a, b, ha, hb, Option.some.inj hresult.1 ▸ hcombined⟩
  have hrank : ∀ rank, facts.rank = some rank → a.length = rank := by
    intro rank hrank
    simpa [ha] using hfits.rank rank hrank
  have hshape : ∀ shape, facts.shape = some shape → a = shape := by
    intro shape hshape
    simpa [ha] using hfits.shape shape hshape
  have hsecond : (∃ numbers, y = .array numbers ∧ numbers.shape ≠ []) ↔ b ≠ [] := by
    rcases Value.array_or_number hb with ⟨numbers, rfl, rfl⟩ | ⟨hnumber, rfl⟩
    · simp
    · simp only [ne_eq, not_true_eq_false, iff_false]
      rintro ⟨numbers, rfl, -⟩
      cases hnumber
  rw [hsecond]
  constructor
  · rintro ⟨hresultRank, hresultShape⟩ ⟨hnone, hne⟩
    have hempty : a = [] ∧ result.shape = [] := by
      rcases hnone with hzero | hnil
      · exact ⟨List.length_eq_zero_iff.1 (hrank 0 hzero),
          List.length_eq_zero_iff.1 (hresultRank 0 hzero).symm⟩
      · exact ⟨hshape [] hnil, (hresultShape [] hnil).symm⟩
    have hsame : result.shape = a := hempty.2.trans hempty.1.symm
    exact (combined_eq_left_iff hcombined).1 hsame ⟨hempty.1, hne⟩
  · intro hseen
    refine ⟨fun rank hknown => ?_, fun shape hknown => ?_⟩
    · have hsame : result.shape = a := by
        refine (combined_eq_left_iff hcombined).2 ?_
        rintro ⟨rfl, hne⟩
        obtain rfl : 0 = rank := hrank rank hknown
        exact hseen ⟨Or.inl hknown, hne⟩
      rw [NumArray.rank, hsame, hrank rank hknown]
    · have hsame : result.shape = a := by
        refine (combined_eq_left_iff hcombined).2 ?_
        rintro ⟨rfl, hne⟩
        obtain rfl : [] = shape := hshape shape hknown
        exact hseen ⟨Or.inr hknown, hne⟩
      rw [hsame, hshape shape hknown]

end ArrayFacts

namespace Layer

/-- The facts of a leaf of a combination are those of its first operand. -/
lemma measures_leaf_iff {identity : Identity} {typeName : String} {members : List (String × Value)}
    {input : Option ArrayFacts} (hkernel : (kernel? function).isSome) :
    (outputFacts node dynamicShapes ⟨identity, typeName, .leaf function, members⟩
      input).Measures result ↔
      ∀ facts, input = some facts → facts.Measures result := by
  have hfacts : outputFacts node dynamicShapes ⟨identity, typeName, .leaf function, members⟩ input =
      .broadcast node function input none := by
    cases function with
    | neg | abs | relu | sum | getItem | size | dim | stride => cases hkernel
    | _ => rfl
  rw [hfacts]
  cases input with
  | none => exact iff_of_true ⟨nofun, nofun⟩ nofun
  | some facts =>
    constructor
    · rintro ⟨hrank, hshape⟩ _ ⟨⟩
      exact ⟨hrank, hshape⟩
    · intro h
      exact ⟨(h facts rfl).rank, (h facts rfl).shape⟩

end Layer

/-- **When inferred dimensions of a layer are right.**  A layer has computed an array, and what is
known of its first argument is true.  What is inferred are the rank and the shape of that array, or
nothing, exactly when the layer does not combine an operand that is known to have no dimensions with
an array that has some. -/
theorem outputFacts_measures_iff {layer : Layer} {input : Option ArrayFacts}
    {x : Value} {rest : List Value}
    (hinput : Layer.InputFits input x)
    (hforward : layer.forward serial (x :: rest) = .ok (.array result)) :
    (layer.outputFacts node dynamicShapes input).Measures result ↔
      ¬ layer.Overlooks input (x :: rest) := by
  cases rest with
  | nil =>
    refine iff_of_true (Layer.fits_forward layer input x _ hinput hforward).measures ?_
    rintro ⟨_, _, _, _, -, -, -, -, hargs, -⟩
    cases hargs
  | cons y rest =>
    obtain ⟨identity, typeName, kind, members⟩ := layer
    cases kind with
    | leaf function =>
      have hcall : function.call serial (x :: y :: rest) = .ok (.array result) := by
        simpa only [Layer.forward] using hforward
      cases Primitive.succeeds_of_call hcall with
      | getItem =>
        refine iff_of_true ⟨nofun, nofun⟩ ?_
        rintro ⟨_, _, _, _, hkind, hkernel, -⟩
        cases hkind
        cases hkernel
      | size _ h =>
        obtain ⟨word, heq⟩ := Primitive.exists_of_reportedAt h
        cases heq
      | binary hkernel h =>
        rw [Layer.measures_leaf_iff hkernel]
        constructor
        · rintro hmeasures ⟨_, facts, _, numbers, -, -, rfl, hnone, hargs, hdims⟩
          cases hargs
          exact (ArrayFacts.measures_iff_of_combined (hinput.fits facts rfl) h).1
            (hmeasures facts rfl)
            ⟨hnone, numbers, rfl, hdims⟩
        · rintro hseen facts rfl
          refine (ArrayFacts.measures_iff_of_combined (hinput.fits facts rfl) h).2 ?_
          rintro ⟨hnone, numbers, rfl, hdims⟩
          exact hseen ⟨function, facts, x, numbers, rfl, hkernel, rfl, hnone, rfl, hdims⟩
    | scale | sequential | list | container => simp [Layer.forward] at hforward

/-- A chain that cuts an input off below and scales it by a row. -/
def clampedScale : Layer :=
  { id := .declared 3, typeName := "Sequential", kind := .sequential
    members :=
      [("0", .layer { id := .declared 1, typeName := "Relu", kind := .leaf .relu, members := [] }),
      ("1", .layer (.weighted (.declared 2) (.array (.zeros [3]))))] }

/-- The shape that is inferred of the chain is that of its output. -/
theorem clampedScale_measured :
    ∃ result, clampedScale.forward 0 [.array (.zeros [3])] = .ok (.array result) ∧
    result.shape = [3] ∧
    (clampedScale.outputFacts 1 false (some (.ofArray 0 (.zeros [3]) false))).Measures result := by
  obtain ⟨result, hforward, hshape⟩ : ∃ result,
      clampedScale.forward 0 [.array (.zeros [3])] = .ok (.array result) ∧
        result.shape = [3] := ⟨_, rfl, rfl⟩
  have hinput : Layer.InputFits (some (.ofArray 0 (.zeros [3]) false)) (.array (.zeros [3])) :=
    ⟨fun facts hfacts => Option.some.inj hfacts ▸ ArrayFacts.fits_ofArray _ _, nofun⟩
  refine ⟨result, hforward, hshape, (outputFacts_measures_iff hinput hforward).2 ?_⟩
  rintro ⟨_, _, _, _, hkind, -⟩
  cases hkind

/-- A layer that adds an array without dimensions and a row gives a row, but no dimensions are
inferred. -/
theorem not_outputFacts_measures : ¬ ∀ (node serial : Nat) (dynamicShapes : Bool) (layer : Layer)
    (input : Option ArrayFacts) (x : Value) (rest : List Value) (result : NumArray),
      Layer.InputFits input x →
      layer.forward serial (x :: rest) = .ok (.array result) →
      (layer.outputFacts node dynamicShapes input).Measures result := by
  intro h
  let adder : Layer := { id := .declared 1, typeName := "Add", kind := .leaf .add, members := [] }
  obtain ⟨result, hforward, hshape⟩ : ∃ result,
      adder.forward 0 [.array (.zeros []), .array (.zeros [3])] = .ok (.array result) ∧
        result.shape = [3] :=
    ⟨_, rfl, rfl⟩
  have hmeasures := h 1 0 false adder (some (.ofArray 0 (.zeros []) false)) _ _ result
    ⟨fun facts hfacts => Option.some.inj hfacts ▸ ArrayFacts.fits_ofArray _ _, nofun⟩ hforward
  cases (hmeasures.shape [] rfl).trans hshape

end GuardedTrace
