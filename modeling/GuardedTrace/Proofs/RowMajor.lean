/-
Selecting down to an element.

The strides of a shape are computed from its end, and each is held at the greatest size; selecting a
row cuts a piece out of the data, as long as a row of the dimensions that are left.  Both follow the
row-major order: one index for each dimension, selected one after the other, leads to the element
that the strides address.  A selection with an index outside its dimension fails, and the error
names the index and the dimension.
-/
import Mathlib.Tactic
import GuardedTrace.Array.Basic

namespace GuardedTrace

/-! ### Indices -/

/-- The index lies inside a dimension, counted from either end. -/
def InRange (index : Int64) (size : Nat) : Prop := -(size : Int) ≤ index.toInt ∧ index.toInt < size

instance (index : Int64) (size : Nat) : Decidable (InRange index size) :=
  inferInstanceAs (Decidable (_ ∧ _))

/-- The index counted from the front. -/
def fromFront (index : Int64) (size : Nat) : Nat :=
  (if index.toInt < 0 then index.toInt + size else index.toInt).toNat

variable {index : Int64} {indices : List Int64} {size position : Nat} {rest shape : List Nat}

lemma position?_eq_some_iff :
    position? index size = some position ↔ size < wordLimit ∧ InRange index size ∧
      position = fromFront index size := by
  simp only [position?, InRange, fromFront, Option.ite_none_right_eq_some, Option.some.injEq]
  split <;> omega

lemma fromFront_lt (h : InRange index size) : fromFront index size < size := by
  unfold InRange at h
  unfold fromFront
  split <;> omega

/-! ### Strides -/

lemma elementCount_cons (size : Nat) (rest : List Nat) :
    elementCount (size :: rest) = size * elementCount rest := rfl

/-- With an index inside every dimension, no dimension is empty. -/
lemma elementCount_pos (h : List.Forall₂ InRange indices shape) : 0 < elementCount shape := by
  induction h with
  | nil => exact Nat.one_pos
  | cons hindex _ ih => exact Nat.mul_pos (Nat.zero_lt_of_lt (fromFront_lt hindex)) ih

/-- A product that is held at the greatest size all along is held there once. -/
lemma foldr_saturatingMul (shape : List Nat) :
    shape.foldr saturatingMul 1 = min (elementCount shape) maxSize := by
  induction shape with
  | nil => rfl
  | cons size rest ih =>
    rw [List.foldr_cons, ih, elementCount_cons, saturatingMul]
    rcases Nat.le_total (elementCount rest) maxSize with hle | hle
    · rw [min_eq_left hle]
    · rw [min_eq_right hle]
      -- Held or not, a product with zero is zero and any other one is not below the greatest size.
      rcases Nat.eq_zero_or_pos size with rfl | hpos
      · rw [Nat.zero_mul, Nat.zero_mul]
      · have hheld : maxSize ≤ size * maxSize := Nat.le_mul_of_pos_left _ hpos
        have hexact : maxSize ≤ size * elementCount rest :=
          hle.trans (Nat.le_mul_of_pos_left _ hpos)
        rw [min_eq_right hheld, min_eq_right hexact]

/-- The place in row-major order that indices lead to: the sum of the positions, each times the
stride of its dimension. -/
def rowMajorPlace (indices : List Int64) (shape : List Nat) : Nat :=
  (List.zipWith (· * ·) (List.zipWith fromFront indices shape) (rowMajorStrides shape)).sum

lemma rowMajorPlace_cons (hcount : elementCount rest ≤ maxSize) :
    rowMajorPlace (index :: indices) (size :: rest) =
      fromFront index size * elementCount rest + rowMajorPlace indices rest := by
  simp only [rowMajorPlace, rowMajorStrides, List.zipWith_cons_cons,
    List.sum_cons, foldr_saturatingMul, min_eq_left hcount]

/-! ### Selecting -/

namespace NumArray

variable {array : NumArray}

/-- The data fill the shape, and there are fewer than words can count.  No list of elements that
fits into memory is longer. -/
structure Addressable (array : NumArray) : Prop where
  length_data : array.data.length = elementCount array.shape
  length_lt : array.data.length < wordLimit

/-- Selects along the first dimension, with one index after the other. -/
def selectAll (array : NumArray) (indices : List Int64) : Run NumArray :=
  indices.foldlM select array

lemma selectAll_cons : array.selectAll (index :: indices) = array.select index >>= fun row =>
    row.selectAll indices :=
  List.foldlM_cons

lemma select_of_position_eq_none (hshape : array.shape = size :: rest)
    (hposition : position? index size = none) :
    array.select index = .error (.index (.outOfBounds index size)) := by
  simp only [select, hshape, hposition]

/-- A position inside the first dimension has a row, and the row is a piece of the data. -/
lemma Addressable.exists_row (h : array.Addressable) (hshape : array.shape = size :: rest)
    (hposition : position? index size = some position) :
    ∃ row, array.select index = .ok row ∧ row.Addressable ∧ row.shape = rest ∧
      elementCount rest ≤ maxSize ∧
      row.elementType = array.elementType ∧ row.device = array.device ∧
      ∀ k element, row.data[k]? = some element →
        array.data[position * elementCount rest + k]? = some element := by
  obtain ⟨-, hrange, rfl⟩ := position?_eq_some_iff.1 hposition
  have hlt := fromFront_lt hrange
  have hlength : array.data.length = size * elementCount rest := by
    rw [h.length_data, hshape, elementCount_cons]
  have hcount : elementCount rest < wordLimit := by
    have hword := h.length_lt
    rw [hlength] at hword
    exact (Nat.le_mul_of_pos_left _ (Nat.zero_lt_of_lt hlt)).trans_lt hword
  have hlimit : wordLimit ≤ maxSize := by decide
  have hwrapped : wrappedCount rest = elementCount rest :=
    Nat.mod_eq_of_lt ((hcount.trans_le hlimit).trans (Nat.lt_succ_self _))
  -- The rows up to the selected one, and the selected one, fit into the data.
  have hfits : fromFront index size * elementCount rest + elementCount rest ≤
      array.data.length := by
    rw [hlength, ← Nat.succ_mul]
    exact Nat.mul_le_mul_right _ hlt
  have hpiece : ((array.data.drop (fromFront index size * elementCount rest)).take
      (elementCount rest)).length =
      elementCount rest := by
    rw [List.length_take, List.length_drop]
    omega
  refine ⟨contiguous array.elementType array.device rest
    ((array.data.drop (fromFront index size * elementCount rest)).take (elementCount rest)),
    ?_, ⟨hpiece, hpiece.trans_lt hcount⟩, rfl, (hcount.trans_le hlimit).le, rfl,
      rfl, fun k element hk => ?_⟩
  · simp only [select, hshape, hposition, hwrapped]
    rw [if_pos hfits]
  · change (List.take _ _)[k]? = _ at hk
    rw [List.getElem?_take, Option.ite_none_right_eq_some, List.getElem?_drop] at hk
    exact hk.2

/-- Indices inside their dimensions lead to the element at their place in row-major order. -/
lemma Addressable.exists_element (h : array.Addressable)
    (hrange : List.Forall₂ InRange indices array.shape) :
    ∃ element last, array.selectAll indices = .ok last ∧ last.shape = [] ∧ last.data = [element] ∧
      last.elementType = array.elementType ∧ last.device = array.device ∧
      array.data[rowMajorPlace indices array.shape]? = some element := by
  generalize hshape : array.shape = shape at hrange
  induction hrange generalizing array with
  | nil =>
    have hone : array.data.length = 1 := by
      rw [h.length_data, hshape]
      rfl
    obtain ⟨element, hdata⟩ := List.length_eq_one_iff.1 hone
    refine ⟨element, array, rfl, hshape, hdata, rfl, rfl, ?_⟩
    rw [hdata]
    rfl
  | @cons index size indices rest hindex hrest ih =>
    have hsize : size < wordLimit := by
      have hword := h.length_lt
      rw [h.length_data, hshape, elementCount_cons] at hword
      exact (Nat.le_mul_of_pos_right _ (elementCount_pos hrest)).trans_lt hword
    have hposition := position?_eq_some_iff.2 ⟨hsize, hindex, rfl⟩
    obtain ⟨row, hrow, haddressable, hrowShape, hcount, htype, hdevice, hdata⟩ :=
      h.exists_row hshape hposition
    obtain ⟨element, last, hlast, hscalar, helement, htype', hdevice', hplace⟩ :=
      ih haddressable hrowShape
    refine ⟨element, last, ?_, hscalar, helement, htype'.trans htype, hdevice'.trans hdevice, ?_⟩
    · rw [selectAll_cons, hrow]
      exact hlast
    · rw [rowMajorPlace_cons hcount]
      exact hdata _ _ hplace

/-- An index outside its dimension makes the selection fail, if no other one did before it. -/
lemma Addressable.exists_error (h : array.Addressable) (hrank : indices.length = array.shape.length)
    (hrange : ¬ List.Forall₂ InRange indices array.shape) :
    ∃ pair ∈ indices.zip array.shape, array.selectAll indices =
      .error (.index (.outOfBounds pair.1 pair.2)) := by
  generalize hshape : array.shape = shape at hrank hrange ⊢
  induction shape generalizing array indices with
  | nil =>
    obtain rfl := List.length_eq_zero_iff.1 hrank
    exact absurd .nil hrange
  | cons size rest ih =>
    obtain ⟨index, indices, rfl⟩ := List.exists_cons_of_length_eq_add_one hrank
    rw [selectAll_cons]
    cases hposition : position? index size with
    | none =>
      refine ⟨(index, size), List.mem_cons_self .., ?_⟩
      rw [select_of_position_eq_none hshape hposition]
      rfl
    | some position =>
      obtain ⟨-, hindex, -⟩ := position?_eq_some_iff.1 hposition
      obtain ⟨row, hrow, haddressable, hrowShape, -⟩ := h.exists_row hshape hposition
      have hrest : ¬ List.Forall₂ InRange indices rest := fun hrest => hrange (.cons hindex hrest)
      obtain ⟨pair, hpair, herror⟩ := ih haddressable hrowShape (Nat.succ.inj hrank) hrest
      refine ⟨pair, List.mem_cons_of_mem _ hpair, ?_⟩
      rw [hrow]
      exact herror

/-- **Selecting once per dimension reads the row-major element.**  With one index for each dimension
of an array whose data fill its shape: if every index is inside its dimension, the selection ends in
an array without dimensions, whose element is the one at the sum of the positions times the strides;
otherwise it fails with an index error, which names an index and the size of its dimension. -/
theorem selectAll_reads_row_major (h : array.Addressable)
    (hrank : indices.length = array.shape.length) :
    (List.Forall₂ InRange indices array.shape →
      ∃ element last, array.selectAll indices = .ok last ∧ last.shape = [] ∧ last.data = [element] ∧
        last.elementType = array.elementType ∧ last.device = array.device ∧
        array.data[rowMajorPlace indices array.shape]? = some element) ∧
    (¬ List.Forall₂ InRange indices array.shape →
      ∃ pair ∈ indices.zip array.shape, array.selectAll indices =
        .error (.index (.outOfBounds pair.1 pair.2))) :=
  ⟨h.exists_element, h.exists_error hrank⟩

/-- Two rows of three elements; the strides say that they are laid out by columns. -/
def twoRows : NumArray :=
  { elementType := .float32, device := .cuda 1, shape := [2, 3], strides := [1, 2]
    data := [⟨10⟩, ⟨11⟩, ⟨12⟩, ⟨20⟩, ⟨21⟩, ⟨22⟩] }

/-- The second element of the last row of `twoRows` stands at place four; there is no fourth element
from the end of a row. -/
theorem twoRows_read : twoRows.Addressable ∧ List.Forall₂ InRange [-1, 1] [2, 3] ∧
    rowMajorPlace [-1, 1] [2, 3] = 4 ∧
      (∃ last, twoRows.selectAll [-1, 1] = .ok last ∧ last.data = [⟨21⟩]) ∧
    ¬ List.Forall₂ InRange [0, -4] [2, 3] ∧
    ∃ pair ∈ [(0, 2), (-4, 3)], twoRows.selectAll [0, -4] =
      .error (.index (.outOfBounds pair.1 pair.2)) := by
  have haddressable : twoRows.Addressable := ⟨by decide, by decide⟩
  have hinside : List.Forall₂ InRange [-1, 1] [2, 3] := by decide
  have houtside : ¬ List.Forall₂ InRange [0, -4] [2, 3] := by decide
  refine ⟨haddressable, hinside, by decide, ?_, houtside,
    (selectAll_reads_row_major haddressable rfl).2 houtside⟩
  obtain ⟨element, last, hlast, -, hdata, -, -, hplace⟩ :=
    (selectAll_reads_row_major haddressable rfl).1 hinside
  have helement : twoRows.data[4]? = some element := hplace
  obtain rfl : ⟨21⟩ = element := Option.some.inj helement
  exact ⟨last, hlast, hdata⟩

end NumArray

end GuardedTrace
