/-
The positions that a slice selects.

The rule for slices speaks of unbounded integers: a bound is counted from the end when it is
negative and clamped (`Slice.startIn`, `Slice.stopIn`), and the progression from the start is
followed as long as it stays strictly before the stop.  A walk computes with words instead.  A bound
is never held at the end of the words, because only a negative one is shifted, and upward
(`toInt_adjust`).  The cursor may be, but only at the greatest word, where it has arrived at the
stop; and since it starts at a position, or else stays above a stop that is at least `-1`, it is
never below zero (`exists_walk`).
-/
import GuardedTrace.Proofs.Progressions
import GuardedTrace.Slice

namespace GuardedTrace

open Progression (Before Lists)

/-! ### The greater and the lesser of two words -/

lemma toInt_max (a b : Int64) : (max a b).toInt = max a.toInt b.toInt := by
  change (if a ≤ b then b else a).toInt = _
  rw [apply_ite Int64.toInt, max_def]
  simp only [Int64.le_iff_toInt_le]

lemma toInt_min (a b : Int64) : (min a b).toInt = min a.toInt b.toInt := by
  change (if a ≤ b then a else b).toInt = _
  rw [apply_ite Int64.toInt, min_def]
  simp only [Int64.le_iff_toInt_le]

namespace Slice

/-! ### The rule in unbounded integers -/

/-- The step, one by default. -/
def stride (slice : Slice) : Int := (slice.step.map Int64.toInt).getD 1

/-- Where a bound lies in a sequence of `size` elements: counted from the end when it is negative,
and clamped to `[0, size]` for a positive step and to `[-1, size - 1]` for a negative one. -/
def boundIn (size : Nat) (step : Int) (bound : Int64) : Int :=
  let counted : Int := if bound.toInt < 0 then bound.toInt + size else bound.toInt
  if 0 < step then max 0 (min size counted) else max (-1) (min (size - 1) counted)

/-- Where a slice starts; an absent start is the end that the step leads away from. -/
def startIn (slice : Slice) (size : Nat) : Int :=
  (slice.start.map (boundIn size slice.stride)).getD (if 0 < slice.stride then 0 else size - 1)

/-- Where a slice stops; an absent stop is behind the end that the step leads to. -/
def stopIn (slice : Slice) (size : Nat) : Int :=
  (slice.stop.map (boundIn size slice.stride)).getD (if 0 < slice.stride then size else -1)

variable {slice : Slice} {size : Nat} {step stop cursor : Int64}

lemma startIn_bounds (slice : Slice) (size : Nat) :
    (0 < slice.stride → 0 ≤ slice.startIn size) ∧
      (slice.stride ≤ 0 → slice.startIn size < size) := by
  unfold startIn boundIn
  cases slice.start with
  | none =>
    simp only [Option.map_none, Option.getD_none]
    omega
  | some start =>
    simp only [Option.map_some, Option.getD_some]
    omega

lemma stopIn_bounds (slice : Slice) (size : Nat) :
    (0 < slice.stride → slice.stopIn size ≤ size) ∧
      (slice.stride ≤ 0 → -1 ≤ slice.stopIn size) := by
  unfold stopIn boundIn
  cases slice.stop with
  | none =>
    simp only [Option.map_none, Option.getD_none]
    omega
  | some stop =>
    simp only [Option.map_some, Option.getD_some]
    omega

lemma stride_ne_zero (h : slice.step ≠ some 0) : slice.stride ≠ 0 := by
  unfold stride
  cases hstep : slice.step with
  | none => exact one_ne_zero
  | some step =>
    intro hzero
    exact h (hstep.trans (congrArg some (Int64.toInt_inj.1 hzero)))

lemma toInt_step (slice : Slice) : (slice.step.getD 1).toInt = slice.stride := by
  unfold stride
  cases slice.step <;> rfl

/-! ### Bounds in words -/

/-- A bound that is adjusted in words is adjusted exactly. -/
lemma toInt_adjust {size : Int64} (hsize : 0 ≤ size.toInt) (low high bound : Int64) :
    (adjust size low high bound).toInt =
      max low.toInt (min high.toInt
        (if bound.toInt < 0 then bound.toInt + size.toInt else bound.toInt)) := by
  have hlower := bound.le_toInt
  have hupper := size.toInt_lt
  have hsum := toInt_saturatingAdd bound size
  unfold wordLimit at hsum
  unfold adjust
  rw [toInt_max, toInt_min, apply_ite Int64.toInt]
  simp only [Int64.lt_iff_toInt_lt, Int64.toInt_zero]
  split
  · congr 2
    omega
  · rfl

/-- The adjusted bounds of a slice are those of the rule. -/
lemma toInt_adjusted (slice : Slice) {n : Int64} (hn : n.toInt = size) :
    (slice.adjusted n (slice.step.getD 1)).1.toInt = slice.startIn size ∧
      (slice.adjusted n (slice.step.getD 1)).2.toInt = slice.stopIn size := by
  have hsize : 0 ≤ n.toInt := by omega
  have hupper := n.toInt_lt
  have hlast : (saturatingAdd n (-1)).toInt = size - 1 := by
    have hsum := toInt_saturatingAdd n (-1)
    have hminus : (-1 : Int64).toInt = -1 := by decide
    unfold wordLimit at hsum
    omega
  unfold adjusted startIn stopIn boundIn
  simp only [Int64.lt_iff_toInt_lt, Int64.toInt_zero, toInt_step]
  split
  · cases slice.start <;> cases slice.stop <;>
      simp [toInt_adjust hsize, hn]
  · cases slice.start <;> cases slice.stop <;>
      simp [toInt_adjust hsize, hn, hlast]

/-! ### The walk -/

lemma ahead_iff_before (hstep : step.toInt ≠ 0) :
    Ahead step stop cursor ↔ Before step.toInt stop.toInt cursor.toInt := by
  rw [ahead_iff, Before]
  split
  · omega
  · omega

/-- The cursor goes up from a position, or down to a stop that is at least `-1`; as long as it is
ahead of the stop, it is not below zero. -/
def Inside (step stop cursor : Int64) : Prop :=
  0 < step.toInt ∧ 0 ≤ cursor.toInt ∨ step.toInt < 0 ∧ -1 ≤ stop.toInt

/-- Where the cursor is held at the end of the words, neither it nor the member of the progression
is before the stop any more. -/
lemma saturatingAdd_cases (h : Inside step stop cursor) (hahead : Ahead step stop cursor) :
    (saturatingAdd cursor step).toInt = cursor.toInt + step.toInt ∨
      ¬ Before step.toInt stop.toInt (saturatingAdd cursor step).toInt ∧
        ¬ Before step.toInt stop.toInt (cursor.toInt + step.toInt) := by
  have hnext := toInt_saturatingAdd cursor step
  have hstop := stop.toInt_lt
  have hstep := step.le_toInt
  have hcursor := cursor.toInt_lt
  rw [ahead_iff] at hahead
  unfold wordLimit at hnext
  unfold Before
  rcases h with ⟨hpos, hstart⟩ | ⟨hneg, hlast⟩
  · rw [if_pos hpos, if_pos hpos]
    omega
  · left
    omega

lemma Inside.saturatingAdd (h : Inside step stop cursor) :
    Inside step stop (saturatingAdd cursor step) := by
  have hnext := toInt_saturatingAdd cursor step
  unfold wordLimit at hnext
  unfold Inside at *
  omega

/-- A walk lists the progression from its cursor, and drops nothing. -/
lemma exists_walk (taken : List Nat) (h : Inside step stop cursor) :
    ∃ positions : List Nat, walk step stop cursor taken = taken.reverse ++ positions ∧
      Lists cursor.toInt stop.toInt step.toInt (positions.map Int.ofNat) := by
  have hstep : step.toInt ≠ 0 := by
    unfold Inside at h
    omega
  fun_induction walk step stop cursor taken with
  | case1 cursor taken hahead ih =>
    have hcursor : 0 ≤ cursor.toInt := by
      rw [ahead_iff] at hahead
      unfold Inside at h
      omega
    have hposition : ¬ cursor < 0 := by
      rw [Int64.lt_iff_toInt_lt, Int64.toInt_zero]
      omega
    obtain ⟨positions, hwalk, hlists⟩ := ih h.saturatingAdd
    -- A cursor that is held has nothing more to list, and no more has the exact one.
    have hrest : Lists (cursor.toInt + step.toInt) stop.toInt step.toInt
        (positions.map Int.ofNat) := by
      rcases saturatingAdd_cases h hahead with hnext | ⟨hheld, hbehind⟩
      · rwa [← hnext]
      · rw [Progression.lists_iff_nil hheld] at hlists
        rwa [Progression.lists_iff_nil hbehind]
    refine ⟨cursor.toInt.toNat :: positions, ?_, ?_⟩
    · rw [dif_neg hposition] at hwalk
      rw [if_neg hposition, hwalk, List.reverse_cons, List.append_assoc]
      rfl
    · have hcast : Int.ofNat cursor.toInt.toNat = cursor.toInt := Int.toNat_of_nonneg hcursor
      rw [List.map_cons, hcast]
      exact hrest.cons ((ahead_iff_before hstep).1 hahead)
  | case2 cursor taken hbehind =>
    refine ⟨[], (List.append_nil _).symm, ?_⟩
    rw [ahead_iff_before hstep] at hbehind
    exact (Progression.lists_iff_nil hbehind).2 rfl

/-- Listed positions lie inside the sequence. -/
lemma lt_of_lists {positions : List Nat}
    (h : Lists (slice.startIn size) (slice.stopIn size) slice.stride (positions.map Int.ofNat))
    {position : Nat} (hmem : position ∈ positions) : position < size := by
  obtain ⟨k, hmember, hbefore⟩ := h.mem_iff.1 (List.mem_map_of_mem hmem)
  rw [hmember] at hbefore
  change (position : Int) = _ at hmember
  have hstart := startIn_bounds slice size
  have hstop := stopIn_bounds slice size
  have hbetween := hbefore.between
  omega

/-- **A slice selects by the rule**, for all bounds and steps that words can hold and all sequences
whose length is a word.  The positions are the start, the start plus one step, and so on, strictly
before the stop, in unbounded integers; they lie inside the sequence and go strictly up or down. -/
theorem positions_lists (slice : Slice) (size : Nat) (hstep : slice.step ≠ some 0)
    (hsize : size < wordLimit) :
    ∃ positions : List Nat, slice.positions size = .ok positions ∧
      Lists (slice.startIn size) (slice.stopIn size) slice.stride (positions.map Int.ofNat) ∧
      (∀ position ∈ positions, position < size) ∧
      if 0 < slice.stride then positions.Pairwise (· < ·) else positions.Pairwise (· > ·) := by
  obtain ⟨n, hn⟩ : ∃ n : Int64, n.toInt = size := exists_toInt_eq (by omega) (by omega)
  have hnarrow : narrow size = some n := narrow_eq_some_iff.2 hn.symm
  have hstride := stride_ne_zero hstep
  have hword : slice.step.getD 1 ≠ 0 := by
    intro hzero
    rw [← toInt_step, hzero] at hstride
    exact hstride Int64.toInt_zero
  obtain ⟨hstart, hstop⟩ := toInt_adjusted slice hn
  have hinside : Inside (slice.step.getD 1) (slice.adjusted n (slice.step.getD 1)).2
      (slice.adjusted n (slice.step.getD 1)).1 := by
    have hstarts := startIn_bounds slice size
    have hstops := stopIn_bounds slice size
    unfold Inside
    rw [toInt_step, hstart, hstop]
    omega
  obtain ⟨positions, hwalk, hlists⟩ := exists_walk [] hinside
  rw [hstart, hstop, toInt_step] at hlists
  refine ⟨positions, ?_, hlists, fun position hmem => lt_of_lists hlists hmem, ?_⟩
  · rw [Slice.positions, if_neg hword, hnarrow]
    exact congrArg Except.ok hwalk
  · have hordered := hlists.pairwise hstride
    simpa [List.pairwise_map] using hordered

/-- All but the ends, and everything backward. -/
example : positions ⟨some 1, some (-1), none⟩ 4 = .ok [1, 2] ∧
    positions ⟨none, none, some (-1)⟩ 3 = .ok [2, 1, 0] := by decide +kernel

/-- From the second element of the longest sequence in steps of the greatest word. -/
def farStep : Slice := ⟨some 1, none, some Int64.maxValue⟩

/-- The first step of `farStep` goes past the greatest word. -/
theorem farStep_positions : farStep.step ≠ some 0 ∧ wordLimit - 1 < wordLimit ∧
    farStep.positions (wordLimit - 1) = .ok [1] := by
  have hstep : farStep.step ≠ some 0 := by decide
  have hsize : wordLimit - 1 < wordLimit := by decide
  obtain ⟨positions, hpositions, hlists, -, -⟩ :=
    positions_lists farStep (wordLimit - 1) hstep hsize
  refine ⟨hstep, hsize, ?_⟩
  have hone : Lists 1 (wordLimit - 1) farStep.stride [1] :=
    Lists.cons (by decide) ((Progression.lists_iff_nil (by decide)).2 rfl)
  have hentries : positions.map Int.ofNat = [1].map Int.ofNat := hlists.unique hone
  rw [hpositions, List.map_injective_iff.2 Int.ofNat_injective hentries]

end Slice

end GuardedTrace
