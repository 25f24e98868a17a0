/-
Ranges of integers.

The length of a range is the way from start to stop, divided by the step and rounded up.  A member
of the progression comes before the stop exactly when its number is below that length
(`before_iff_lt_rangeLength`); no length is held at the greatest size, since the way between two
words is a size.  All members before the stop lie between two words, so that each of them is a word
(`exists_word_of_before`).
-/
import GuardedTrace.Proofs.Progressions
import GuardedTrace.Proofs.Results
import GuardedTrace.Value.Call

namespace GuardedTrace.Builtin

open Progression (Before Lists)

/-- What the arguments of a range stand for. -/
inductive RangeBounds : List Value → Int64 → Int64 → Int64 → Prop
  | stop (stop : Int64) : RangeBounds [.int stop] 0 stop 1
  | startStop (start stop : Int64) : RangeBounds [.int start, .int stop] start stop 1
  | startStopStep (start stop step : Int64) :
      RangeBounds [.int start, .int stop, .int step] start stop step

variable {args : List Value} {start stop step : Int64}

/-! ### Lengths -/

/-- A way is gone in steps: the steps that start before its end are as many as it has, rounded
up. -/
lemma lt_roundedUp_iff {way stride k : Int} (hstride : 0 < stride) :
    k < (way + stride - 1) / stride ↔ k * stride < way := by
  rw [← Int.add_one_le_iff, Int.le_ediv_iff_mul_le hstride, add_mul, one_mul]
  omega

/-- The steps of a way are no more than its length. -/
lemma roundedUp_le {way stride : Int} (hway : 0 < way) (hstride : 0 < stride) :
    (way + stride - 1) / stride ≤ way := by
  by_contra hgt
  have hstarts := (lt_roundedUp_iff hstride).1 (lt_of_not_ge hgt)
  have hlonger : way * 1 ≤ way * stride := mul_le_mul_of_nonneg_left (by omega) (by omega)
  omega

/-- The way from the start to the stop, in the direction of the step. -/
def way (start stop step : Int) : Int := if 0 < step then stop - start else start - stop

/-- A member comes before the stop when its steps do not use up the way. -/
lemma before_iff_lt_way (start stop step : Int) (k : ℕ) :
    Before step stop (start + k * step) ↔ k * (step.natAbs : Int) < way start stop step := by
  unfold Before way
  split
  · next hpos =>
    have habs : (step.natAbs : Int) = step := by omega
    rw [habs]
    omega
  · next hnonpos =>
    have habs : (step.natAbs : Int) = -step := by omega
    rw [habs, mul_neg]
    omega

/-- The way between two words is a size. -/
lemma way_le_maxSize (start stop : Int64) (step : Int) :
    way start.toInt stop.toInt step ≤ maxSize := by
  have hstart := start.le_toInt
  have hstart' := start.toInt_lt
  have hstop := stop.le_toInt
  have hstop' := stop.toInt_lt
  unfold way maxSize
  split <;> omega

lemma rangeLength_eq (start stop step : Int64) :
    rangeLength start stop step =
      let steps := (way start.toInt stop.toInt step.toInt + step.toInt.natAbs - 1) /
        (step.toInt.natAbs : Int)
      if way start.toInt stop.toInt step.toInt ≤ 0 then 0
      else if steps ≤ maxSize then steps.toNat else maxSize := rfl

/-- A member belongs to a range when its steps do not use up the way. -/
lemma lt_rangeLength_iff (start stop : Int64) (hstep : step ≠ 0) (k : ℕ) :
    k < rangeLength start stop step ↔
      k * (step.toInt.natAbs : Int) < way start.toInt stop.toInt step.toInt := by
  have hpositive : 0 < (step.toInt.natAbs : Int) := by
    have hstep' := toInt_ne_zero hstep
    omega
  have hsize := way_le_maxSize start stop step.toInt
  simp only [rangeLength_eq]
  split
  · next hnone =>
    have hforward : 0 ≤ (k : Int) * (step.toInt.natAbs : Int) := mul_nonneg (by omega) (by omega)
    omega
  · next hsome =>
    have hsteps := roundedUp_le (not_le.1 hsome) hpositive
    rw [if_pos (hsteps.trans hsize), ← lt_roundedUp_iff hpositive]
    omega

/-- The length of a range tells which members come before the stop. -/
lemma before_iff_lt_rangeLength (start stop : Int64) (hstep : step ≠ 0) (k : ℕ) :
    Before step.toInt stop.toInt (start.toInt + k * step.toInt) ↔ k < rangeLength start stop step :=
  (before_iff_lt_way _ _ _ k).trans (lt_rangeLength_iff start stop hstep k).symm

/-- The length of a range is the number of its members. -/
lemma rangeLength_eq_ncard (hstep : step ≠ 0) :
    rangeLength start stop step = (Progression.run start.toInt stop.toInt step.toInt).ncard :=
  (Progression.ncard_run (toInt_ne_zero hstep) (before_iff_lt_rangeLength start stop hstep)).symm

/-! ### Members -/

/-- What comes before the stop lies between two words. -/
lemma exists_word_of_before {k : ℕ}
    (h : Before step.toInt stop.toInt (start.toInt + k * step.toInt)) :
    ∃ word : Int64, word.toInt = start.toInt + k * step.toInt := by
  have hstart := start.le_toInt
  have hstart' := start.toInt_lt
  have hstop := stop.le_toInt
  have hstop' := stop.toInt_lt
  have hbetween := h.between
  refine exists_toInt_eq ?_ ?_
  · unfold wordLimit
    omega
  · unfold wordLimit
    omega

lemma rangeItem_toInt (word : Int64) : rangeItem word.toInt = .ok (.int word) := by
  rw [rangeItem, narrow_toInt]

/-- Integers that are words are the items of a list. -/
lemma exists_mapM_rangeItem {items : List Int}
    (h : ∀ item ∈ items, ∃ word : Int64, word.toInt = item) :
    ∃ words : List Int64, items.mapM rangeItem = .ok (words.map .int) ∧
      words.map Int64.toInt = items := by
  induction items with
  | nil => exact ⟨[], rfl, rfl⟩
  | cons item rest ih =>
    obtain ⟨⟨word, rfl⟩, hrest⟩ := List.forall_mem_cons.1 h
    obtain ⟨words, hwords, rfl⟩ := ih hrest
    refine ⟨word :: words, ?_, rfl⟩
    rw [List.mapM_cons, rangeItem_toInt, hwords]
    rfl

/-- A range that is short enough lists its members. -/
lemma exists_rangeOf (hstep : step ≠ 0) (hshort : rangeLength start stop step ≤ maxRangeLength) :
    ∃ words : List Int64, rangeOf start stop step = .ok (.list (words.map .int)) ∧
      Lists start.toInt stop.toInt step.toInt (words.map Int64.toInt) := by
  have hlists := Progression.lists_members (before_iff_lt_rangeLength start stop hstep)
  obtain ⟨words, hwords, hmembers⟩ := exists_mapM_rangeItem fun item hitem => by
    obtain ⟨k, rfl, hbefore⟩ := hlists.mem_iff.1 hitem
    exact exists_word_of_before hbefore
  refine ⟨words, ?_, hmembers ▸ hlists⟩
  simp only [rangeOf]
  rw [if_neg hstep, if_neg (Nat.not_lt.2 hshort), hwords]
  rfl

/-- A range that is too long is refused before anything is listed. -/
lemma rangeOf_too_long (hstep : step ≠ 0) (hlong : maxRangeLength < rangeLength start stop step) :
    rangeOf start stop step =
      .error (.overflow (.rangeLength (rangeLength start stop step) maxRangeLength)) := by
  simp only [rangeOf]
  rw [if_neg hstep, if_pos hlong]

/-! ### Calls -/

lemma call_range (h : RangeBounds args start stop step) :
    Builtin.range.call args = rangeOf start stop step := by
  cases h <;> rfl

/-- No member of a range is too great for a word. -/
lemma rangeOf_ne_rangeItem : rangeOf start stop step ≠ .error (.overflow .rangeItem) := by
  intro h
  by_cases hstep : step = 0
  · rw [rangeOf, if_pos hstep] at h
    exact nomatch h
  rcases Nat.lt_or_ge maxRangeLength (rangeLength start stop step) with hlong | hshort
  · rw [rangeOf_too_long hstep hlong] at h
    exact nomatch h
  · obtain ⟨words, hwords, -⟩ := exists_rangeOf hstep hshort
    exact nomatch hwords.symm.trans h

lemma rangeBound_ne_rangeItem {value : Value} :
    rangeBound value ≠ .error (.overflow .rangeItem) := by
  intro h
  unfold rangeBound at h
  split at h <;> exact nomatch h

lemma call_ne_rangeItem (args : List Value) :
    Builtin.range.call args ≠ .error (.overflow .rangeItem) := by
  intro h
  change (if 1 ≤ args.length ∧ args.length ≤ 3 then _ else _) = _ at h
  split at h
  · cases hwords : args.mapM rangeBound with
    | error error =>
      rw [hwords] at h
      obtain rfl := Except.error.inj h
      obtain ⟨value, -, hvalue⟩ := exists_of_mapM_eq_error hwords
      exact rangeBound_ne_rangeItem hvalue
    | ok words =>
      rw [hwords, ok_bind] at h
      unfold range? at h
      split at h
      · exact rangeOf_ne_rangeItem h
      · exact rangeOf_ne_rangeItem h
      · exact rangeOf_ne_rangeItem h
      · exact nomatch h
  · exact nomatch h

/-- **A range is exact.**  Its length is the number of the integers from the start by the step that
come strictly before the stop, for all words.  A range that is not too long lists just these
integers in their order, and a longer one is refused with its length; no call fails for the sake of
a single member. -/
theorem range_exact :
    (∀ args start stop step, RangeBounds args start stop step → step ≠ 0 →
      let members := Progression.run start.toInt stop.toInt step.toInt
      members.Finite ∧ rangeLength start stop step = members.ncard ∧
        (members.ncard ≤ maxRangeLength → ∃ words : List Int64,
          Builtin.range.call args = .ok (.list (words.map .int)) ∧
            Lists start.toInt stop.toInt step.toInt (words.map Int64.toInt)) ∧
        (maxRangeLength < members.ncard → Builtin.range.call args =
          .error (.overflow (.rangeLength members.ncard maxRangeLength)))) ∧
      ∀ args, Builtin.range.call args ≠ .error (.overflow .rangeItem) := by
  refine ⟨fun args start stop step hbounds hstep => ?_, call_ne_rangeItem⟩
  intro members
  have hlength : rangeLength start stop step = members.ncard := rangeLength_eq_ncard hstep
  have hlists := Progression.lists_members (before_iff_lt_rangeLength start stop hstep)
  refine ⟨?_, hlength, fun hshort => ?_, fun hlong => ?_⟩
  · exact (List.finite_toSet _).subset fun x hx => hlists.mem_iff.2 hx
  · rw [call_range hbounds]
    exact exists_rangeOf hstep (hlength ▸ hshort)
  · rw [call_range hbounds, ← hlength]
    exact rangeOf_too_long hstep (hlength ▸ hlong)

/-- The last word alone, in a step that leads past the words; and all words but the last, which are
too many. -/
theorem edgeRanges_exact :
    RangeBounds [.int (Int64.maxValue - 1), .int Int64.maxValue, .int 5]
      (Int64.maxValue - 1) Int64.maxValue 5 ∧
      Builtin.range.call [.int (Int64.maxValue - 1), .int Int64.maxValue, .int 5] =
        .ok (.list [.int (Int64.maxValue - 1)]) ∧
      RangeBounds [.int Int64.minValue, .int Int64.maxValue] Int64.minValue Int64.maxValue 1 ∧
      Builtin.range.call [.int Int64.minValue, .int Int64.maxValue] =
        .error (.overflow (.rangeLength maxSize maxRangeLength)) := by
  obtain ⟨hexact, -⟩ := range_exact
  have hshort := RangeBounds.startStopStep (Int64.maxValue - 1) Int64.maxValue 5
  have hlong := RangeBounds.startStop Int64.minValue Int64.maxValue
  obtain ⟨-, hone, hlisted, -⟩ := hexact _ _ _ _ hshort (by decide)
  obtain ⟨-, hmany, -, hrefused⟩ := hexact _ _ _ _ hlong (by decide)
  have hone' : rangeLength (Int64.maxValue - 1) Int64.maxValue 5 = 1 := by decide
  have hmany' : rangeLength Int64.minValue Int64.maxValue 1 = maxSize := by decide
  rw [← hone, hone'] at hlisted
  rw [← hmany, hmany'] at hrefused
  refine ⟨hshort, ?_, hlong, hrefused (by decide)⟩
  obtain ⟨words, hwords, hlists⟩ := hlisted (by decide)
  have hitems : Lists (Int64.maxValue - 1).toInt Int64.maxValue.toInt (5 : Int64).toInt
      ([Int64.maxValue - 1].map Int64.toInt) :=
    Lists.cons (by decide) ((Progression.lists_iff_nil (by decide)).2 rfl)
  have hinjective : Function.Injective Int64.toInt := fun a b hab => Int64.toInt_inj.1 hab
  rw [hwords, List.map_injective_iff.2 hinjective (hlists.unique hitems)]
  rfl

end GuardedTrace.Builtin
