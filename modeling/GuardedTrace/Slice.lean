/-
Slices: three optional bounds, and the positions they select.

A slice `start:stop:step` of a sequence of `n` elements selects `start', start' + step, …` strictly
before `stop'`, where the adjusted bounds `start'` and `stop'` come from the written ones by
counting negative bounds from the end and clamping to `[0, n]` for a positive step and to
`[-1, n - 1]` for a negative one (`Slice.adjusted`).  Bounds and cursor are words throughout, and
their sums are held at the ends of the words; the cursor comes nearer to the stop all the same, so
that the walk ends (`Slice.distance_saturatingAdd_lt`).
-/
import GuardedTrace.Error

namespace GuardedTrace

/-- A slice with its written bounds. -/
structure Slice where
  start : Option Int64
  stop : Option Int64
  step : Option Int64
deriving DecidableEq

namespace Slice

/-- The order of optional words: an absent one first. -/
def cmpBound : Option Int64 → Option Int64 → Ordering
  | none, none => .eq
  | none, some _ => .lt
  | some _, none => .gt
  | some a, some b => compare a.toInt b.toInt

/-- The order of slices: by start, then stop, then step. -/
def cmp (a b : Slice) : Ordering :=
  ((cmpBound a.start b.start).then (cmpBound a.stop b.stop)).then (cmpBound a.step b.step)

/-- A bound counted from the end when it is negative, and held between two limits. -/
def adjust (size low high bound : Int64) : Int64 :=
  let counted := if bound < 0 then saturatingAdd bound size else bound
  max low (min high counted)

/-- The adjusted start and stop for a sequence of `size` elements and a step that is not zero. -/
def adjusted (slice : Slice) (size step : Int64) : Int64 × Int64 :=
  let last := saturatingAdd size (-1)
  if 0 < step then
    ((slice.start.map (adjust size 0 size)).getD 0, (slice.stop.map (adjust size 0 size)).getD size)
  else
    ((slice.start.map (adjust size (-1) last)).getD last,
      (slice.stop.map (adjust size (-1) last)).getD (-1))

/-- Whether a cursor comes strictly before a stop, in the direction of the step. -/
def Ahead (step stop cursor : Int64) : Prop := 0 < step ∧ cursor < stop ∨ step < 0 ∧ stop < cursor

instance (step stop cursor : Int64) : Decidable (Ahead step stop cursor) :=
  inferInstanceAs (Decidable (_ ∨ _))

theorem ahead_iff {step stop cursor : Int64} :
    Ahead step stop cursor ↔
      0 < step.toInt ∧ cursor.toInt < stop.toInt ∨ step.toInt < 0 ∧ stop.toInt < cursor.toInt := by
  simp only [Ahead, Int64.lt_iff_toInt_lt, Int64.toInt_zero]

/-- How far a cursor has to go. -/
def distance (step stop cursor : Int64) : Nat :=
  if 0 < step.toInt then (stop.toInt - cursor.toInt).toNat else (cursor.toInt - stop.toInt).toNat

/-- Every step shortens the way, also one that is held at the end of the words. -/
theorem distance_saturatingAdd_lt {step stop cursor : Int64} (h : Ahead step stop cursor) :
    distance step stop (saturatingAdd cursor step) < distance step stop cursor := by
  have hnext := toInt_saturatingAdd cursor step
  have hupper := stop.toInt_lt
  have hlower := stop.le_toInt
  rw [ahead_iff] at h
  unfold distance
  unfold wordLimit at hnext
  split <;> omega

/-- The positions from a cursor by a step strictly before a stop, behind those that are `taken`.  A
cursor below zero is no position. -/
def walk (step stop cursor : Int64) (taken : List Nat) : List Nat :=
  if Ahead step stop cursor then
    walk step stop (saturatingAdd cursor step)
      (if cursor < 0 then taken else cursor.toInt.toNat :: taken)
  else taken.reverse
termination_by distance step stop cursor
decreasing_by exact distance_saturatingAdd_lt ‹_›

/-- The positions that a slice selects from a sequence of `size` elements. -/
def positions (slice : Slice) (size : Nat) : Run (List Nat) :=
  let step := slice.step.getD 1
  if step = 0 then .error (.value .sliceStepZero)
  else
    match narrow size with
    | some size =>
      let bounds := slice.adjusted size step
      .ok (walk step bounds.2 bounds.1 [])
    | none => .error (.overflow .sequence)

/-- The elements at the given positions; positions outside the list are skipped. -/
def pick {α : Type} (items : List α) (positions : List Nat) : List α :=
  positions.filterMap fun position => items[position]?

end Slice

end GuardedTrace
