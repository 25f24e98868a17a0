/-
Arithmetic progressions of integers.
-/

namespace GuardedTrace.Progression

/-- The first `count` members of the progression from `start` by `step`. -/
def members (start step : Int) (count : Nat) : List Int :=
  (List.range count).map fun (i : Nat) => start + i * step

end GuardedTrace.Progression
