/-
Guards: preconditions on the bindings of a frame.

A guard names a place in a frame and a check on the value found there.  Guards are kept in *guard
sets*, lists without repetition in the order of guards, so two sets with the same members are
equal whatever order the guards were found in.
-/
import GuardedTrace.Guard.Check
import GuardedTrace.Path

namespace GuardedTrace

/-- A precondition on a binding. -/
structure Guard where
  /-- The written path of the binding. -/
  name : String
  scope : Scope
  check : Check
deriving DecidableEq

/-- Why a guard does not hold. -/
inductive Rejection where
  | path (error : PathError)
  | mismatch (difference : Mismatch)
deriving DecidableEq

def Rejection.message : Rejection → String
  | path error => error.message
  | mismatch difference => difference.message

namespace Guard

/-- A guard as it is written. -/
def written (guard : Guard) : String :=
  guard.scope.written ++ " '" ++ guard.name ++ "' " ++ guard.check.written

/-- The order of guards: by name, then scope, then check. -/
def cmp (a b : Guard) : Ordering :=
  ((compare a.name b.name).then (compare a.scope.rank b.scope.rank)).then (a.check.cmp b.check)

/-- Why a guard does not hold on a frame; nothing when it holds.  A binding that is missing fails
every check except the one that asks for it to be missing. -/
def rejection? (guard : Guard) (frame : Frame) : Option Rejection :=
  match frame.resolve guard.scope guard.name with
  | .ok value => (guard.check.mismatch? value).map .mismatch
  | .error (.unbound name) =>
    if guard.check = .unbound then none else some (.path (.unbound name))
  | .error error => some (.path error)

/-- The guard holds on the frame. -/
def Holds (guard : Guard) (frame : Frame) : Prop := guard.rejection? frame = none

instance (guard : Guard) (frame : Frame) : Decidable (guard.Holds frame) :=
  inferInstanceAs (Decidable (_ = _))

end Guard

/-- A set of guards, in increasing order. -/
abbrev GuardSet : Type := List Guard

/-- A guard that does not hold, with the reason. -/
structure GuardFailure where
  guard : Guard
  reason : Rejection
deriving DecidableEq

def GuardFailure.message (failure : GuardFailure) : String :=
  "guard " ++ failure.guard.written ++ " failed: " ++ failure.reason.message

namespace GuardSet

/-- Drops every guard that equals the one before it. -/
def dropRepeats : List Guard → GuardSet
  | [] => []
  | [guard] => [guard]
  | guard :: next :: rest =>
    if guard = next then dropRepeats (next :: rest) else guard :: dropRepeats (next :: rest)

/-- Merges a guard and the guards behind it with a list.  `mergeRest` merges the guards behind it
with what is left of the list. -/
def mergeFrom (guard : Guard) (rest : List Guard) (mergeRest : List Guard → List Guard) :
    List Guard → List Guard
  | [] => guard :: rest
  | other :: others =>
    if guard.cmp other != .gt then guard :: mergeRest (other :: others)
    else other :: mergeFrom guard rest mergeRest others

/-- Merges two lists that are in order. -/
def merge : List Guard → List Guard → List Guard
  | [], others => others
  | guard :: rest, others => mergeFrom guard rest (merge rest) others

/-- All guards of two sets.  Both are in order, so the union is their merge. -/
def union (guards others : GuardSet) : GuardSet := dropRepeats (merge guards others)

/-- Adds a guard, unless it is there. -/
def insert (guards : GuardSet) (guard : Guard) : GuardSet := union guards [guard]

/-- The guards of a list, as a set. -/
def ofList (guards : List Guard) : GuardSet := guards.foldl insert []

/-- The first guard of a set that does not hold on a frame; nothing when all hold. -/
def failure? (guards : GuardSet) (frame : Frame) : Option GuardFailure :=
  guards.findSome? fun guard => (guard.rejection? frame).map fun reason => ⟨guard, reason⟩

/-! ## Members -/

theorem mem_dropRepeats {guard : Guard} (guards : List Guard) :
    guard ∈ dropRepeats guards ↔ guard ∈ guards := by
  induction guards with
  | nil => simp [dropRepeats]
  | cons first rest ih =>
    cases rest with
    | nil => simp [dropRepeats]
    | cons second rest =>
      unfold dropRepeats
      split
      · next h => simp [ih, h]
      · rw [List.mem_cons, ih, ← List.mem_cons]

theorem mem_merge {guard : Guard} (guards others : List Guard) :
    guard ∈ merge guards others ↔ guard ∈ guards ∨ guard ∈ others := by
  induction guards generalizing others with
  | nil => simp [merge]
  | cons first rest ih =>
    induction others with
    | nil => simp [merge, mergeFrom]
    | cons other others ih' =>
      simp only [merge, mergeFrom] at ih' ⊢
      split
      · simp only [List.mem_cons, ih, or_assoc]
      · simp only [List.mem_cons, ih', or_left_comm]

theorem mem_union {guards others : GuardSet} {guard : Guard} :
    guard ∈ guards.union others ↔ guard ∈ guards ∨ guard ∈ others := by
  rw [union, mem_dropRepeats, mem_merge]

theorem mem_insert {guards : GuardSet} {guard other : Guard} :
    other ∈ guards.insert guard ↔ other ∈ guards ∨ other = guard := by
  rw [insert, mem_union, List.mem_singleton]

/-- A set fails nowhere exactly when each of its guards holds. -/
theorem failure?_eq_none_iff {guards : GuardSet} {frame : Frame} :
    guards.failure? frame = none ↔ ∀ guard ∈ guards, guard.Holds frame := by
  simp [failure?, Guard.Holds]

end GuardSet

end GuardedTrace
