/-
Values nested in symbolic values.

A property holds *throughout* a symbolic value when it holds of the value itself and of all values
nested in it, to any depth: items, entries, the holder of an attribute, the receiver of a method and
the payload of a deferred constant.
-/
import Mathlib.Tactic
import GuardedTrace.Symbolic.Basic

namespace GuardedTrace.Symbolic

mutual

/-- The property holds of the value and of all values nested in it. -/
def Throughout (P : Symbolic → Prop) : Symbolic → Prop
  | ⟨kind, support, guards, localName, globalName⟩ =>
    P ⟨kind, support, guards, localName, globalName⟩ ∧ ThroughoutKind P kind
termination_by structural value => value

def ThroughoutKind (P : Symbolic → Prop) : Kind → Prop
  | .deferred payload => Throughout P payload
  | .iterator items _ => ThroughoutItems P items
  | .attr holder _ => Throughout P holder
  | .sequence _ items => ThroughoutItems P items
  | .dict entries => ThroughoutEntries P entries
  | .method _ receiver => Throughout P receiver
  | .array _ | .scalar _ | .layer .. | .constant _ | .builtin _ | .routine _ | .host _ | .library _
  | .unsupported .. | .unknown _ => True
termination_by structural kind => kind

def ThroughoutItems (P : Symbolic → Prop) : List Symbolic → Prop
  | [] => True
  | item :: rest => Throughout P item ∧ ThroughoutItems P rest
termination_by structural items => items

def ThroughoutEntries (P : Symbolic → Prop) : List (Key × Symbolic) → Prop
  | [] => True
  | (_, item) :: rest => Throughout P item ∧ ThroughoutEntries P rest
termination_by structural entries => entries

end

variable {P : Symbolic → Prop} {value : Symbolic} {items : List Symbolic}

lemma throughout_iff : value.Throughout P ↔ P value ∧ ThroughoutKind P value.kind := by
  cases value
  rfl

lemma Throughout.self (h : value.Throughout P) : P value := (throughout_iff.1 h).1

lemma Throughout.parts (h : value.Throughout P) : ThroughoutKind P value.kind :=
  (throughout_iff.1 h).2

lemma throughoutItems_iff : ThroughoutItems P items ↔ ∀ item ∈ items, item.Throughout P := by
  induction items with
  | nil => simp [ThroughoutItems]
  | cons item rest ih => simp [ThroughoutItems, ih]

lemma throughoutEntries_iff {entries : List (Key × Symbolic)} :
    ThroughoutEntries P entries ↔ ∀ entry ∈ entries, entry.2.Throughout P := by
  induction entries with
  | nil => simp [ThroughoutEntries]
  | cons entry rest ih => simp [ThroughoutEntries, ih]

end GuardedTrace.Symbolic
