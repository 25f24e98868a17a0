/-
Values whose guards hold.

A symbolic value is *sound* on a frame when its guards hold there, and a value that a trace cannot
look into is the one that stands at the place it is named for.  Derived values inherit soundness,
and what a trace wraps from the frame is sound: the path under which a value is wrapped leads back
to it.
-/
import GuardedTrace.Proofs.InheritedProperties

namespace GuardedTrace

namespace Frame

/-- Reachable sequences are shorter than a word can count, as all sequences in memory are: a trace
writes their positions into paths, and a path is read back with positions that are words. -/
def ShortSequences (frame : Frame) : Prop :=
  ∀ items, frame.Reaches (.list items) ∨ frame.Reaches (.tuple items) → items.length < wordLimit

end Frame

namespace Symbolic

variable {frame : Frame} {value : Symbolic}

/-- A value that the trace cannot look into is the one that stands at the place it is named for. -/
def StandsIn (frame : Frame) (value : Symbolic) : Prop :=
  ∀ held type, value.kind = .unsupported held type → ∀ base scope,
    TraceM.nameAndScope? value = some (base, scope) → frame.resolve scope base = .ok held

/-- The guards of a value hold, and the value stands where it says. -/
def Sound (frame : Frame) (value : Symbolic) : Prop :=
  (∀ guard ∈ value.guards, guard.Holds frame) ∧ value.StandsIn frame

/-- Derived values have the guards of their operands and no place of their own. -/
lemma inherited_sound (frame : Frame) :
    Inherited (fun guards => ∀ guard ∈ guards, guard.Holds frame) (Sound frame) where
  empty := nofun
  union hguards hothers guard hguard :=
    (GuardSet.mem_union.1 hguard).elim (hguards guard) (hothers guard)
  guards h := h.1
  bare _ := ⟨nofun, nofun⟩
  joined h hadded := ⟨fun guard hguard => (GuardSet.mem_union.1 hguard).elim
    (h.1 guard) (hadded guard), h.2⟩
  unnamed h := ⟨h.1, nofun⟩

end Symbolic

/-! ### Wrapped values -/

section

variable {frame : Frame} {scope : Scope} {path : String}

/-- A guard holds when the value at its place passes its check. -/
lemma Guard.holds_of_resolve {check : Check} {value : Value}
    (hplace : frame.resolve scope path = .ok value)
    (hpasses : check.mismatch? value = none) : Guard.Holds ⟨path, scope, check⟩ frame := by
  simp [Holds, rejection?, hplace, hpasses]

lemma Guard.holds_of_unbound {name : String} (hname : Text.isIdentifier name.toList = true)
    (h : frame.lookup? scope name = none) : Guard.Holds ⟨name, scope, .unbound⟩ frame := by
  simp [Holds, rejection?, Frame.resolve, Path.read_identifier hname, Except.bind, Path.resolve, h]

/-- A sound value is sound under the path that leads to what passes its check. -/
lemma Symbolic.Sound.boundTo {value : Symbolic} {live : Value} {check : Check}
    (h : value.Sound frame)
    (hlocal : value.localName = none) (hplace : frame.resolve scope path = .ok live)
    (hpasses : check.mismatch? live = none)
    (hheld : ∀ held type, value.kind = .unsupported held type → live = held) :
    (value.boundTo path scope check).Sound frame := by
  refine ⟨fun guard hguard => ?_, fun held type hkind base other hbase => ?_⟩
  · rcases mem_boundTo.1 hguard with hguard | rfl
    · exact h.1 guard hguard
    · exact Guard.holds_of_resolve hplace hpasses
  · rw [kind_boundTo] at hkind
    have hsame : base = path ∧ other = scope := by
      cases scope with
      | locals =>
        cases hbase
        exact ⟨rfl, rfl⟩
      | globals =>
        -- a name among the locals would come first
        have hnone : (value.boundTo path .globals check).localName = none := hlocal
        simp only [TraceM.nameAndScope?, hnone] at hbase
        cases hbase
        exact ⟨rfl, rfl⟩
    obtain ⟨rfl, rfl⟩ := hsame
    exact hheld held type hkind ▸ hplace

/-- What is wrapped from the frame is sound, because every path that is written leads to what is
wrapped. -/
lemma binds_sound {code : Code} {config : Config}
    (hvarNames : ∀ name ∈ code.varNames, Text.isIdentifier name.toList = true)
    (hnames : ∀ name ∈ code.names, Text.isIdentifier name.toList = true)
    (hregular : frame.Regular) (hshort : frame.ShortSequences) :
    Binds ⟨code, frame, config⟩ (Symbolic.Sound frame)
      fun scope path live => frame.resolve scope path = .ok live where
  root hname hlive :=
    (Frame.resolve_identifier (hname.elim (hvarNames _) (hnames _))).2 hlive
  item hplace hitem :=
    Frame.resolve_item hplace
      (hshort _ (hplace.symm.imp Frame.reaches_of_resolve Frame.reaches_of_resolve)) hitem
  -- a key without a closing bracket is read back from the path of its entry
  entry hplace hitem := hregular.resolve_entry hplace hitem
  -- the attribute is read from the value at the place, which is the held value
  attr hvalue hkind hbase hname hlive :=
    (Frame.resolve_attr (hnames _ hname) (hvalue.2 _ _ hkind _ _ hbase)).2 hlive
  bound hvalue hlocal hplace hpasses hheld := hvalue.boundTo hlocal hplace hpasses hheld
  builtin {name function} hname hlookup := by
    refine ⟨fun guard hguard => ?_, nofun⟩
    -- the one guard of a builtin says that no binding hides it
    obtain rfl : guard = ⟨name, .globals, .unbound⟩ :=
      (GuardSet.mem_insert.1 hguard).resolve_left nofun
    exact Guard.holds_of_unbound (hnames _ hname) hlookup

end

end GuardedTrace
