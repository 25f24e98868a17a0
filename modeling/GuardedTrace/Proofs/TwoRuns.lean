/-
Guards determine the trace.

A trace is compared with a trace of the same program on another frame.  The states of the two are
related by moving: the first state is the one moved to the first frame, the second one is the same
state moved to the second frame.  Parts that do not look at the frame keep this relation by
themselves.  Where the trace takes something from the frame, the guards of what it took say enough
about the other frame for it to take the same there, up to the values that it cannot look into.

So a trace whose guards hold on another frame, with sequences of the same kinds in the two, gives
the same output there.
-/
import Mathlib.Tactic
import GuardedTrace.Proofs.PlainFrames
import GuardedTrace.Proofs.Transport
import GuardedTrace.Proofs.WrapGuards

namespace GuardedTrace

open Symbolic (moved movedKind movedItems_eq_map placeOf?)

/-- The guard holds on the other frame, and a sequence at its place is of the same kind in both. -/
structure Guard.Agrees (frame other : Frame) (guard : Guard) : Prop where
  holds : guard.Holds other
  kinds : ∀ length, guard.check = .lengthMatch length →
    frame.SameKind other guard.scope guard.name

/-- What stands at the place of a guard passes its check. -/
lemma Guard.Agrees.passes {frame other : Frame} {path : String} {scope : Scope} {check : Check}
    {value : Value} (h : Guard.Agrees frame other ⟨path, scope, check⟩) (hcheck : check ≠ .unbound)
    (hvalue : other.resolve scope path = .ok value) : check.mismatch? value = none :=
  h.holds.passes hcheck hvalue

namespace Symbolic

variable {frame : Frame} {value : Symbolic} {path : String} {scope : Scope} {check : Check}

/-! ### Guards of bound values -/

@[simp] lemma kind_boundTo : (value.boundTo path scope check).kind = value.kind := by
  cases scope <;> rfl

lemma moved_boundTo (hlocal : value.localName = none) (hglobal : value.globalName = none) :
    (value.boundTo path scope check).moved frame =
      ({ value with kind := movedKind frame (some (path, scope)) value.kind }).boundTo path scope
        check := by
  obtain ⟨kind, support, guards, localName, globalName⟩ := value
  obtain rfl : localName = none := hlocal
  obtain rfl : globalName = none := hglobal
  cases scope <;> rfl

/-- A value of which the trace knows all that it keeps is moved and bound in either order. -/
lemma moved_boundTo_of_known (hlocal : value.localName = none) (hglobal : value.globalName = none)
    (hkind : ∀ sealedValue type, value.kind ≠ .unsupported sealedValue type) :
    (value.boundTo path scope check).moved frame =
      (value.moved frame).boundTo path scope check := by
  rw [moved_boundTo hlocal hglobal]
  obtain ⟨kind, support, guards, localName, globalName⟩ := value
  cases kind with
  | unsupported value type => exact absurd rfl (hkind value type)
  | _ => rfl

lemma moved_ofKind_boundTo {kind : Kind} (hkind : ∀ place, movedKind frame place kind = kind) :
    ((ofKind kind).boundTo path scope check).moved frame =
      (ofKind kind).boundTo path scope check := by
  rw [moved_boundTo rfl rfl]
  simp only [ofKind, hkind]

lemma moved_sequence_boundTo (kind : SequenceKind) (items : List Symbolic) :
    ((sequence kind items).boundTo path scope check).moved frame =
      (sequence kind (items.map (moved frame))).boundTo path scope check := by
  rw [moved_boundTo_of_known rfl rfl (by simp [sequence, derived, inherit, ofKind]),
    moved_sequence]

lemma moved_dict_boundTo (entries : List (Key × Symbolic)) :
    ((derived (.dict entries) (Table.values entries)).boundTo path scope check).moved frame =
      (derived (.dict (movedEntries frame entries))
        (Table.values (movedEntries frame entries))).boundTo
        path scope check := by
  have hvalues : Table.values (movedEntries frame entries) =
      (Table.values entries).map (moved frame) := by
    simp [Table.values, movedEntries_eq_map]
  rw [moved_boundTo_of_known rfl rfl (by simp [derived, inherit, ofKind]), moved_derived, hvalues,
    derived_map_moved, movedKind]

end Symbolic

/-- What a trace learns of an array is what its guard asks for. -/
lemma ArrayFacts.ofArray_eq_of_spec {a b : NumArray} {dynamicShapes : Bool} {node : Nat}
    (h : ArraySpec.of b dynamicShapes = ArraySpec.of a dynamicShapes) :
    ofArray node b dynamicShapes = ofArray node a dynamicShapes := by
  simp only [ArraySpec.of, ArraySpec.mk.injEq] at h
  obtain ⟨htype, hdevice, hrank, hshape, hstrides⟩ := h
  simp only [ofArray, htype, hdevice, hrank, hshape, hstrides]

namespace TraceM

variable {frame other : Frame} {config : Config} {scope : Scope} {path : String}

/-! ### Wrapping -/

lemma Moves.placeholder : Moves frame id (placeholder path scope) (placeholder path scope) := by
  refine .bind (.record _ _) fun node => .bind (.modify fun state => ?_) fun _ => .pure rfl
  show (if _ ∈ state.inputs then _ else _) = Tracer.moved frame (if _ ∈ state.inputs then _ else _)
  by_cases hinput : (⟨path, scope⟩ : InputBinding) ∈ state.inputs
  · rw [if_pos hinput, if_pos hinput]
  · rw [if_neg hinput, if_neg hinput]
    rfl

/-- Wrapping a value that the trace cannot look into. -/
lemma wrap_eq_of_sealed {value : Value}
    (h : value.typeName = .method ∨ ∃ name, value.typeName = .object name) :
    wrap config scope value path =
      pure ((Symbolic.ofKind (.unsupported value value.typeName)).boundTo path scope
        (.typeMatch value.typeName)) := by
  cases value <;> simp [Value.typeName] at h <;> rfl

/-- Under guards that hold on the other frame, wrapping the first value gives its own copy in the
first frame, and wrapping the second one gives the copy in the other frame. -/
def WrapMoves (frame other : Frame) (config : Config) (scope : Scope) (path : String)
    (a b : Value) : Prop :=
  ∀ state value after, wrap config scope a path state = .ok (value, after) →
    (∀ guard ∈ value.guards, guard.Agrees frame other) →
    value.moved frame = value ∧
      wrap config scope b path (state.moved other) = .ok (value.moved other, after.moved other)

/-- The same for the items of two sequences. -/
def WrapItemsMove (frame other : Frame) (config : Config) (scope : Scope)
    (path : String) (position : Nat)
    (as bs : List Value) : Prop :=
  ∀ state values after, wrapItems config scope as path position state = .ok (values, after) →
    (∀ value ∈ values, ∀ guard ∈ value.guards, guard.Agrees frame other) →
    values.map (moved frame) = values ∧
      wrapItems config scope bs path position (state.moved other) =
        .ok (values.map (moved other), after.moved other)

/-- The same for the entries of two dictionaries. -/
def WrapEntriesMove (frame other : Frame) (config : Config) (scope : Scope) (path : String)
    (as bs : List (Key × Value)) : Prop :=
  ∀ state entries after, wrapEntries config scope as path state = .ok (entries, after) →
    (∀ value ∈ Table.values entries, ∀ guard ∈ value.guards, guard.Agrees frame other) →
    Symbolic.movedEntries frame entries = entries ∧
      wrapEntries config scope bs path (state.moved other) =
        .ok (Symbolic.movedEntries other entries, after.moved other)

section Leaves

variable {a b : Value}

/-- A value that its guard pins down wholly is wrapped in the same way in both frames. -/
lemma wrap_leaf {kind : Kind} {check : Check}
    (hwrap : wrap config scope a path = pure ((Symbolic.ofKind kind).boundTo path scope check))
    (hkind : ∀ frame place, movedKind frame place kind = kind) (hcheck : check ≠ .unbound)
    (hsame : check.mismatch? b = none → b = a) (hb : other.resolve scope path = .ok b) :
    WrapMoves frame other config scope path a b := by
  intro state value after h hguards
  rw [hwrap] at h
  cases pure_eq_ok.1 h
  have hguard := hguards _ (Symbolic.mem_boundTo.2 (Or.inr rfl))
  obtain rfl := hsame (hguard.passes hcheck hb)
  rw [hwrap, Symbolic.moved_ofKind_boundTo (hkind _), Symbolic.moved_ofKind_boundTo (hkind _)]
  exact ⟨rfl, rfl⟩

lemma wrap_literal (literal : Literal)
    (hwrap : wrap config scope (.ofLiteral literal) path = pure (wrapConstant literal path scope))
    (hb : other.resolve scope path = .ok b) :
    WrapMoves frame other config scope path (.ofLiteral literal) b :=
  wrap_leaf hwrap (fun _ _ => rfl) (by simp) Check.eq_of_constantMatch hb

/-- A number is pinned down wholly when numbers are specialised, and by its type otherwise. -/
lemma wrap_number {literal : Literal} {elementType : ElementType} {type : TypeName}
    (hwrap : wrap config scope (.ofLiteral literal) path =
      if config.specializeScalars then pure (wrapConstant literal path scope)
      else wrapScalar path scope elementType type)
    (htype : config.specializeScalars = false → ∀ c : Value, c.typeName = type →
      wrap config scope c path = wrapScalar path scope elementType type)
    (hb : other.resolve scope path = .ok b) :
    WrapMoves frame other config scope path (.ofLiteral literal) b := by
  cases hscalars : config.specializeScalars with
  | true => exact wrap_literal literal (hwrap.trans (if_pos hscalars)) hb
  | false =>
    intro state value after h hguards
    rw [hwrap, if_neg (by simp [hscalars])] at h
    have hguard := hguards _ (mem_guards_of_wrapScalar h)
    rw [htype hscalars b (Check.typeName_of_typeMatch (hguard.passes (by simp) hb))]
    obtain ⟨node, middle, hnode, hvalue⟩ := bind_eq_ok.1 h
    cases pure_eq_ok.1 hvalue
    have hmoves : placeholder path scope (state.moved other) = .ok (node, after.moved other) :=
      Moves.placeholder _ _ _ hnode
    refine ⟨Symbolic.moved_ofKind_boundTo fun _ => rfl, ?_⟩
    rw [Symbolic.moved_ofKind_boundTo fun _ => rfl]
    exact bind_eq_ok.2 ⟨node, _, hmoves, rfl⟩

/-- An array is described by its guard as far as the trace knows it. -/
lemma wrap_array {numbers : NumArray} (hb : other.resolve scope path = .ok b) :
    WrapMoves frame other config scope path (.array numbers) b := by
  intro state value after h hguards
  obtain ⟨node, middle, hnode, hvalue⟩ := bind_eq_ok.1 h
  cases pure_eq_ok.1 hvalue
  have hguard := hguards _ (Symbolic.mem_boundTo.2 (Or.inr rfl))
  obtain ⟨found, rfl, hfound⟩ := Check.exists_of_arrayMatch (hguard.passes (by simp) hb)
  have hspec := Check.facts_eq_of_arrayMatch hfound
  have hmoves : placeholder path scope (state.moved other) = .ok (node, after.moved other) :=
    Moves.placeholder _ _ _ hnode
  refine ⟨Symbolic.moved_ofKind_boundTo fun _ => rfl, ?_⟩
  rw [Symbolic.moved_ofKind_boundTo fun _ => rfl]
  refine bind_eq_ok.2 ⟨node, _, hmoves, ?_⟩
  rw [hspec, ArrayFacts.ofArray_eq_of_spec hspec]
  rfl

/-- A value that the trace cannot look into is exchanged for the one at the same place. -/
lemma wrap_sealed (hsealed : a.typeName = .method ∨ ∃ name, a.typeName = .object name)
    (ha : frame.resolve scope path = .ok a) (hb : other.resolve scope path = .ok b) :
    WrapMoves frame other config scope path a b := by
  intro state value after h hguards
  have hmoved : ∀ {frame : Frame} {c : Value} (type : TypeName) (check : Check),
      frame.resolve scope path = .ok c →
      ((Symbolic.ofKind (.unsupported a type)).boundTo path scope check).moved frame =
        (Symbolic.ofKind (.unsupported c type)).boundTo path scope check := by
    intro frame c type check hc
    rw [Symbolic.moved_boundTo rfl rfl]
    simp [Symbolic.ofKind, movedKind, Symbolic.movedValue, Frame.valueAt, hc, Kind.support]
  rw [wrap_eq_of_sealed hsealed] at h
  cases pure_eq_ok.1 h
  have hguard := hguards _ (Symbolic.mem_boundTo.2 (Or.inr rfl))
  have htype := Check.typeName_of_typeMatch (hguard.passes (by simp) hb)
  rw [hmoved _ _ ha, hmoved _ _ hb, wrap_eq_of_sealed (by rwa [htype]), htype]
  exact ⟨rfl, rfl⟩

end Leaves

section Containers

variable {a b : Value}

/-- Where the first item of a sequence can be read in the other frame, all items of both sequences
can be read at their places. -/
lemma resolve_items {as bs : List Value} (ha : a = .tuple as ∨ a = .list as)
    (hb : b = .tuple bs ∨ b = .list bs)
    (hplace : frame.resolve scope path = .ok a) (hplace' : other.resolve scope path = .ok b)
    (hlength : as.length = bs.length) {state after : Tracer} {wrapped : List Symbolic}
    (h : wrapItems config scope as path 0 state = .ok (wrapped, after))
    (hguards : ∀ value ∈ wrapped, ∀ guard ∈ value.guards, guard.Agrees frame other) :
    (∀ i a, as[i]? = some a →
      frame.resolve scope (path ++ "[" ++ Text.showNat (0 + i) ++ "]") = .ok a) ∧
    ∀ i b, bs[i]? = some b →
      other.resolve scope (path ++ "[" ++ Text.showNat (0 + i) ++ "]") = .ok b := by
  have hplaces := Frame.resolve_sequence ha hplace
  have hplaces' := Frame.resolve_sequence hb hplace'
  have hword : bs.length < wordLimit :=
    length_lt_of_wrapItems hplaces' hlength.symm h fun value hvalue guard hguard =>
      (hguards value hvalue guard hguard).holds
  constructor
  · intro i a hitem
    rw [Nat.zero_add]
    exact Frame.resolve_item hplaces (hlength ▸ hword) hitem
  · intro i b hitem
    rw [Nat.zero_add]
    exact Frame.resolve_item hplaces' hword hitem

/-- A sequence is wrapped to the same sequence when its items are: the guards on it say that the
other value is as long, and it is of the same kind. -/
lemma wrap_sequence {kind : SequenceKind} {make : List Value → Value} {items : List Value}
    (hmake : make = .tuple ∨ make = .list)
    (hwrap : ∀ items, wrap config scope (make items) path = (do
      let wrapped ← wrapItems config scope items path 0
      pure ((Symbolic.sequence kind wrapped).boundTo path scope (.lengthMatch items.length))))
    (ha : frame.resolve scope path = .ok (make items)) (hb : other.resolve scope path = .ok b)
    (hitems : ∀ found : List Value, items.length = found.length →
      (∀ i a, items[i]? = some a →
        frame.resolve scope (path ++ "[" ++ Text.showNat (0 + i) ++ "]") = .ok a) →
      (∀ i b, found[i]? = some b →
        other.resolve scope (path ++ "[" ++ Text.showNat (0 + i) ++ "]") = .ok b) →
      WrapItemsMove frame other config scope path 0 items found) :
    WrapMoves frame other config scope path (make items) b := by
  intro state value after h hguards
  rw [hwrap] at h
  obtain ⟨wrapped, middle, hwrapped, hvalue⟩ := bind_eq_ok.1 h
  cases pure_eq_ok.1 hvalue
  have hguard := hguards _ (Symbolic.mem_boundTo.2 (Or.inr rfl))
  have hinner : ∀ value ∈ wrapped, ∀ guard ∈ value.guards, guard.Agrees frame other :=
    fun value hvalue guard hmem => hguards guard
      (Symbolic.mem_boundTo.2 (Or.inl (Symbolic.mem_derived.2 ⟨value, hvalue, hmem⟩)))
  obtain ⟨found, hlength, hkind⟩ := Check.exists_of_lengthMatch (hguard.passes (by simp) hb)
  obtain rfl : b = make found := by
    rcases hmake with rfl | rfl
    · exact hkind.resolve_right fun hlist => (hguard.kinds _ rfl _ _).2 ha (hlist ▸ hb)
    · exact hkind.resolve_left fun htuple => (hguard.kinds _ rfl _ _).1 ha (htuple ▸ hb)
  have hsequence (items : List Value) : make items = .tuple items ∨ make items = .list items := by
    rcases hmake with rfl | rfl
    · exact Or.inl rfl
    · exact Or.inr rfl
  obtain ⟨has, hbs⟩ :=
    resolve_items (hsequence items) (hsequence found) ha hb hlength.symm hwrapped hinner
  obtain ⟨hfixed, hmoves⟩ := hitems found hlength.symm has hbs _ _ _ hwrapped hinner
  rw [Symbolic.moved_sequence_boundTo, Symbolic.moved_sequence_boundTo, hfixed]
  refine ⟨rfl, ?_⟩
  rw [hwrap]
  exact bind_eq_ok.2 ⟨_, _, hmoves, by rw [hlength]; rfl⟩

/-- A dictionary is wrapped to the same dictionary when its entries are: the guard on it says that
the other value has the same keys. -/
lemma wrap_dict {entries : List (Key × Value)} (hb : other.resolve scope path = .ok b)
    (hentries : ∀ found, b = .dict found → Table.keys entries = Table.keys found →
      WrapEntriesMove frame other config scope path entries found) :
    WrapMoves frame other config scope path (.dict entries) b := by
  intro state value after h hguards
  obtain ⟨wrapped, middle, hwrapped, hvalue⟩ := bind_eq_ok.1 h
  cases pure_eq_ok.1 hvalue
  have hguard := hguards _ (Symbolic.mem_boundTo.2 (Or.inr rfl))
  have hinner : ∀ value ∈ Table.values wrapped, ∀ guard ∈ value.guards, guard.Agrees frame other :=
    fun value hvalue guard hmem => hguards guard
      (Symbolic.mem_boundTo.2 (Or.inl (Symbolic.mem_derived.2 ⟨value, hvalue, hmem⟩)))
  obtain ⟨found, rfl, hkeys⟩ := Check.exists_of_keysMatch (hguard.passes (by simp) hb)
  obtain ⟨hfixed, hmoves⟩ := hentries found rfl hkeys.symm _ _ _ hwrapped hinner
  rw [Symbolic.moved_dict_boundTo, Symbolic.moved_dict_boundTo, hfixed]
  exact ⟨rfl, bind_eq_ok.2 ⟨_, _, hmoves, by rw [hkeys]; rfl⟩⟩

end Containers

mutual

/-- A value wrapped under guards that hold on the other frame is its own copy in the first frame,
and wrapping the value at the same place of the other frame gives its copy there. -/
lemma wrap_moves (hregular : frame.Regular) (hother : other.Regular)
    (hcoherent : frame.Coherent other) :
    ∀ (a b : Value) (path : String), frame.resolve scope path = .ok a →
      other.resolve scope path = .ok b →
      WrapMoves frame other config scope path a b
  | .array numbers, b, path, _, hb => wrap_array hb
  | .int n, b, path, _, hb => by
    refine @wrap_number _ _ _ _ _ _ (.int n) _ _ rfl (fun hscalars c hc => ?_) hb
    cases c <;> simp [Value.typeName] at hc
    exact if_neg (by simp [hscalars])
  | .float x, b, path, _, hb => by
    refine @wrap_number _ _ _ _ _ _ (.float x) _ _ rfl (fun hscalars c hc => ?_) hb
    cases c <;> simp [Value.typeName] at hc
    exact if_neg (by simp [hscalars])
  | .tuple items, b, path, ha, hb =>
    wrap_sequence (Or.inl rfl) (fun _ => rfl) ha hb fun found =>
      wrapItems_moves hregular hother hcoherent items found path 0
  | .list items, b, path, ha, hb =>
    wrap_sequence (Or.inr rfl) (fun _ => rfl) ha hb fun found =>
      wrapItems_moves hregular hother hcoherent items found path 0
  | .dict entries, b, path, ha, hb =>
    wrap_dict hb fun found hfound hkeys =>
      wrapEntries_moves hregular hother hcoherent entries found path hkeys
        (fun _ _ hitem => hregular.resolve_entry ha hitem)
        (fun _ _ hitem => hother.resolve_entry (hfound ▸ hb) hitem)
  | .layer _, b, path, ha, hb | .routine _, b, path, ha, hb | .library _, b, path, ha, hb => by
    refine wrap_leaf rfl (fun _ _ => rfl) (by simp) (fun hpasses => ?_) hb
    exact hcoherent _ _ (Or.inr (Frame.reaches_of_resolve hb))
      (Or.inl (Frame.reaches_of_resolve ha)) _ (Check.identity_of_idMatch hpasses) rfl
  | .primitive function, b, path, _, hb | .builtin function, b, path, _, hb => by
    refine wrap_leaf rfl (fun _ _ => rfl) (by simp) (fun hpasses => ?_) hb
    have hcallable := Check.of_hostMatch hpasses
    cases b <;> simp [HostCallable.of?] at hcallable
    rw [hcallable]
  | .object owner, b, path, ha, hb => wrap_sealed (Or.inr ⟨_, rfl⟩) ha hb
  | .boundPrimitive _ _ _, b, path, ha, hb | .boundRoutine _ _ _, b, path, ha, hb =>
    wrap_sealed (Or.inl rfl) ha hb
  | .none, b, path, _, hb => wrap_literal .none rfl hb
  | .bool c, b, path, _, hb => wrap_literal (.bool c) rfl hb
  | .str text, b, path, _, hb => wrap_literal (.str text) rfl hb
  | .slice bounds, b, path, _, hb => wrap_literal (.slice bounds) rfl hb
  | .elementType type, b, path, _, hb => wrap_literal (.elementType type) rfl hb
  | .device place, b, path, _, hb => wrap_literal (.device place) rfl hb
termination_by structural a => a

lemma wrapItems_moves (hregular : frame.Regular) (hother : other.Regular)
    (hcoherent : frame.Coherent other) :
    ∀ (as bs : List Value) (path : String) (position : Nat), as.length = bs.length →
      (∀ i a, as[i]? = some a →
        frame.resolve scope (path ++ "[" ++ Text.showNat (position + i) ++ "]") = .ok a) →
      (∀ i b, bs[i]? = some b →
        other.resolve scope (path ++ "[" ++ Text.showNat (position + i) ++ "]") = .ok b) →
      WrapItemsMove frame other config scope path position as bs
  | [], bs, path, position, hlength, _, _ => by
    intro state values after h _
    obtain rfl : bs = [] := List.length_eq_zero_iff.1 hlength.symm
    cases pure_eq_ok.1 h
    exact ⟨rfl, rfl⟩
  | a :: as, [], path, position, hlength, _, _ => by
    cases hlength
  | a :: as, b :: bs, path, position, hlength, has, hbs => by
    intro state values after h hguards
    obtain ⟨first, middle, hfirst, h⟩ := bind_eq_ok.1 h
    obtain ⟨rest, last, hrest, h⟩ := bind_eq_ok.1 h
    cases pure_eq_ok.1 h
    obtain ⟨hfixed, hmoves⟩ := wrap_moves hregular hother hcoherent a b _ (has 0 a rfl)
      (hbs 0 b rfl) _ _ _ hfirst (hguards _ (List.mem_cons_self ..))
    obtain ⟨hfixeds, hmovess⟩ := wrapItems_moves hregular hother hcoherent as bs path (position + 1)
      (Nat.succ.inj hlength)
      (fun i a ha => by have := has (i + 1) a ha; rwa [Nat.add_comm i 1, ← Nat.add_assoc] at this)
      (fun i b hb => by have := hbs (i + 1) b hb; rwa [Nat.add_comm i 1, ← Nat.add_assoc] at this)
      _ _ _ hrest (fun value hvalue => hguards value (List.mem_cons_of_mem _ hvalue))
    refine ⟨by rw [List.map_cons, hfixed, hfixeds], ?_⟩
    exact bind_eq_ok.2 ⟨_, _, hmoves, bind_eq_ok.2 ⟨_, _, hmovess, rfl⟩⟩
termination_by structural as => as

lemma wrapEntries_moves (hregular : frame.Regular) (hother : other.Regular)
    (hcoherent : frame.Coherent other) :
    ∀ (as bs : List (Key × Value)) (path : String), Table.keys as = Table.keys bs →
      (∀ key a, (key, a) ∈ as → frame.resolve scope (path ++ "[" ++ key.written ++ "]") = .ok a) →
      (∀ key b, (key, b) ∈ bs → other.resolve scope (path ++ "[" ++ key.written ++ "]") = .ok b) →
      WrapEntriesMove frame other config scope path as bs
  | [], bs, path, hkeys, _, _ => by
    intro state entries after h _
    obtain rfl : bs = [] := by simpa [Table.keys] using hkeys.symm
    cases pure_eq_ok.1 h
    exact ⟨rfl, rfl⟩
  | (key, a) :: as, [], path, hkeys, _, _ => by
    simp [Table.keys] at hkeys
  | (key, a) :: as, (key', b) :: bs, path, hkeys, has, hbs => by
    intro state entries after h hguards
    simp only [Table.keys, List.map_cons, List.cons.injEq] at hkeys
    obtain ⟨rfl, hkeys⟩ := hkeys
    obtain ⟨first, middle, hfirst, h⟩ := bind_eq_ok.1 h
    obtain ⟨rest, last, hrest, h⟩ := bind_eq_ok.1 h
    cases pure_eq_ok.1 h
    obtain ⟨hfixed, hmoves⟩ := wrap_moves hregular hother hcoherent a b _
      (has key a (List.mem_cons_self ..)) (hbs key b (List.mem_cons_self ..)) _ _ _ hfirst
      (hguards _ (List.mem_cons_self ..))
    obtain ⟨hfixeds, hmovess⟩ := wrapEntries_moves hregular hother hcoherent as bs path hkeys
      (fun key a ha => has key a (List.mem_cons_of_mem _ ha))
      (fun key b hb => hbs key b (List.mem_cons_of_mem _ hb))
      _ _ _ hrest (fun value hvalue => hguards value (List.mem_cons_of_mem _ hvalue))
    refine ⟨by rw [Symbolic.movedEntries, hfixed, hfixeds], ?_⟩
    exact bind_eq_ok.2 ⟨_, _, hmoves, bind_eq_ok.2 ⟨_, _, hmovess, rfl⟩⟩
termination_by structural as => as

end

/-! ### Two runs of an instruction -/

section Follows

variable {x y : TraceM Symbolic}

/-- What the two contexts of a comparison have in common: they differ in their frames only, the
names of the program are identifiers, and the frames can be compared. -/
structure Comparable (context context' : TraceContext) : Prop where
  code : context'.code = context.code
  config : context'.config = context.config
  varNames : ∀ name ∈ context.code.varNames, Text.isIdentifier name.toList = true
  names : ∀ name ∈ context.code.names, Text.isIdentifier name.toList = true
  regular : context.frame.Regular
  regular' : context'.frame.Regular
  coherent : context.frame.Coherent context'.frame

/-- From a state of the first frame, `x` gives a value of the first frame, and from the copy of the
state in the other frame `y` gives the copy of the value; provided that the guards of the value
hold there. -/
def Follows (frame other : Frame) (x y : TraceM Symbolic) : Prop :=
  ∀ state value after, state.moved frame = state → x state = .ok (value, after) →
    (∀ guard ∈ value.guards, guard.Agrees frame other) →
    value.moved frame = value ∧ after.moved frame = after ∧
      y (state.moved other) = .ok (value.moved other, after.moved other)

/-- The same for an instruction, provided that the guards of the state after it hold. -/
def FollowsFlow (frame other : Frame) (x y : TraceM Flow) : Prop :=
  ∀ state flow after, state.moved frame = state → x state = .ok (flow, after) →
    (∀ guard ∈ after.guards, guard.Agrees frame other) →
    after.moved frame = after ∧ y (state.moved other) = .ok (flow, after.moved other)

/-- What succeeds from a state of a frame and does not look at the frame leads to a state of it. -/
lemma Moves.fixed {α : Type} {f : α → α} {x : TraceM α} {state after : Tracer} {value : α}
    (h : Moves frame f x x) (hstate : state.moved frame = state)
    (hx : x state = .ok (value, after)) : f value = value ∧ after.moved frame = after := by
  have hmoved := h _ _ _ hx
  rw [hstate, hx] at hmoved
  obtain ⟨hvalue, hafter⟩ := Prod.mk.inj (Except.ok.inj hmoved)
  exact ⟨hvalue.symm, hafter.symm⟩

lemma FollowsFlow.of_moves {x : TraceM Flow} (h : ∀ frame, Moves frame id x x) :
    FollowsFlow frame other x x := by
  intro state flow after hstate hx _
  exact ⟨((h frame).fixed hstate hx).2, h other _ _ _ hx⟩

lemma FollowsFlow.pushing (h : Follows frame other x y) :
    FollowsFlow frame other (pushing x) (pushing y) := by
  intro state flow after hstate hx hguards
  obtain ⟨value, middle, hvalue, hx⟩ := bind_eq_ok.1 hx
  obtain ⟨_, last, hpush, hx⟩ := bind_eq_ok.1 hx
  cases pure_eq_ok.1 hx
  have hmem : ∀ guard ∈ value.guards, guard.Agrees frame other := by
    intro guard hguard
    refine hguards guard ?_
    cases hpush
    exact GuardSet.mem_union.2 (Or.inr hguard)
  obtain ⟨hfixed, hmiddle, hmoves⟩ := h state value middle hstate hvalue hmem
  have hpushes := (Moves.push value : Moves frame id _ _) _ _ _ hpush
  rw [hfixed, hmiddle, hpush] at hpushes
  refine ⟨(Prod.mk.inj (Except.ok.inj hpushes)).2.symm, ?_⟩
  exact bind_eq_ok.2 ⟨_, _, hmoves, bind_eq_ok.2 ⟨_, _, Moves.push value _ _ _ hpush, rfl⟩⟩

end Follows

/-! ### What is taken from the frame -/

section Loads

variable {context context' : TraceContext}

lemma moved_eq_of_records {state after : Tracer} (h : state.Records after)
    (hstate : state.moved frame = state) : after.moved frame = after := by
  obtain ⟨pc, stack, locals, globals, builder, layers, inputs, guards, unknowns⟩ := after
  obtain rfl : stack = state.stack := h.stack
  obtain rfl : locals = state.locals := h.locals
  obtain rfl : globals = state.globals := h.globals
  have hparts := hstate
  simp only [Tracer.moved] at hparts ⊢
  rw [show state.stack.map (moved frame) = state.stack from congrArg Tracer.stack hparts,
    show movedTable frame state.locals = state.locals from congrArg Tracer.locals hparts,
    show movedTable frame state.globals = state.globals from congrArg Tracer.globals hparts]

/-- Wrapping at a place that the other frame has as well. -/
lemma wrap_follows (h : Comparable context context') {value found : Value}
    (hvalue : context.frame.resolve scope path = .ok value)
    (hfound : context'.frame.resolve scope path = .ok found) :
    Follows context.frame context'.frame (wrap context.config scope value path)
      (wrap context'.config scope found path) := by
  intro state wrapped after hstate hwrap hguards
  rw [h.config]
  obtain ⟨hfixed, hmoves⟩ := wrap_moves h.regular h.regular' h.coherent value found path hvalue
    hfound state wrapped after hwrap hguards
  exact ⟨hfixed, moved_eq_of_records (Computes.wrap _ _ _ _ _ _ _ hwrap).toRecords hstate, hmoves⟩

lemma exists_resolve_of_wrap {value : Value} {state after : Tracer} {wrapped : Symbolic}
    (h : wrap config scope value path state = .ok (wrapped, after))
    (hguards : ∀ guard ∈ wrapped.guards, guard.Agrees frame other) :
    ∃ found, other.resolve scope path = .ok found := by
  have hholds := (hguards _ (mem_guards_of_wrap h)).holds
  obtain ⟨found, hfound, -⟩ := (Guard.holds_iff value.check_ne_unbound).1 hholds
  exact ⟨found, hfound⟩

lemma moved_put_local (frame : Frame) (state : Tracer) (name : String) (value : Symbolic) :
    ({ state with locals := state.locals.put name value } : Tracer).moved frame =
      { state.moved frame with
        locals := (state.moved frame).locals.put name (value.moved frame) } := by
  simp [Tracer.moved, movedTable_put]

lemma moved_put_global (frame : Frame) (state : Tracer) (name : String) (value : Symbolic) :
    ({ state with globals := state.globals.put name value } : Tracer).moved frame =
      { state.moved frame with
        globals := (state.moved frame).globals.put name (value.moved frame) } := by
  simp [Tracer.moved, movedTable_put]

lemma loadLocal_follows (h : Comparable context context') {name : String}
    (hname : Text.isIdentifier name.toList = true) :
    Follows context.frame context'.frame (loadLocal context name) (loadLocal context' name) := by
  intro state value after hstate hload hguards
  have hlookup : ∀ frame : Frame, (state.moved frame).locals.lookup name =
      (state.locals.lookup name).map (moved frame) := fun _ => lookup_movedTable _ _
  rcases loadLocal_eq_ok.1 hload with ⟨hlocal, rfl⟩ | ⟨hlocal, live, middle, hlive, hwrap, rfl⟩
  · have hfixed := hlookup context.frame
    rw [hstate, hlocal, Option.map_some, Option.some.injEq] at hfixed
    refine ⟨hfixed.symm, hstate, loadLocal_eq_ok.2 (Or.inl ⟨?_, rfl⟩)⟩
    rw [hlookup, hlocal, Option.map_some]
  · obtain ⟨found, hfound⟩ := exists_resolve_of_wrap hwrap hguards
    obtain ⟨hfixed, hmiddle, hmoves⟩ :=
      wrap_follows h ((Frame.resolve_identifier hname).2 hlive) hfound _ _ _ hstate hwrap hguards
    refine ⟨hfixed, ?_, loadLocal_eq_ok.2 (Or.inr ⟨?_, found, _, ?_, hmoves, ?_⟩)⟩
    · rw [moved_put_local, hmiddle, hfixed]
    · rw [hlookup, hlocal, Option.map_none]
    · exact (Frame.resolve_identifier hname).1 hfound
    · rw [moved_put_local]

lemma wrapGlobal_follows (h : Comparable context context') {name : String}
    (hname : Text.isIdentifier name.toList = true) :
    Follows context.frame context'.frame (wrapGlobal context name) (wrapGlobal context' name) := by
  intro state value after hstate hwrap hguards
  rcases wrapGlobal_eq_ok.1 hwrap with ⟨live, hlive, hwrap⟩ | ⟨-, function, hfunction, rfl, rfl⟩
  · obtain ⟨found, hfound⟩ := exists_resolve_of_wrap hwrap hguards
    obtain ⟨hfixed, hafter, hmoves⟩ :=
      wrap_follows h ((Frame.resolve_identifier hname).2 hlive) hfound _ _ _ hstate hwrap hguards
    exact ⟨hfixed, hafter,
      wrapGlobal_eq_ok.2 (Or.inl ⟨found, (Frame.resolve_identifier hname).1 hfound, hmoves⟩)⟩
  · -- the guard of a builtin keeps its name free
    have hguard : ⟨name, .globals, .unbound⟩ ∈ (wrapBuiltin name function).guards :=
      GuardSet.mem_insert.2 (Or.inr rfl)
    have hfree := Guard.holds_unbound hname (hguards _ hguard).holds
    exact ⟨rfl, hstate, wrapGlobal_eq_ok.2 (Or.inr ⟨hfree, function, hfunction, rfl, rfl⟩)⟩

lemma loadGlobal_follows (h : Comparable context context') {name : String}
    (hname : Text.isIdentifier name.toList = true) :
    Follows context.frame context'.frame (loadGlobal context name) (loadGlobal context' name) := by
  intro state value after hstate hload hguards
  have hlookup : ∀ frame : Frame, (state.moved frame).globals.lookup name =
      (state.globals.lookup name).map (moved frame) := fun _ => lookup_movedTable _ _
  rcases loadGlobal_eq_ok.1 hload with ⟨hglobal, rfl⟩ | ⟨hglobal, middle, hwrap, rfl⟩
  · have hfixed := hlookup context.frame
    rw [hstate, hglobal, Option.map_some, Option.some.injEq] at hfixed
    refine ⟨hfixed.symm, hstate, loadGlobal_eq_ok.2 (Or.inl ⟨?_, rfl⟩)⟩
    rw [hlookup, hglobal, Option.map_some]
  · obtain ⟨hfixed, hmiddle, hmoves⟩ := wrapGlobal_follows h hname _ _ _ hstate hwrap hguards
    refine ⟨hfixed, ?_, loadGlobal_eq_ok.2 (Or.inr ⟨?_, _, hmoves, ?_⟩)⟩
    · rw [moved_put_global, hmiddle, hfixed]
    · rw [hlookup, hglobal, Option.map_none]
    · rw [moved_put_global]

/-- An attribute of a value that the trace cannot look into is read at the place of the value. -/
lemma getAttr_follows_sealed (h : Comparable context context') {name base : String}
    (hname : Text.isIdentifier name.toList = true) {holder : Symbolic} {value : Value}
    {type : TypeName} (hkind : holder.kind = .unsupported value type)
    (hplace : nameAndScope? holder = some (base, scope))
    (hfixed : holder.moved context.frame = holder) :
    Follows context.frame context'.frame (getAttr context.config holder name)
      (getAttr context'.config (holder.moved context'.frame) name) := by
  intro state result after hstate hattr hguards
  have hplaceOf : placeOf? holder.localName holder.globalName = some (base, scope) := hplace
  have hmovedKind : ∀ frame : Frame, (holder.moved frame).kind =
      .unsupported (frame.valueAt scope base) type := by
    intro frame
    rw [Symbolic.kind_moved, hplaceOf, hkind]
    rfl
  simp only [getAttr, hkind, hplace] at hattr
  obtain ⟨live, _, hrun, hattr⟩ := bind_eq_ok.1 hattr
  obtain ⟨wrapped, middle, hwrap, hattr⟩ := bind_eq_ok.1 hattr
  cases pure_eq_ok.1 hattr
  obtain ⟨hlive, rfl⟩ := ofRun_eq_ok.1 hrun
  -- what the value keeps is what stands at its place
  have hvalue : context.frame.resolve scope base = .ok value := by
    have hkept := hmovedKind context.frame
    rw [hfixed, hkind, Kind.unsupported.injEq, Frame.valueAt] at hkept
    split at hkept
    · next found hfound => rw [hfound, hkept.1]
    · rw [hkept.1] at hlive
      cases hlive
  have hinner : ∀ guard ∈ wrapped.guards, guard.Agrees context.frame context'.frame :=
    fun guard hguard => hguards guard (GuardSet.mem_union.2 (Or.inl hguard))
  obtain ⟨found, hfound⟩ := exists_resolve_of_wrap hwrap hinner
  obtain ⟨readPath, hread, -⟩ := Frame.resolve_eq_ok_iff.1 hvalue
  obtain ⟨value', hvalue', hlive'⟩ := Frame.exists_resolve_of_attr hname hread hfound
  obtain ⟨hwrapped, hmiddle, hmoves⟩ := wrap_follows h ((Frame.resolve_attr hname hvalue).2 hlive)
    hfound _ _ _ hstate hwrap hinner
  refine ⟨by rw [Symbolic.moved_addGuards, hwrapped], hmiddle, ?_⟩
  have hplace' : nameAndScope? (holder.moved context'.frame) = some (base, scope) := by
    rw [← hplace]
    simp [nameAndScope?]
  simp only [getAttr, hmovedKind, hplace', Symbolic.moved_addGuards]
  refine bind_eq_ok.2 ⟨found, _, ofRun_eq_ok.2 ⟨?_, rfl⟩, bind_eq_ok.2 ⟨_, _, hmoves, ?_⟩⟩
  · simpa [Frame.valueAt, hvalue'] using hlive'
  · rw [Symbolic.guards_moved]
    rfl

lemma getAttr_follows (h : Comparable context context') {name : String}
    (hname : Text.isIdentifier name.toList = true) {holder : Symbolic}
    (hfixed : holder.moved context.frame = holder) :
    Follows context.frame context'.frame (getAttr context.config holder name)
      (getAttr context'.config (holder.moved context'.frame) name) := by
  by_cases hsealed : ∃ value type base scope,
      holder.kind = .unsupported value type ∧ nameAndScope? holder = some (base, scope)
  · obtain ⟨value, type, base, scope, hkind, hplace⟩ := hsealed
    exact getAttr_follows_sealed h hname hkind hplace hfixed
  · have hfree : ∀ value type, holder.kind = .unsupported value type →
        nameAndScope? holder = none := by
      intro value type hkind
      cases hplace : nameAndScope? holder with
      | none => rfl
      | some place => exact absurd ⟨value, type, place.1, place.2, hkind, hplace⟩ hsealed
    intro state result after hstate hattr _
    have hself := @Moves.getAttr context.frame context.config holder name hfree
    rw [hfixed] at hself
    obtain ⟨hresult, hafter⟩ := hself.fixed hstate hattr
    rw [h.config]
    exact ⟨hresult, hafter, Moves.getAttr context.config name hfree _ _ _ hattr⟩

end Loads

/-! ### Steps and traces -/

section Runs

variable {context context' : TraceContext}

lemma mem_of_varName? {code : Code} {operand : UInt32} {name : String}
    (h : code.varName? operand = some name) : name ∈ code.varNames :=
  List.mem_of_getElem? h

lemma mem_of_name? {code : Code} {operand : UInt32} {name : String}
    (h : code.name? operand = some name) : name ∈ code.names :=
  List.mem_of_getElem? h

/-- A name that the program gives, and what is then done with it. -/
lemma Follows.of_option {α : Type} {cause : BreakCause} {option : Option α}
    {k l : α → TraceM Symbolic}
    (h : ∀ value, option = some value → Follows frame other (k value) (l value)) :
    Follows frame other (ofOption cause option >>= k) (ofOption cause option >>= l) := by
  intro state value after hstate hx hguards
  obtain ⟨found, _, hoption, hrest⟩ := bind_eq_ok.1 hx
  obtain ⟨hfound, rfl⟩ := ofOption_eq_ok.1 hoption
  obtain ⟨hvalue, hafter, hmoves⟩ := h found hfound _ _ _ hstate hrest hguards
  exact ⟨hvalue, hafter, bind_eq_ok.2 ⟨found, _, ofOption_eq_ok.2 ⟨hfound, rfl⟩, hmoves⟩⟩

lemma popped_attr_follows (h : Comparable context context') {name : String}
    (hname : Text.isIdentifier name.toList = true) :
    Follows context.frame context'.frame (do getAttr context.config (← pop) name)
      (do getAttr context'.config (← pop) name) := by
  intro state value after hstate hx hguards
  obtain ⟨holder, middle, hpop, hx⟩ := bind_eq_ok.1 hx
  obtain ⟨hholder, hmiddle⟩ := (Moves.pop : Moves context.frame _ _ _).fixed hstate hpop
  obtain ⟨hvalue, hafter, hmoves⟩ :=
    getAttr_follows h hname hholder _ _ _ hmiddle hx hguards
  exact ⟨hvalue, hafter, bind_eq_ok.2 ⟨_, _, Moves.pop _ _ _ hpop, hmoves⟩⟩

/-- **One step of two runs.**  If the guards collected by the end of a step hold on the other frame,
the step leads from corresponding states to corresponding states. -/
lemma step_follows (h : Comparable context context') (instruction : Instruction) :
    FollowsFlow context.frame context'.frame (step context instruction)
      (step context' instruction) := by
  unfold step
  rw [h.code]
  cases instruction.opcode
  case loadFast =>
    exact .pushing (.of_option fun name hname =>
      loadLocal_follows h (h.varNames name (mem_of_varName? hname)))
  case loadGlobal =>
    exact .pushing (.of_option fun name hname =>
      loadGlobal_follows h (h.names name (mem_of_name? hname)))
  case loadAttr | loadMethod =>
    exact .pushing (.of_option fun name hname =>
      popped_attr_follows h (h.names name (mem_of_name? hname)))
  case callFunction | callMethod =>
    rw [h.config]
    exact .of_moves fun _ => .pushing (.bind (.popMany _) fun args => .bind .pop fun callee =>
      .callValue _ callee args)
  all_goals refine .of_moves fun frame => ?_
  case nop | jumpAbsolute => exact .pure rfl
  case popTop => exact .bind .pop fun _ => .pure rfl
  case rotTwo =>
    exact .bind .popTwo fun pair => .bind (.push pair.2) fun _ => .bind (.push pair.1) fun _ =>
      .pure rfl
  case dupTop =>
    refine .bind .get fun state => ?_
    cases hstack : state.stack with
    | nil => exact .breakOff
    | cons top rest =>
      simp only [Tracer.moved, hstack, List.map_cons]
      exact .bind (.push top) fun _ => .pure rfl
  case loadConst => exact .pushing (.bind (.ofOption _ _) fun _ => .pure rfl)
  case storeFast =>
    refine .bind (.ofOption _ _) fun name => .bind .pop fun value =>
      .bind (.modify fun state => ?_) fun _ => .pure rfl
    rw [moved_put_local]
    rfl
  case binaryAdd | binarySubtract | binaryMultiply | binaryTrueDivide | binaryFloorDivide |
      binaryModulo =>
    exact .stackBinary _
  case compareOp => exact .bind (.ofOption _ _) fun _ => .stackBinary _
  case unaryNegative => exact .pushing (.bind .pop fun value => .negate value)
  case binarySubscr => exact .pushing (.bind .popTwo fun pair => .subscript pair.1 pair.2)
  case buildTuple | buildList =>
    exact .pushing (.bind (.popMany _) fun items => .pure (Symbolic.moved_sequence _ items).symm)
  case buildSlice => exact .pushing (.buildSlice _)
  case buildConstKeyMap =>
    exact .pushing (.bind .pop fun keys => .bind (.popMany _) fun values => .buildDict keys values)
  case unpackSequence =>
    exact .bind .pop fun value => .bind (.unpackItems value _) fun items =>
      .bind (.pushAll items) fun _ => .pure rfl
  case getIter =>
    exact .pushing (.bind .pop fun value => .ofAnswer (Symbolic.iterate_moved value))
  case forIter => exact .forIter _
  case popJumpIfFalse | popJumpIfTrue => exact .popJump _ _
  case returnValue => exact .bind .pop fun value => .bind (.operand value) fun _ => .pure rfl

end Runs

end TraceM

/-- A trace that completes from a state of the first frame, under guards that hold on the other
frame, completes with the same output from the copy of the state in the other frame. -/
lemma traceFrom_follows {context context' : TraceContext}
    (h : TraceM.Comparable context context') {fuel : Nat} {state last : Tracer}
    {output : TraceOutput} (hstate : state.moved context.frame = state)
    (htrace : traceFrom context fuel state = (.ok output, last))
    (hguards : ∀ guard ∈ output.guards, guard.Agrees context.frame context'.frame) :
    (traceFrom context' fuel (state.moved context'.frame)).1 = .ok output := by
  induction fuel generalizing state with
  | zero => simp [traceFrom] at htrace
  | succ fuel ih =>
    obtain ⟨instruction, flow, after, hinstruction, hstep, hflow⟩ := traceFrom_cases htrace
    -- what is collected up to here is among the guards of the output
    have hcollected : ∀ guard ∈ after.guards, guard.Agrees context.frame context'.frame := by
      intro guard hguard
      refine hguards guard ?_
      rcases hflow with ⟨pc, -, hrest⟩ | ⟨operand, -, rfl, -⟩
      · obtain ⟨hextends, operand, rfl⟩ := traceFrom_extends hrest
        exact hextends.guards guard hguard
      · exact hguard
    obtain ⟨hafter, hstep'⟩ :=
      TraceM.step_follows h instruction state flow after hstate hstep hcollected
    have hpc : ∀ pc, ({ after with pc } : Tracer).moved context.frame = { after with pc } := by
      intro pc
      show { after.moved context.frame with pc } = _
      rw [hafter]
    have hinstruction' : context'.code.instruction? (state.moved context'.frame).pc =
        some instruction := by
      rw [h.code]
      exact hinstruction
    rcases hflow with ⟨pc, htarget, hrest⟩ | ⟨operand, rfl, rfl, -⟩
    · rw [traceFrom_of_step hinstruction' hstep' htarget]
      exact ih (hpc _) hrest
    · rw [traceFrom_of_finish hinstruction' hstep']
      rfl

/-- **Guards determine the trace.**  A completed trace of a program is also its trace on every other
frame on which the guards hold, provided that the names of the program are identifiers, that the
keys of dictionaries can be told apart in paths, that equal identities belong to equal objects, and
that the sequences under a length guard are of one kind: the output is the same, with its graph,
inputs, guards and layers. -/
theorem trace_eq_of_guards {code : Code} {config : Config} {frame other : Frame}
    {output : TraceOutput}
    (hvarNames : ∀ name ∈ code.varNames, Text.isIdentifier name.toList = true)
    (hnames : ∀ name ∈ code.names, Text.isIdentifier name.toList = true)
    (hregular : frame.Regular) (hregular' : other.Regular) (hcoherent : frame.Coherent other)
    (htrace : trace code frame config = .ok output)
    (hguards : ∀ guard ∈ output.guards, guard.Holds other)
    (hkinds : ∀ guard ∈ output.guards, ∀ length, guard.check = .lengthMatch length →
      frame.SameKind other guard.scope guard.name) :
    trace code other config = .ok output := by
  have hcomparable : TraceM.Comparable ⟨code, frame, config⟩ ⟨code, other, config⟩ :=
    ⟨rfl, rfl, hvarNames, hnames, hregular, hregular', hcoherent⟩
  unfold trace at htrace
  cases hrun : traceFrom ⟨code, frame, config⟩ maxTraceSteps {} with
  | mk result last =>
    rw [hrun] at htrace
    obtain rfl : result = .ok output := htrace
    exact traceFrom_follows hcomparable rfl hrun
      fun guard hguard => ⟨hguards guard hguard, hkinds guard hguard⟩

/-- `xs[0] + y`. -/
def itemSum : Code :=
  { id := 0, name := "item_sum", argCount := 2, varNames := ["xs", "y"], names := []
    constants := [.int 0]
    instructions := [⟨.loadFast, 0⟩, ⟨.loadConst, 0⟩, ⟨.binarySubscr, 0⟩, ⟨.loadFast, 1⟩,
      ⟨.binaryAdd, 0⟩, ⟨.returnValue, 0⟩] }

/-- A list of one array with one element, and a number. -/
def itemSumFrame (element : Double) : Frame :=
  { locals := [("xs", .list [.array (.contiguous .float64 .cpu [1] [element])]), ("y", .int 3)] }

lemma plain_itemSumFrame (element : Double) : (itemSumFrame element).Plain := by
  refine Frame.plain_of_forall ?_ ?_ <;>
    simp [itemSumFrame, Value.Plain, Value.PlainItems, wordLimit]

/-- The trace of a sum with one array is the trace with another array of the same description. -/
theorem trace_itemSum_eq : ∃ output, trace itemSum (itemSumFrame ⟨0⟩) {} = .ok output ∧
    trace itemSum (itemSumFrame ⟨1⟩) {} = .ok output := by
  have hguards : (match trace itemSum (itemSumFrame ⟨0⟩) {} with
      | .ok output => decide (∀ guard ∈ output.guards, guard.Holds (itemSumFrame ⟨1⟩))
      | .error _ => false) = true := by
    decide +kernel
  cases htrace : trace itemSum (itemSumFrame ⟨0⟩) {} with
  | error stop => simp [htrace] at hguards
  | ok output =>
    simp only [htrace, decide_eq_true_eq] at hguards
    have hplain := plain_itemSumFrame ⟨0⟩
    have hplain' := plain_itemSumFrame ⟨1⟩
    exact ⟨output, rfl, trace_eq_of_guards (by decide) (by decide) hplain.regular hplain'.regular
      (hplain.coherent hplain') htrace hguards fun _ _ _ _ => hplain.sameKind hplain' _ _⟩

end GuardedTrace
