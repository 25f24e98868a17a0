/-
Guard sets are in order.

The comparison of guards is linear, and the union of two sets in strictly increasing order is in
strictly increasing order again.  Every set that a trace keeps comes from unions, so the guards of a
completed trace are in order: the first guard of the set that fails on a frame is the least one that
fails there.
-/
import GuardedTrace.Proofs.LinearOrders
import GuardedTrace.Proofs.TracedValues

namespace GuardedTrace

open Table (Linear linear_compare)

/-! ### The order of checks -/

lemma Primitive.rank_injective : Function.Injective Primitive.rank := by
  intro a b h
  have hrank (function : Primitive) : all[function.rank]? = some function := by
    cases function <;> rfl
  rw [← Option.some.injEq, ← hrank a, ← hrank b, h]

lemma Builtin.rank_injective : Function.Injective Builtin.rank := by
  intro a b h
  have hrank (function : Builtin) : all[function.rank]? = some function := by cases function <;> rfl
  rw [← Option.some.injEq, ← hrank a, ← hrank b, h]

/-- A host callable as its kind and its rank among those of the kind. -/
def HostCallable.side : HostCallable → Nat ⊕ Nat
  | primitive function => .inl function.rank
  | builtin function => .inr function.rank

lemma HostCallable.linear_cmp : Linear HostCallable.cmp := by
  have hside : Function.Injective side := by
    intro a b h
    cases a <;> cases b <;> first | cases h | skip
    · rw [Primitive.rank_injective (Sum.inl.inj h)]
    · rw [Builtin.rank_injective (Sum.inr.inj h)]
  exact ((linear_compare.sum linear_compare).comap hside).congr fun a b => by
    cases a <;> cases b <;> rfl

lemma Key.linear_cmpList : Linear Key.cmpList :=
  Key.linear_cmp.list_of_eqs rfl (fun _ _ => rfl) (fun _ _ => rfl) fun _ _ _ _ => rfl

namespace Check

lemma linear_cmpSizes : Linear cmpSizes :=
  linear_compare.list_of_eqs rfl (fun _ _ => rfl) (fun _ _ => rfl) fun _ _ _ _ => rfl

lemma linear_cmpSizes? : Linear cmpSizes? :=
  linear_cmpSizes.option_of_eqs rfl (fun _ => rfl) (fun _ => rfl) fun _ _ => rfl

lemma linear_cmpSpec : Linear cmpSpec := by
  have hparts : Function.Injective fun spec : ArraySpec =>
      ((((spec.elementType.rank, spec.device.rank), spec.rank), spec.shape), spec.strides) := by
    rintro ⟨type, device, rank, shape, strides⟩ ⟨type', device', rank', shape', strides'⟩ h
    simp only [Prod.mk.injEq, ElementType.rank_injective.eq_iff, Device.rank_injective.eq_iff] at h
    obtain ⟨⟨⟨⟨rfl, rfl⟩, rfl⟩, rfl⟩, rfl⟩ := h
    rfl
  exact ((((linear_compare.lex linear_compare).lex linear_compare).lex linear_cmpSizes?).lex
    linear_cmpSizes?).comap hparts

/-- A check as its kind and what it asks for, in the order of the kinds. -/
def side : Check → TypeName ⊕ Literal ⊕ Identity ⊕ ArraySpec ⊕ Nat ⊕ List Key ⊕ HostCallable ⊕ Unit
  | typeMatch type => .inl type
  | constantMatch literal => .inr (.inl literal)
  | idMatch id => .inr (.inr (.inl id))
  | arrayMatch spec => .inr (.inr (.inr (.inl spec)))
  | lengthMatch length => .inr (.inr (.inr (.inr (.inl length))))
  | keysMatch keys => .inr (.inr (.inr (.inr (.inr (.inl keys)))))
  | hostMatch callable => .inr (.inr (.inr (.inr (.inr (.inr (.inl callable))))))
  | unbound => .inr (.inr (.inr (.inr (.inr (.inr (.inr ()))))))

lemma linear_cmp : Linear cmp := by
  have hside : Function.Injective side := by
    intro a b h
    cases a <;> cases b <;> cases h <;> rfl
  have hkeys := Key.linear_cmpList.sum (HostCallable.linear_cmp.sum Linear.unit)
  have harrays := linear_cmpSpec.sum ((linear_compare (κ := Nat)).sum hkeys)
  have hall := TypeName.linear_cmp.sum (Literal.linear_cmp.sum (Identity.linear_cmp.sum harrays))
  exact (hall.comap hside).congr fun a b => by cases a <;> cases b <;> rfl

end Check

lemma Scope.rank_injective : Function.Injective Scope.rank := by
  intro a b h
  cases a <;> cases b <;> first | rfl | cases h

lemma Guard.linear_cmp : Linear Guard.cmp := by
  have hparts : Function.Injective fun guard : Guard =>
      ((guard.name, guard.scope.rank), guard.check) := by
    rintro ⟨name, scope, check⟩ ⟨name', scope', check'⟩ h
    simp only [Prod.mk.injEq, Scope.rank_injective.eq_iff] at h
    obtain ⟨⟨rfl, rfl⟩, rfl⟩ := h
    rfl
  exact ((linear_compare.lex linear_compare).lex Check.linear_cmp).comap hparts

/-! ### Sets in order -/

namespace GuardSet

variable {guards others : GuardSet} {frame : Frame} {failure : GuardFailure}

/-- The guards are strictly increasing. -/
def InOrder (guards : GuardSet) : Prop := guards.Pairwise fun a b => a.cmp b = .lt

/-- The guards do not go down. -/
def Ascending (guards : List Guard) : Prop := guards.Pairwise fun a b => a.cmp b ≠ .gt

lemma InOrder.ascending (h : guards.InOrder) : Ascending guards := by
  refine List.Pairwise.imp (fun {a b} hlt hgt => ?_) h
  cases hlt.symm.trans hgt

/-- Merging two lists that do not go down gives one that does not go down. -/
lemma ascending_merge {guards others : List Guard} (h : Ascending guards)
    (hothers : Ascending others) :
    Ascending (merge guards others) := by
  induction guards generalizing others with
  | nil => exact hothers
  | cons guard rest ih =>
    obtain ⟨hguard, hrest⟩ := List.pairwise_cons.1 h
    induction others with
    | nil => exact h
    | cons other others ih' =>
      obtain ⟨hother, htail⟩ := List.pairwise_cons.1 hothers
      simp only [merge, mergeFrom] at ih' ⊢
      split
      · next hle =>
        have hle : guard.cmp other ≠ .gt := by simpa using hle
        refine List.pairwise_cons.2 ⟨fun next hnext => ?_, ih hrest hothers⟩
        rcases (mem_merge _ _).1 hnext with hnext | hnext
        · exact hguard next hnext
        · rcases List.mem_cons.1 hnext with rfl | hnext
          · exact hle
          · exact Guard.linear_cmp.not_gt_trans hle (hother next hnext)
      · next hgt =>
        have hgt : guard.cmp other = .gt := by simpa using hgt
        refine List.pairwise_cons.2 ⟨fun next hnext => ?_, ih' htail⟩
        have hle : other.cmp guard ≠ .gt := by
          rw [Guard.linear_cmp.gt_iff.1 hgt]
          decide
        rcases (mem_merge (guard :: rest) others).1 hnext with hnext | hnext
        · rcases List.mem_cons.1 hnext with rfl | hnext
          · exact hle
          · exact Guard.linear_cmp.not_gt_trans hle (hguard next hnext)
        · exact hother next hnext

/-- Without repetitions a list that does not go down is strictly increasing. -/
lemma inOrder_dropRepeats {guards : List Guard} (h : Ascending guards) :
    (dropRepeats guards).InOrder := by
  induction guards with
  | nil => exact List.Pairwise.nil
  | cons guard rest ih =>
    obtain ⟨hguard, hrest⟩ := List.pairwise_cons.1 h
    cases rest with
    | nil => exact List.pairwise_singleton _ _
    | cons next rest =>
      unfold dropRepeats
      split
      · exact ih hrest
      · next hne =>
        have hlt : guard.cmp next = .lt := by
          cases hcmp : guard.cmp next with
          | lt => rfl
          | eq => exact absurd (Guard.linear_cmp.eq_iff.1 hcmp) hne
          | gt => exact absurd hcmp (hguard next (List.mem_cons_self ..))
        refine List.pairwise_cons.2 ⟨fun other hother => ?_, ih hrest⟩
        rcases List.mem_cons.1 ((mem_dropRepeats _).1 hother) with rfl | hother
        · exact hlt
        · have hle := (List.pairwise_cons.1 hrest).1 other hother
          cases hcmp : next.cmp other with
          | lt => exact Guard.linear_cmp.trans hlt hcmp
          | eq => exact Guard.linear_cmp.eq_iff.1 hcmp ▸ hlt
          | gt => exact absurd hcmp hle

lemma InOrder.union (h : guards.InOrder) (hothers : others.InOrder) :
    (guards.union others).InOrder :=
  inOrder_dropRepeats (ascending_merge h.ascending hothers.ascending)

/-- The least guard of a set that fails on a frame. -/
structure LeastFailing (guards : GuardSet) (frame : Frame) (guard : Guard) : Prop where
  mem : guard ∈ guards
  fails : ¬ guard.Holds frame
  least : ∀ other ∈ guards, ¬ other.Holds frame → other ≠ guard → guard.cmp other = .lt

/-- In a set in order the first guard that fails is the least one. -/
lemma InOrder.leastFailing (h : guards.InOrder) (hfailure : guards.failure? frame = some failure) :
    guards.LeastFailing frame failure.guard := by
  obtain ⟨before, guard, after, rfl, hguard, hbefore⟩ := List.findSome?_eq_some_iff.1 hfailure
  obtain ⟨reason, hreason, rfl⟩ := Option.map_eq_some_iff.1 hguard
  obtain ⟨-, hafter, -⟩ := List.pairwise_append.1 h
  refine ⟨List.mem_append_right _ (List.mem_cons_self ..), fun hholds => ?_,
    fun other hother hfails hne => ?_⟩
  · rw [Guard.Holds] at hholds
    cases hholds.symm.trans hreason
  · rcases List.mem_append.1 hother with hother | hother
    · exact absurd (Option.map_eq_none_iff.1 (hbefore other hother)) hfails
    · rcases List.mem_cons.1 hother with hother | hother
      · exact absurd hother hne
      · exact (List.pairwise_cons.1 hafter).1 other hother

end GuardSet

/-! ### Sets of traces -/

namespace Symbolic

lemma inherited_inOrder : Inherited GuardSet.InOrder fun value => value.guards.InOrder where
  empty := List.Pairwise.nil
  union hguards hothers := hguards.union hothers
  guards h := h
  bare _ := List.Pairwise.nil
  joined h hadded := h.union hadded
  unnamed h := h

end Symbolic

/-- Binding a value adds a single guard. -/
lemma binds_inOrder (context : TraceContext) :
    Binds context (fun value => value.guards.InOrder) fun _ _ _ => True where
  root _ _ := trivial
  item _ _ := trivial
  entry _ _ := trivial
  attr _ _ _ _ _ := trivial
  bound {value scope path live check} h _ _ _ _ := by
    cases scope <;> exact h.union (List.pairwise_singleton _ _)
  builtin _ _ := by
    have hempty : GuardSet.InOrder [] := List.Pairwise.nil
    exact hempty.union (List.pairwise_singleton _ _)

/-- The guards of a completed trace are in order. -/
lemma inOrder_of_trace {code : Code} {frame : Frame} {config : Config} {output : TraceOutput}
    (h : trace code frame config = .ok output) : output.guards.InOrder :=
  guards_of_trace Symbolic.inherited_inOrder (binds_inOrder _) h

end GuardedTrace
