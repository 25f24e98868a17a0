/-
Identity keys are in one line.

Identity keys are compared by kind and then part by part, and their parts are literals, nodes,
names, objects and further keys.  All of these are in a line, so the keys are: two keys are on a par
only when they are the same, and a table that is ordered by identity keys has one entry for each.
-/
import GuardedTrace.Proofs.OrderedGuards
import GuardedTrace.Symbolic.IdentityKey

namespace GuardedTrace

open Table (Linear LinearAt eq_compareLex linear_compare)

lemma Builtin.linear_rank : Linear fun a b : Builtin => compare a.rank b.rank :=
  linear_compare.comap Builtin.rank_injective

lemma SequenceKind.linear_rank : Linear fun a b : SequenceKind => compare a.rank b.rank :=
  linear_compare.comap fun a b h => by cases a <;> cases b <;> first | rfl | cases h

/-- A host item as its kind and its rank among those of the kind. -/
def HostItem.side : HostItem → Nat ⊕ Nat ⊕ Nat
  | primitive function => .inl function.rank
  | elementType type => .inr (.inl type.rank)
  | device place => .inr (.inr place.rank)

lemma HostItem.linear_cmp : Linear HostItem.cmp := by
  have hside : Function.Injective side := by
    intro a b h
    cases a <;> cases b <;> first | cases h | skip
    · rw [Primitive.rank_injective (Sum.inl.inj h)]
    · rw [ElementType.rank_injective (Sum.inl.inj (Sum.inr.inj h))]
    · rw [Device.rank_injective (Sum.inr.inj (Sum.inr.inj h))]
  have hranks := linear_compare (κ := Nat)
  exact ((hranks.sum (hranks.sum hranks)).comap hside).congr fun a b => by
    cases a <;> cases b <;> rfl

namespace IdentityKey

lemma linear_cmpOption {α : Type} {cmp : α → α → Ordering} (h : Linear cmp) :
    Linear (cmpOption cmp) :=
  h.option_of_eqs rfl (fun _ => rfl) (fun _ => rfl) fun _ _ => rfl

/-- Keys of different kinds are compared by kind. -/
lemma cmp_of_rank_ne {a b : IdentityKey} (h : a.rank ≠ b.rank) :
    a.cmp b = compare a.rank b.rank := by
  cases a <;> cases b <;> first | rfl | exact absurd rfl h

lemma cmpItems_eq (as bs : List IdentityKey) : cmpItems as bs = List.compareLex cmp as bs :=
  eq_compareLex rfl (fun _ _ => rfl) (fun _ _ => rfl) (fun _ _ _ _ => rfl) as bs

lemma cmpEntries_eq (as bs : List (Key × IdentityKey)) :
    cmpEntries as bs = List.compareLex (fun a b => (a.1.cmp b.1).then (a.2.cmp b.2)) as bs :=
  eq_compareLex rfl (fun _ _ => rfl) (fun _ _ => rfl) (fun _ _ _ _ => rfl) as bs

mutual

lemma linearAt_cmp : ∀ a : IdentityKey, LinearAt cmp a
  | array node =>
    (linear_compare.at node).kind cmp_of_rank_ne array
      (by rintro ⟨⟩ ⟨⟩; exact ⟨_, rfl⟩) fun _ _ => rfl
  | scalar node =>
    (linear_compare.at node).kind cmp_of_rank_ne scalar
      (by rintro ⟨⟩ ⟨⟩; exact ⟨_, rfl⟩) fun _ _ => rfl
  | layer key =>
    (linear_compare.at key).kind cmp_of_rank_ne layer
      (by rintro ⟨⟩ ⟨⟩; exact ⟨_, rfl⟩) fun _ _ => rfl
  | constant literal =>
    (Literal.linear_cmp.at literal).kind cmp_of_rank_ne constant
      (by rintro ⟨⟩ ⟨⟩; exact ⟨_, rfl⟩) fun _ _ => rfl
  | deferred payload =>
    (linearAt_cmp payload).kind cmp_of_rank_ne deferred
      (by rintro ⟨⟩ ⟨⟩; exact ⟨_, rfl⟩) fun _ _ => rfl
  | builtin function =>
    (Builtin.linear_rank.at function).kind cmp_of_rank_ne builtin
      (by rintro ⟨⟩ ⟨⟩; exact ⟨_, rfl⟩) fun _ _ => rfl
  | iterator items position => by
    have hparts := (LinearAt.list (linearAt_items items)).lex (linear_compare.at position)
    refine hparts.kind cmp_of_rank_ne (fun parts => iterator parts.1 parts.2) ?_ fun _ _ => by
      rw [cmp, cmpItems_eq]
    rintro ⟨⟩ ⟨⟩
    exact ⟨(_, _), rfl⟩
  | attr holder name => by
    have hparts := (linearAt_cmp holder).lex (linear_compare.at name)
    refine hparts.kind cmp_of_rank_ne (fun parts => attr parts.1 parts.2) ?_ fun _ _ => rfl
    rintro ⟨⟩ ⟨⟩
    exact ⟨(_, _), rfl⟩
  | sequence kind items => by
    have hparts := (SequenceKind.linear_rank.at kind).lex (LinearAt.list (linearAt_items items))
    refine hparts.kind cmp_of_rank_ne (fun parts => sequence parts.1 parts.2) ?_ fun _ _ => by
      rw [cmp, cmpItems_eq]
    rintro ⟨⟩ ⟨⟩
    exact ⟨(_, _), rfl⟩
  | dict entries =>
    (LinearAt.list (linearAt_entries entries)).kind cmp_of_rank_ne dict
      (by rintro ⟨⟩ ⟨⟩; exact ⟨_, rfl⟩) cmpEntries_eq
  | routine id =>
    (Identity.linear_cmp.at id).kind cmp_of_rank_ne routine
      (by rintro ⟨⟩ ⟨⟩; exact ⟨_, rfl⟩) fun _ _ => rfl
  | method id receiver => by
    have hparts := (Identity.linear_cmp.at id).lex (linearAt_cmp receiver)
    refine hparts.kind cmp_of_rank_ne (fun parts => method parts.1 parts.2) ?_ fun _ _ => rfl
    rintro ⟨⟩ ⟨⟩
    exact ⟨(_, _), rfl⟩
  | host item =>
    (HostItem.linear_cmp.at item).kind cmp_of_rank_ne host
      (by rintro ⟨⟩ ⟨⟩; exact ⟨_, rfl⟩) fun _ _ => rfl
  | library id =>
    (Identity.linear_cmp.at id).kind cmp_of_rank_ne library
      (by rintro ⟨⟩ ⟨⟩; exact ⟨_, rfl⟩) fun _ _ => rfl
  | unsupported type id name => by
    have hobject := (TypeName.linear_cmp.at type).lex ((linear_cmpOption Identity.linear_cmp).at id)
    have hparts := hobject.lex ((linear_cmpOption linear_compare).at name)
    refine hparts.kind cmp_of_rank_ne (fun parts => unsupported parts.1.1 parts.1.2 parts.2) ?_
      fun _ _ => rfl
    rintro ⟨⟩ ⟨⟩
    exact ⟨((_, _), _), rfl⟩
  | unknown token =>
    (Identity.linear_cmp.at token).kind cmp_of_rank_ne unknown
      (by rintro ⟨⟩ ⟨⟩; exact ⟨_, rfl⟩) fun _ _ => rfl
termination_by structural a => a

lemma linearAt_items : ∀ as : List IdentityKey, ∀ a ∈ as, LinearAt cmp a
  | [] => by simp
  | a :: as => List.forall_mem_cons.2 ⟨linearAt_cmp a, linearAt_items as⟩
termination_by structural as => as

lemma linearAt_entries : ∀ as : List (Key × IdentityKey), ∀ a ∈ as,
    LinearAt (fun a b : Key × IdentityKey => (a.1.cmp b.1).then (a.2.cmp b.2)) a
  | [] => by simp
  | (key, a) :: as =>
    List.forall_mem_cons.2 ⟨(Key.linear_cmp.at key).lex (linearAt_cmp a), linearAt_entries as⟩
termination_by structural as => as

end

/-- Identity keys are in one line. -/
lemma linear_cmp : Linear cmp := .of_at linearAt_cmp

end IdentityKey

end GuardedTrace
