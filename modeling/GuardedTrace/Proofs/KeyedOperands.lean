/-
Operands of values with equal identity keys.

The identity key of a value says by itself which operand the value becomes and which nodes are
recorded on the way (`IdentityKey.operand`), because what a key forgets, names, guards and facts, is
no part of operands.  Only the support states are looked at besides: a value that is unsupported, or
has an unsupported part, becomes no operand.  So two values with one key become the same operand
whenever both become one, and without unsupported parts they also fail together.
-/
import GuardedTrace.Proofs.NestedValues
import GuardedTrace.Symbolic.IdentityKey
import GuardedTrace.Symbolic.Operand

namespace GuardedTrace

/-- The operand of a container with these items; a slice has three bounds. -/
def SequenceKind.operand? : SequenceKind → List Operand → Option Operand
  | list, items => some (.list items)
  | tuple, items => some (.tuple items)
  | slice, [start, stop, step] => some (.slice start stop step)
  | slice, _ => none

namespace IdentityKey

mutual

/-- The operand that values with this key become, and the builder after the nodes that it needs. -/
def operand : IdentityKey → Builder → Option Operand × Builder
  | array node, builder | scalar node, builder => (some (.node node), builder)
  | constant literal, builder => (some (.literal literal), builder)
  | host (.elementType type), builder => (some (.literal (.elementType type)), builder)
  | host (.device place), builder => (some (.literal (.device place)), builder)
  | sequence kind items, builder =>
    let (args, builder) := operands items builder
    (args.bind kind.operand?, builder)
  | dict entries, builder =>
    let (args, builder) := operandEntries entries builder
    (args.map .dict, builder)
  | attr holder name, builder =>
    match operand holder builder with
    | (some (.node base), builder) =>
      let (id, builder) := builder.record (.readAttr name) [.node base]
      (some (.node id), builder)
    | (_, builder) => (none, builder)
  | _, builder => (none, builder)
termination_by structural key => key

/-- The operands of keys, from left to right; the first that has none ends it. -/
def operands : List IdentityKey → Builder → Option (List Operand) × Builder
  | [], builder => (some [], builder)
  | item :: rest, builder =>
    match operand item builder with
    | (none, builder) => (none, builder)
    | (some arg, builder) =>
      let (args, builder) := operands rest builder
      (args.map (arg :: ·), builder)
termination_by structural items => items

def operandEntries : List (Key × IdentityKey) → Builder → Option (List (Key × Operand)) × Builder
  | [], builder => (some [], builder)
  | (key, item) :: rest, builder =>
    match operand item builder with
    | (none, builder) => (none, builder)
    | (some arg, builder) =>
      let (args, builder) := operandEntries rest builder
      (args.map ((key, arg) :: ·), builder)
termination_by structural entries => entries

end

end IdentityKey

namespace Symbolic

/-- An answer without its report. -/
def settled {α : Type} (result : Answer α × Builder) : Option α × Builder :=
  (result.1.toOption, result.2)

lemma isOk_eq_isSome {α : Type} (answer : Answer α) : answer.isOk = answer.toOption.isSome := by
  cases answer <;> rfl

/-- The value can take part in a graph, as far as its support state goes. -/
def Supportable (value : Symbolic) : Prop := value.support ≠ .unsupported

lemma operandOfKind_sequence (kind : SequenceKind) (items : List Symbolic) (builder : Builder) :
    operandOfKind (.sequence kind items) builder = match operands items builder with
      | (.ok args, after) => (.ok (kind.operand? args), after)
      | (.error error, after) => (.error error, after) := by
  simp only [operandOfKind]
  cases operands items builder with
  | mk answer after =>
    cases answer with
    | error error => rfl
    | ok args =>
      cases kind with
      | list | tuple => rfl
      | slice =>
        match args with
        | [] | [_] | [_, _] | [_, _, _] | _ :: _ :: _ :: _ :: _ => rfl

mutual

/-- Without unsupported parts, the key of a value decides on its operand. -/
lemma settled_operand : ∀ {value : Symbolic}, value.Throughout Supportable → ∀ builder : Builder,
    settled (value.operand builder) = value.identityKey.operand builder
  | ⟨kind, support, guards, localName, globalName⟩, h, builder => by
    obtain ⟨hsupport, hkind⟩ := h
    have hparts := settled_operandOfKind (localName.or globalName) hkind builder
    rw [operand, if_neg hsupport, identityKey, ← hparts]
    rcases operandOfKind kind builder with ⟨_ | _ | _, _⟩ <;> rfl
termination_by structural value => value

lemma settled_operandOfKind (name : Option String) :
    ∀ {kind : Kind}, ThroughoutKind Supportable kind →
    ∀ builder : Builder, (settled (operandOfKind kind builder)).map Option.join id =
      (identityKeyOfKind name kind).operand builder
  | .array _, _, _ | .scalar _, _, _ | .constant _, _, _ | .host (.elementType _), _, _
  | .host (.device _), _, _ => rfl
  | .sequence kind items, h, builder => by
    have hitems := settled_operands h builder
    rw [identityKeyOfKind, IdentityKey.operand, ← hitems, operandOfKind_sequence]
    rcases operands items builder with ⟨_ | _, _⟩ <;> rfl
  | .dict entries, h, builder => by
    have hentries := settled_operandEntries h builder
    rw [identityKeyOfKind, IdentityKey.operand, ← hentries, operandOfKind]
    rcases operandEntries entries builder with ⟨_ | _, _⟩ <;> rfl
  | .attr holder attr, h, builder => by
    have hholder := settled_operand h builder
    rw [identityKeyOfKind, IdentityKey.operand, ← hholder, operandOfKind]
    rcases operand holder builder with ⟨_ | _ | _ | _ | _ | _ | _, _⟩ <;> rfl
  | .layer .., _, _ | .deferred _, _, _ | .builtin _, _, _ | .iterator .., _, _ | .routine _, _, _
  | .method .., _, _ | .host (.primitive _), _, _ | .library _, _, _ | .unsupported .., _, _
  | .unknown _, _, _ => rfl
termination_by structural kind => kind

lemma settled_operands : ∀ {items : List Symbolic}, ThroughoutItems Supportable items →
    ∀ builder : Builder,
    settled (operands items builder) = IdentityKey.operands (identityKeys items) builder
  | [], _, _ => rfl
  | item :: rest, h, builder => by
    have hitem := settled_operand h.1 builder
    rw [identityKeys, IdentityKey.operands, ← hitem, operands]
    rcases operand item builder with ⟨_ | arg, after⟩
    · rfl
    · have hrest := settled_operands h.2 after
      simp only [settled, Except.toOption, ← hrest]
      rcases operands rest after with ⟨_ | _, _⟩ <;> rfl
termination_by structural items => items

lemma settled_operandEntries :
    ∀ {entries : List (Key × Symbolic)}, ThroughoutEntries Supportable entries →
    ∀ builder : Builder, settled (operandEntries entries builder) =
      IdentityKey.operandEntries (identityKeyEntries entries) builder
  | [], _, _ => rfl
  | (key, item) :: rest, h, builder => by
    have hitem := settled_operand h.1 builder
    rw [identityKeyEntries, IdentityKey.operandEntries, ← hitem, operandEntries]
    rcases operand item builder with ⟨_ | arg, after⟩
    · rfl
    · have hrest := settled_operandEntries h.2 after
      simp only [settled, Except.toOption, ← hrest]
      rcases operandEntries rest after with ⟨_ | _, _⟩ <;> rfl
termination_by structural entries => entries

end

mutual

/-- A value that becomes an operand has no unsupported part: every nested value was made an operand
as well. -/
lemma throughout_of_operand : ∀ {value : Symbolic} {builder after : Builder} {found : Operand},
    value.operand builder = (.ok found, after) → value.Throughout Supportable
  | ⟨kind, support, guards, localName, globalName⟩, builder, after, found, h => by
    simp only [operand] at h
    split at h
    · cases h
    · next hsupport =>
      split at h
      · next result hparts => exact ⟨hsupport, throughout_of_operandOfKind hparts⟩
      · cases h
      · cases h
termination_by structural value => value

lemma throughout_of_operandOfKind : ∀ {kind : Kind} {builder after : Builder} {found : Operand},
    operandOfKind kind builder = (.ok (some found), after) → ThroughoutKind Supportable kind
  | .array _, _, _, _, _ | .scalar _, _, _, _, _ | .constant _, _, _, _, _
  | .host _, _, _, _, _ => trivial
  | .sequence kind items, builder, after, found, h => by
    rw [operandOfKind_sequence] at h
    split at h
    · next hitems => exact throughout_of_operands hitems
    · cases h
  | .dict entries, builder, after, found, h => by
    rw [operandOfKind] at h
    split at h
    · next args middle hentries => exact throughout_of_operandEntries hentries
    · cases h
  | .attr holder _, builder, after, found, h => by
    rw [operandOfKind] at h
    split at h
    · next hholder => exact throughout_of_operand hholder
    · next hholder => exact throughout_of_operand hholder
    · cases h
  | .layer .., _, _, _, h | .deferred _, _, _, _, h | .builtin _, _, _, _, h
  | .iterator .., _, _, _, h
  | .routine _, _, _, _, h | .method .., _, _, _, h | .library _, _, _, _, h
  | .unsupported .., _, _, _, h
  | .unknown _, _, _, _, h => by cases h
termination_by structural kind => kind

lemma throughout_of_operands :
    ∀ {items : List Symbolic} {builder after : Builder} {args : List Operand},
    operands items builder = (.ok args, after) → ThroughoutItems Supportable items
  | [], _, _, _, _ => trivial
  | item :: rest, builder, after, args, h => by
    rw [operands] at h
    split at h
    · cases h
    · next arg middle hitem =>
      split at h
      · next hrest => exact ⟨throughout_of_operand hitem, throughout_of_operands hrest⟩
      · cases h
termination_by structural items => items

lemma throughout_of_operandEntries : ∀ {entries : List (Key × Symbolic)} {builder after : Builder}
    {args : List (Key × Operand)},
    operandEntries entries builder = (.ok args, after) → ThroughoutEntries Supportable entries
  | [], _, _, _, _ => trivial
  | (key, item) :: rest, builder, after, args, h => by
    rw [operandEntries] at h
    split at h
    · cases h
    · next arg middle hitem =>
      split at h
      · next hrest => exact ⟨throughout_of_operand hitem, throughout_of_operandEntries hrest⟩
      · cases h
termination_by structural entries => entries

end

/-- **Equal identity keys, equal operands.**  Values with one key, offered to one builder, become
the same operand and leave the same builder whenever both become an operand.  When no value in them
is unsupported, they also fail together, and leave the same builder then. -/
theorem interchangeable_of_identityKey_eq {a b : Symbolic} (h : a.identityKey = b.identityKey)
    (builder : Builder) :
    (∀ x y after last, a.operand builder = (.ok x, after) → b.operand builder = (.ok y, last) →
      x = y ∧ after = last) ∧
    (a.Throughout Supportable → b.Throughout Supportable →
      ((a.operand builder).1.isOk ↔ (b.operand builder).1.isOk) ∧
        (a.operand builder).2 = (b.operand builder).2) := by
  have hsettled (ha : a.Throughout Supportable) (hb : b.Throughout Supportable) :
      settled (a.operand builder) = settled (b.operand builder) := by
    rw [settled_operand ha, settled_operand hb, h]
  refine ⟨fun x y after last hx hy => ?_, fun ha hb => ?_⟩
  · have hequal := hsettled (throughout_of_operand hx) (throughout_of_operand hy)
    rw [hx, hy] at hequal
    obtain ⟨hanswers, hbuilders⟩ := Prod.mk.inj hequal
    exact ⟨Option.some.inj hanswers, hbuilders⟩
  · obtain ⟨hanswers, hbuilders⟩ := Prod.mk.inj (hsettled ha hb)
    refine ⟨?_, hbuilders⟩
    rw [isOk_eq_isSome, isOk_eq_isSome, hanswers]

/-- An attribute of an array and a number, in a tuple that was read from a local variable. -/
def boundPair : Symbolic :=
  let array : Symbolic := { ofKind (.array { node := 0, rank := some 2 }) with
    guards := [⟨"p[0]", .locals, .typeMatch .array⟩]
    localName := some "p[0]" }
  { sequence .tuple [derived (.attr array "T") [array], constant (.int 3)] with
    localName := some "p" }

/-- The same pair as a program builds it from an array of which less is known. -/
def builtPair : Symbolic :=
  sequence .tuple [ofKind (.attr (ofKind (.array { node := 0 })) "T"), constant (.int 3)]

/-- The pairs differ in names, guards and facts, but become the same operand, for which the
attribute is recorded. -/
theorem boundPair_interchangeable :
    let builder := (Builder.record {} (.placeholder "p[0]") []).2
    boundPair.identityKey = builtPair.identityKey ∧ boundPair.guards ≠ builtPair.guards ∧
      boundPair.Throughout Supportable ∧ builtPair.Throughout Supportable ∧
      ∃ after, boundPair.operand builder = (.ok (.tuple [.node 1, .literal (.int 3)]), after) ∧
        builtPair.operand builder = (.ok (.tuple [.node 1, .literal (.int 3)]), after) := by
  intro builder
  have hkeys : boundPair.identityKey = builtPair.identityKey := rfl
  have hbound : boundPair.Throughout Supportable := by
    simp [boundPair, sequence, derived, inherit, propagate, ofKind, constant,
      Throughout, ThroughoutKind,
      ThroughoutItems, Supportable, Support.combine, Support.rank, Kind.support]
  have hbuilt : builtPair.Throughout Supportable := by
    simp [builtPair, sequence, derived, inherit, propagate, ofKind, constant,
      Throughout, ThroughoutKind,
      ThroughoutItems, Supportable, Support.combine, Support.rank, Kind.support]
  obtain ⟨hsame, hfail⟩ := interchangeable_of_identityKey_eq hkeys builder
  have hoperand : (boundPair.operand builder).1 = .ok (.tuple [.node 1, .literal (.int 3)]) := by
    decide +kernel
  -- The pair that was read becomes an operand, so the other one does, and it is the same.
  have hok : (builtPair.operand builder).1.isOk := by
    rw [← (hfail hbound hbuilt).1, hoperand]
    rfl
  refine ⟨hkeys, by decide, hbound, hbuilt, (boundPair.operand builder).2,
    Prod.ext hoperand rfl, ?_⟩
  cases hother : builtPair.operand builder with
  | mk answer last =>
    cases answer with
    | error error =>
      rw [hother] at hok
      cases hok
    | ok found =>
      obtain ⟨rfl, rfl⟩ := hsame _ _ _ _ (Prod.ext hoperand rfl) hother
      rfl

end Symbolic

end GuardedTrace
