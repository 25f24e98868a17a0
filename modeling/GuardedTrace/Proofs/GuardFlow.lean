/-
Guards flow with the data.

A value *carries* operands when their guards are among its own.  Every part of a trace that makes a
value from operands makes one that carries them.  An instruction takes a number of values from the
stack and puts others in their place; each of these carries all that were taken, the pure moves of
the stack apart.  The guards of what is put on the stack become guards of the trace, which are never
dropped.
-/
import GuardedTrace.Proofs.TracedGuards

namespace GuardedTrace

namespace Symbolic

variable {value key callee item : Symbolic} {operands others args items : List Symbolic}

/-- The guards of the operands are guards of the value. -/
def Carries (operands : List Symbolic) (value : Symbolic) : Prop :=
  ∀ operand ∈ operands, ∀ guard ∈ operand.guards, guard ∈ value.guards

lemma Carries.mono (h : value.Carries operands) (hsub : others ⊆ operands) : value.Carries others :=
  fun operand hoperand => h operand (hsub hoperand)

lemma carries_nil (value : Symbolic) : value.Carries [] := nofun

lemma carries_derived (kind : Kind) (operands : List Symbolic) :
    (derived kind operands).Carries operands :=
  fun operand hoperand _ hguard => mem_derived.2 ⟨operand, hoperand, hguard⟩

lemma carries_inherit (value : Symbolic) (operands : List Symbolic) :
    (value.inherit (propagate operands)).Carries operands :=
  fun operand hoperand _ hguard =>
    GuardSet.mem_union.2 (Or.inr (mem_propagate.2 ⟨operand, hoperand, hguard⟩))

lemma carries_addGuards (value operand : Symbolic) :
    (value.addGuards operand.guards).Carries [operand] := by
  intro other hother guard hguard
  obtain rfl := List.mem_singleton.1 hother
  exact GuardSet.mem_union.2 (Or.inr hguard)

/-! ### Containers -/

lemma carries_of_layerItems (h : value.layerItems = .ok items) :
    ∀ item ∈ items, item.Carries [value] := by
  unfold layerItems at h
  split at h
  · split at h
    · cases h
      intro item hitem
      obtain ⟨position, hposition, rfl⟩ := List.mem_mapIdx.1 hitem
      exact carries_derived _ _
    · cases h
  · cases h

lemma carries_of_items (h : value.items = .ok items) : ∀ item ∈ items, item.Carries [value] := by
  have hparts (parts : List Symbolic) :
      ∀ item ∈ parts.map (·.addGuards value.guards), item.Carries [value] := by
    intro item hitem
    obtain ⟨part, -, rfl⟩ := List.mem_map.1 hitem
    exact carries_addGuards part value
  unfold Symbolic.items at h
  split at h
  · cases h
    exact hparts _
  · cases h
    exact hparts _
  · split at h
    · cases h
      intro item hitem
      obtain ⟨literal, -, rfl⟩ := List.mem_map.1 hitem
      exact carries_derived _ _
    · cases h
  · exact carries_of_layerItems h
  · cases h

lemma carries_of_sequenceItem {kind : SequenceKind} {index : Literal}
    (h : value.sequenceItem kind items key index = .ok item) : item.Carries [value, key] := by
  unfold sequenceItem at h
  split at h
  · split at h
    · cases h
      exact carries_derived _ _
    · cases h
  · split at h
    · cases h
    · split at h
      · cases h
        exact carries_inherit _ _
      · cases h

lemma carries_of_layerItem {index : Int64} (h : value.layerItem index key = .ok item) :
    item.Carries [value, key] := by
  unfold layerItem at h
  split at h
  · split at h
    · cases h
    · split at h
      · cases h
        exact carries_derived _ _
      · cases h
  · cases h

lemma carries_of_getItem (h : value.getItem key = .ok item) : item.Carries [value, key] := by
  obtain ⟨index, -, h⟩ := except_bind_eq_ok.1 h
  split at h
  · exact carries_of_sequenceItem h
  · exact carries_of_sequenceItem h
  · split at h
    · cases h
    · split at h
      · cases h
        exact carries_inherit _ _
      · cases h
  · split at h
    · cases h
      exact carries_derived _ _
    · cases h
  · split at h
    · exact carries_of_layerItem h
    · cases h
  · cases h

lemma carries_of_iterate {iterator : Symbolic} (h : value.iterate = .ok iterator) :
    iterator.Carries [value] := by
  obtain ⟨items, -, rfl⟩ := except_map_eq_ok.1 h
  exact carries_derived _ _

lemma carries_of_advance {next : Symbolic} (h : value.advance = .ok (some (item, next))) :
    item.Carries [value] ∧ next.Carries [value] := by
  unfold advance at h
  split at h
  · split at h
    · cases h
    · cases h
      refine ⟨carries_addGuards _ value, fun other hother guard hguard => ?_⟩
      obtain rfl := List.mem_singleton.1 hother
      exact hguard
  · cases h

/-! ### Calls and attributes -/

lemma carries_of_callDeferred {result : Symbolic} (h : callee.callDeferred args = .ok result) :
    result.Carries (callee :: args) := by
  have hresult (literal : Literal) :
      (derived (.constant literal) (callee :: args)).Carries (callee :: args) :=
    carries_derived _ _
  unfold callDeferred at h
  split at h
  · obtain ⟨literal, -, h⟩ := except_bind_eq_ok.1 h
    match args, h with
    | [], h =>
      cases h
      exact hresult literal
    | [index], h =>
      obtain ⟨key, -, h⟩ := except_bind_eq_ok.1 h
      split at h
      · cases h
        exact hresult _
      · cases h
    | _ :: _ :: _, h => cases h
  · cases h

lemma carries_of_constAttr? {name : String} {attr : Symbolic}
    (h : value.constAttr? name = some attr) :
    attr.Carries [value] := by
  unfold constAttr? at h
  split at h
  · obtain ⟨literal, -, rfl⟩ := Option.map_eq_some_iff.1 h
    dsimp only
    split <;> exact carries_derived _ _
  · cases h

lemma carries_lazyAttr (value : Symbolic) (name : String) :
    (TraceM.lazyAttr value name).Carries [value] :=
  carries_derived _ _

lemma carries_constOrLazyAttr (value : Symbolic) (name : String) :
    (TraceM.constOrLazyAttr value name).Carries [value] := by
  unfold TraceM.constOrLazyAttr
  split
  · exact carries_derived _ _
  · exact carries_lazyAttr value name

end Symbolic

namespace TraceM

open Symbolic (Carries carries_derived carries_inherit)

variable {α β : Type} {value key callee : Symbolic} {args : List Symbolic}

/-! ### Results of computations -/

namespace Returns

lemma carries_unknown (args : List Symbolic) : Returns (Carries args) (TraceM.unknown args) := by
  intro state value after hx
  cases hx
  exact carries_derived _ _

lemma carries_emitCall (function : Primitive) (args : List Symbolic) :
    Returns (Carries args) (TraceM.emitCall function args) :=
  bind_any fun _ => bind_any fun _ => pure (carries_derived _ _)

lemma carries_binaryOp (function : Primitive) (lhs rhs : Symbolic) :
    Returns (Carries [lhs, rhs]) (TraceM.binaryOp function lhs rhs) := by
  unfold TraceM.binaryOp
  split
  · exact bind_any fun _ => bind_any fun _ => pure (carries_derived _ _)
  · refine ite (carries_emitCall _ _) ?_
    split
    · exact pure (carries_derived _ _)
    · exact carries_unknown _

lemma carries_negate (value : Symbolic) : Returns (Carries [value]) (TraceM.negate value) := by
  unfold TraceM.negate
  split
  · exact bind_any fun _ => bind_any fun _ => pure (carries_derived _ _)
  · exact ite (carries_emitCall _ _) (carries_unknown _)

lemma carries_layerAttr (config : Config) (holder : Symbolic) (path : String)
    (layer : Layer) (name : String) :
    Returns (Carries [holder]) (TraceM.layerAttr config holder path layer name) := by
  refine bind_any fun member => ?_
  split
  · exact pure (carries_derived _ _)
  · exact bind_any fun _ => bind_any fun _ => pure (carries_derived _ _)
  · exact pure (carries_derived _ _)
  · exact pure (carries_derived _ _)
  · split
    · exact pure (carries_derived _ _)
    · exact pure (Symbolic.carries_lazyAttr _ _)

lemma carries_getAttr (config : Config) (holder : Symbolic) (name : String) :
    Returns (Carries [holder]) (TraceM.getAttr config holder name) := by
  unfold TraceM.getAttr
  split
  · exact carries_layerAttr _ _ _ _ _
  · split
    · exact bind_any fun _ => bind_any fun wrapped =>
        pure (Symbolic.carries_addGuards wrapped holder)
    · exact pure (Symbolic.carries_constOrLazyAttr _ _)
  · refine pure ?_
    cases hattr : holder.constAttr? name with
    | none => exact Symbolic.carries_lazyAttr _ _
    | some attr => exact Symbolic.carries_of_constAttr? hattr
  · exact pure (Symbolic.carries_constOrLazyAttr _ _)
  · exact pure (Symbolic.carries_lazyAttr _ _)
  · exact bind_any fun _ => pure (carries_derived _ _)
  · exact carries_unknown _

lemma carries_subscript (container key : Symbolic) :
    Returns (Carries [container, key]) (TraceM.subscript container key) := by
  unfold TraceM.subscript
  refine ite (ite (carries_emitCall _ _) (ofAnswer fun _ => Symbolic.carries_of_getItem)) ?_
  split
  · exact ite (carries_emitCall _ _) breakOff
  · exact breakOff

lemma carries_buildDict (keys : Symbolic) (values : List Symbolic) :
    Returns (Carries (keys :: values)) (TraceM.buildDict keys values) := by
  refine bind_any fun literal => ?_
  split
  · exact ite (bind_any fun _ => pure (carries_derived _ _)) breakOff
  · exact breakOff

lemma carries_arrayRows (array : Symbolic) : ∀ rows : List Nat,
    Returns (fun items => ∀ item ∈ items, item.Carries [array]) (TraceM.arrayRows array rows)
  | [] => pure (by simp)
  | row :: rest => by
    refine bind_any fun index => bind (carries_emitCall _ _) fun item hitem =>
      bind (carries_arrayRows array rest) fun others hothers =>
        pure (List.forall_mem_cons.2 ⟨?_, hothers⟩)
    exact hitem.mono (by simp)

lemma carries_unpackItems (value : Symbolic) (expected : Nat) :
    Returns (fun items => ∀ item ∈ items, item.Carries [value])
      (TraceM.unpackItems value expected) := by
  unfold TraceM.unpackItems
  split
  · exact bind_any fun rows => ite (carries_arrayRows value _) breakOff
  · exact bind (ofAnswer fun _ => Symbolic.carries_of_items) fun items hitems =>
      ite (pure hitems) breakOff

lemma carries_foldBuiltin (function : Builtin) (callee : Symbolic) (args : List Symbolic) :
    Returns (Carries (callee :: args)) (TraceM.foldBuiltin function callee args) := by
  unfold TraceM.foldBuiltin
  dsimp only
  split
  · exact bind_any fun _ => bind_any fun _ => pure (carries_inherit _ _)
  · split
    · exact ite (bind_any fun _ => pure (carries_inherit _ _)) breakOff
    · exact breakOff

lemma carries_callLength (callee container : Symbolic) :
    Returns (Carries [callee, container]) (TraceM.callLength callee container) := by
  unfold TraceM.callLength
  dsimp only
  split
  · exact bind_any fun _ => pure (carries_inherit _ _)
  · exact bind_any fun _ => pure (carries_inherit _ _)
  · exact carries_foldBuiltin _ _ _

lemma carries_callBuiltin (function : Builtin) (callee : Symbolic) (args : List Symbolic) :
    Returns (Carries (callee :: args)) (TraceM.callBuiltin function callee args) := by
  unfold TraceM.callBuiltin
  split
  · exact carries_callLength _ _
  · exact carries_foldBuiltin _ _ _

lemma carries_callLayer (config : Config) (path : String) (layer : Layer) (callee : Symbolic)
    (args : List Symbolic) :
    Returns (Carries (callee :: args)) (TraceM.callLayer config path layer callee args) := by
  unfold TraceM.callLayer
  split
  · exact breakOff
  · exact breakOff
  · exact bind_any fun _ => bind_any fun _ => bind_any fun _ => pure (carries_derived _ _)

lemma carries_callValue (config : Config) (callee : Symbolic) (args : List Symbolic) :
    Returns (Carries (callee :: args)) (TraceM.callValue config callee args) := by
  unfold TraceM.callValue
  dsimp only
  split
  · exact ofAnswer fun _ => Symbolic.carries_of_callDeferred
  · exact carries_callBuiltin _ _ _
  · split
    · exact bind_any fun _ => bind_any fun _ => pure (carries_inherit _ _)
    · exact bind_any fun _ => pure (carries_inherit _ _)
  · exact carries_callLayer _ _ _ _ _
  · split
    · exact bind_any fun _ => pure (carries_inherit _ _)
    · exact breakOff
  all_goals exact breakOff

end Returns

/-! ### Values taken from the stack -/

/-- A part of a trace that takes `count` values from the stack, topmost first, and makes a result of
them. -/
def Takes (count : Nat) (R : List Symbolic → α → Prop) (x : TraceM α) : Prop :=
  ∀ state value after, x state = .ok (value, after) →
    ∃ popped, popped.length = count ∧ state.stack = popped ++ after.stack ∧ R popped value

/-- A part of a trace that puts values on the stack; their guards become guards of the trace. -/
def Pushes (pushed : List Symbolic) (x : TraceM α) : Prop :=
  ∀ state value after, x state = .ok (value, after) → after.stack = pushed ++ state.stack ∧
    (∀ guard ∈ state.guards, guard ∈ after.guards) ∧
      ∀ value ∈ pushed, ∀ guard ∈ value.guards, guard ∈ after.guards

/-- A part of a trace that takes `count` values from the stack and puts others in their place. -/
def Exchanges (count : Nat) (R : List Symbolic → List Symbolic → Prop) (x : TraceM α) : Prop :=
  ∀ state value after, x state = .ok (value, after) →
    ∃ popped pushed rest, popped.length = count ∧ state.stack = popped ++ rest ∧
      after.stack = pushed ++ rest ∧ R popped pushed ∧
        ∀ value ∈ pushed, ∀ guard ∈ value.guards, guard ∈ after.guards

namespace Pushes

variable {x : TraceM α} {f : α → TraceM β} {pushed above : List Symbolic}

lemma of_registers (h : Registers x) : Pushes [] x := by
  intro state value after hx
  have hrecords := h _ _ _ hx
  exact ⟨hrecords.stack, hrecords.guards, by simp⟩

lemma of_computes (h : Computes x) : Pushes [] x := of_registers h.registers

lemma pure (value : α) : Pushes [] (pure value : TraceM α) := of_computes (.pure value)

lemma bind (hx : Pushes pushed x) (hf : ∀ value, Pushes above (f value)) :
    Pushes (above ++ pushed) (x >>= f) := by
  intro state result after h
  obtain ⟨value, middle, hmiddle, hlast⟩ := bind_eq_ok.1 h
  obtain ⟨hstack, hkept, hnoted⟩ := hx _ _ _ hmiddle
  obtain ⟨hstack', hkept', hnoted'⟩ := hf _ _ _ _ hlast
  refine ⟨by rw [hstack', hstack, List.append_assoc], fun guard hguard => hkept' guard
    (hkept guard hguard), ?_⟩
  exact List.forall_mem_append.2
    ⟨hnoted', fun other hother guard hguard => hkept' guard (hnoted other hother guard hguard)⟩

lemma push (value : Symbolic) : Pushes [value] (push value) := by
  intro state result after h
  cases push_eq_ok.1 h
  refine ⟨rfl, fun guard hguard => GuardSet.mem_union.2 (Or.inl hguard),
    fun other hother guard hguard => ?_⟩
  obtain rfl := List.mem_singleton.1 hother
  exact GuardSet.mem_union.2 (Or.inr hguard)

lemma pushAll (values : List Symbolic) : Pushes values (pushAll values) := by
  induction values with
  | nil => exact pure ()
  | cons value rest ih => exact bind ih fun _ => push value

lemma get : Pushes [] (get : TraceM Tracer) := by
  intro state value after h
  cases h
  exact ⟨rfl, fun _ => id, by simp⟩

lemma storeLocal (name : String) (value : Symbolic) : Pushes []
    (modify fun state => { state with locals := state.locals.put name value } : TraceM Unit) := by
  intro state result after h
  cases h
  exact ⟨rfl, fun _ => id, by simp⟩

lemma loadLocal (context : TraceContext) (name : String) : Pushes [] (loadLocal context name) := by
  intro state value after h
  rcases loadLocal_eq_ok.1 h with ⟨-, rfl⟩ | ⟨-, live, middle, -, hwrap, rfl⟩
  · exact ⟨rfl, fun _ => id, by simp⟩
  · obtain ⟨hstack, hkept, hnoted⟩ := of_computes (.wrap _ _ _ _) _ _ _ hwrap
    exact ⟨hstack, hkept, hnoted⟩

lemma loadGlobal (context : TraceContext) (name : String) :
    Pushes [] (loadGlobal context name) := by
  intro state value after h
  rcases loadGlobal_eq_ok.1 h with ⟨-, rfl⟩ | ⟨-, middle, hwrap, rfl⟩
  · exact ⟨rfl, fun _ => id, by simp⟩
  · obtain ⟨hstack, hkept, hnoted⟩ := of_computes (.wrapGlobal _ _) _ _ _ hwrap
    exact ⟨hstack, hkept, hnoted⟩

end Pushes

namespace Takes

variable {x : TraceM α} {f : α → TraceM β} {count more : Nat} {R : List Symbolic → α → Prop}
  {S : List Symbolic → β → Prop}

/-- A result that is made without taking a value. -/
lemma of_returns (hx : Pushes [] x) (h : Returns (R []) x) : Takes 0 R x :=
  fun _ _ _ hok => ⟨[], rfl, (hx _ _ _ hok).1.symm, h _ _ _ hok⟩

lemma bind (hx : Takes count R x)
    (hf : ∀ first value, R first value → Takes more (fun second => S (first ++ second)) (f value)) :
    Takes (count + more) S (x >>= f) := by
  intro state result after h
  obtain ⟨value, middle, hmiddle, hlast⟩ := bind_eq_ok.1 h
  obtain ⟨first, rfl, hstack, hfirst⟩ := hx _ _ _ hmiddle
  obtain ⟨second, rfl, hstack', hsecond⟩ := hf first value hfirst _ _ _ hlast
  exact ⟨first ++ second, List.length_append, by rw [hstack, hstack', List.append_assoc], hsecond⟩

/-- Reading a value before values are taken. -/
lemma after_reading (hx : Pushes [] x) (hf : ∀ value, Takes count S (f value)) :
    Takes count S (x >>= f) := by
  intro state result after h
  obtain ⟨value, middle, hmiddle, hlast⟩ := bind_eq_ok.1 h
  rw [← List.nil_append state.stack, ← (hx _ _ _ hmiddle).1]
  exact hf value _ _ _ hlast

lemma pop : Takes 1 (fun popped value => popped = [value]) pop := by
  intro state value after h
  obtain ⟨rest, hstack, rfl⟩ := pop_eq_ok.1 h
  exact ⟨[value], rfl, hstack, rfl⟩

lemma popTwo : Takes 2 (fun popped pair => popped = [pair.2, pair.1]) popTwo := by
  rintro state ⟨second, top⟩ after h
  obtain ⟨rest, hstack, rfl⟩ := popTwo_eq_ok.1 h
  exact ⟨[top, second], rfl, hstack, rfl⟩

lemma popMany (count : Nat) :
    Takes count (fun popped values => popped = values.reverse) (popMany count) := by
  intro state values after h
  obtain ⟨rest, hstack, rfl, rfl⟩ := popMany_eq_ok.1 h
  exact ⟨values.reverse, List.length_reverse, hstack, rfl⟩

end Takes

/-- Every pushed value carries all that were popped. -/
def CarryAll (popped pushed : List Symbolic) : Prop := ∀ value ∈ pushed, value.Carries popped

namespace Exchanges

variable {x : TraceM α} {f : α → TraceM β} {count more : Nat} {R : List Symbolic → α → Prop}
  {S : List Symbolic → List Symbolic → Prop} {pushed : List Symbolic}

lemma of_pushes (h : Pushes pushed x) (hpushed : S [] pushed) : Exchanges 0 S x := by
  intro state value after hx
  obtain ⟨hstack, -, hnoted⟩ := h _ _ _ hx
  exact ⟨[], pushed, state.stack, rfl, rfl, hstack, hpushed, hnoted⟩

lemma bind (hx : Takes count R x)
    (hf : ∀ first value, R first value →
      Exchanges more (fun second => S (first ++ second)) (f value)) :
    Exchanges (count + more) S (x >>= f) := by
  intro state result after h
  obtain ⟨value, middle, hmiddle, hlast⟩ := bind_eq_ok.1 h
  obtain ⟨first, rfl, hstack, hfirst⟩ := hx _ _ _ hmiddle
  obtain ⟨second, pushed, rest, rfl, hstack', hafter, hpushed, hnoted⟩ :=
    hf first value hfirst _ _ _ hlast
  exact ⟨first ++ second, pushed, rest, List.length_append,
    by rw [hstack, hstack', List.append_assoc], hafter, hpushed, hnoted⟩

/-- A part that only computes, with a property of its result. -/
lemma computing {P : α → Prop} (hx : Pushes [] x) (h : Returns P x)
    (hf : ∀ value, P value → Exchanges count S (f value)) : Exchanges count S (x >>= f) := by
  intro state result after hok
  obtain ⟨value, middle, hmiddle, hlast⟩ := bind_eq_ok.1 hok
  rw [← List.nil_append state.stack, ← (hx _ _ _ hmiddle).1]
  exact hf value (h _ _ _ hmiddle) _ _ _ hlast

lemma breakOff {cause : BreakCause} : Exchanges count S (breakOff cause : TraceM α) := nofun

/-! ### Instructions -/

lemma pushing {result : TraceM Symbolic}
    (h : Takes count (fun popped value => value.Carries popped) result) :
    Exchanges count CarryAll (pushing result) :=
  bind h fun popped value hvalue => of_pushes (.bind (.push value) fun _ => .pure _)
    (by simpa [CarryAll] using hvalue)

/-- A loaded value has no operands. -/
lemma loading {result : TraceM Symbolic} (h : Pushes [] result) :
    Exchanges 0 CarryAll (TraceM.pushing result) :=
  pushing (.of_returns h fun _ value _ _ => Symbolic.carries_nil value)

lemma stackBinary (function : Primitive) : Exchanges 2 CarryAll (stackBinary function) := by
  refine pushing (.bind .popTwo fun popped pair hpair =>
    .of_returns (.of_computes (.binaryOp _ _ _)) ?_)
  exact fun _ _ _ hx => (Returns.carries_binaryOp _ _ _ _ _ _ hx).mono (by simp [hpair])

/-- A sequence of popped values, and perhaps of others. -/
lemma sequence (count : Nat) (kind : SequenceKind) {arrange : List Symbolic → List Symbolic}
    (h : ∀ items, items ⊆ arrange items) :
    Takes count (fun popped value => value.Carries popped)
      (popMany count >>= fun items => Pure.pure (Symbolic.sequence kind (arrange items))) := by
  refine .bind (.popMany count) fun popped items hitems => .of_returns (.pure _) (.pure ?_)
  subst hitems
  rw [List.append_nil]
  exact (carries_derived _ _).mono fun item hitem => h items (List.mem_reverse.1 hitem)

lemma buildSlice (count : UInt32) :
    Takes count.toNat (fun popped value => value.Carries popped) (buildSlice count) := by
  unfold TraceM.buildSlice
  split
  · next hcount =>
    subst hcount
    exact sequence 2 .slice fun items => List.subset_append_left items _
  · split
    · next hcount =>
      subst hcount
      exact sequence 3 .slice fun items => List.Subset.refl items
    · nofun

/-- The next item and the iterator after it both come from the iterator. -/
lemma forIter (target : UInt32) : Exchanges 1 CarryAll (forIter target) := by
  change Exchanges (1 + 0) CarryAll (TraceM.forIter target)
  refine bind .pop fun popped iterator hiterator => computing (.of_computes (.ofAnswer _))
    (.ofAnswer fun _ hadvance => hadvance) fun result hadvance => ?_
  subst hiterator
  split
  · next item next =>
    obtain ⟨hitem, hnext⟩ := Symbolic.carries_of_advance hadvance
    refine of_pushes (.bind (.push next) fun _ => .bind (.push item) fun _ => .pure _) ?_
    simpa [CarryAll] using ⟨hitem, hnext⟩
  · exact of_pushes (.pure _) (by simp [CarryAll])

lemma unpackSequence (expected : Nat) : Exchanges 1 CarryAll (do
    let items ← unpackItems (← pop) expected
    pushAll items
    Pure.pure Flow.next) := by
  change Exchanges (1 + 0) CarryAll _
  refine bind .pop fun popped value hvalue => computing (.of_computes (.unpackItems _ _))
    (Returns.carries_unpackItems value expected) fun items hitems => ?_
  subst hvalue
  exact of_pushes (.bind (.pushAll items) fun _ => .pure _) (by simpa [CarryAll] using hitems)

lemma popJump (target : UInt32) (jumpWhen : Bool) :
    Exchanges 1 CarryAll (popJump target jumpWhen) :=
  bind .pop fun _ condition _ => of_pushes
    (.bind (.of_computes (.staticTruth condition)) fun _ => .pure _) (by simp [CarryAll])

end Exchanges

end TraceM

/-- The pure moves of the stack. -/
def Opcode.IsMove (opcode : Opcode) : Prop := opcode = .rotTwo ∨ opcode = .dupTop

/-- The number of values that an instruction pops. -/
def Instruction.pops (instruction : Instruction) : Nat :=
  match instruction.opcode with
  | .nop | .dupTop | .loadConst | .loadFast | .loadGlobal | .jumpAbsolute => 0
  | .popTop | .storeFast | .loadAttr | .loadMethod | .unaryNegative | .unpackSequence | .getIter
  | .forIter | .popJumpIfFalse | .popJumpIfTrue | .returnValue => 1
  | .rotTwo | .binaryAdd | .binarySubtract | .binaryMultiply | .binaryTrueDivide
  | .binaryFloorDivide
  | .binaryModulo | .compareOp | .binarySubscr => 2
  | .buildTuple | .buildList | .buildSlice => instruction.operand.toNat
  | .callFunction | .callMethod => instruction.operand.toNat + 1
  | .buildConstKeyMap => 1 + instruction.operand.toNat

namespace TraceM

/-- What one instruction does: it puts values on the stack in the place of others, and unless it
only moves values, each one carries all that were taken. -/
lemma Exchanges.step (context : TraceContext) (instruction : Instruction) :
    Exchanges instruction.pops (fun popped pushed => ¬ instruction.opcode.IsMove →
      CarryAll popped pushed)
      (step context instruction) := by
  have hexchanges {count : Nat} (h : Exchanges count CarryAll (TraceM.step context instruction)) :
      Exchanges count (fun popped pushed => ¬ instruction.opcode.IsMove → CarryAll popped pushed)
        (TraceM.step context instruction) := by
    intro state flow after hstep
    obtain ⟨popped, pushed, rest, hcount, hstack, hafter, hcarry, hnoted⟩ := h _ _ _ hstep
    exact ⟨popped, pushed, rest, hcount, hstack, hafter, fun _ => hcarry, hnoted⟩
  have hnone (popped : List Symbolic) : CarryAll popped [] := by simp [CarryAll]
  obtain ⟨opcode, argument⟩ := instruction
  cases opcode with
  | rotTwo =>
    refine bind .popTwo fun popped pair _ => of_pushes (.bind (.push pair.2) fun _ =>
      .bind (.push pair.1) fun _ => .pure _) fun hmove => absurd (Or.inl rfl) hmove
  | dupTop =>
    refine computing .get (.any _) fun state _ => ?_
    split
    · next top rest hstack =>
      exact of_pushes (.bind (.push top) fun _ => .pure _) fun hmove => absurd (Or.inr rfl) hmove
    · exact breakOff
  | nop | jumpAbsolute => exact hexchanges (of_pushes (.pure _) (hnone _))
  | popTop => exact hexchanges (bind .pop fun _ _ _ => of_pushes (.pure _) (hnone _))
  | loadConst =>
    exact hexchanges (loading (.bind (.of_computes (.ofOption _ _)) fun _ => .pure _))
  | loadFast =>
    exact hexchanges (loading (.bind (.of_computes (.ofOption _ _)) fun _ => .loadLocal _ _))
  | loadGlobal =>
    exact hexchanges (loading (.bind (.of_computes (.ofOption _ _)) fun _ => .loadGlobal _ _))
  | storeFast =>
    exact hexchanges (computing (.of_computes (.ofOption _ _)) (.any _) fun name _ =>
      bind .pop fun _ value _ =>
      of_pushes (.bind (.storeLocal name value) fun _ => .pure _) (hnone _))
  | loadAttr | loadMethod =>
    refine hexchanges (pushing (.after_reading (.of_computes (.ofOption _ _)) fun name =>
      .bind .pop fun popped holder hholder => .of_returns (.of_registers (.getAttr _ _ _)) ?_))
    subst hholder
    exact Returns.carries_getAttr _ _ _
  | callFunction | callMethod =>
    -- The callee lies below its arguments.
    refine hexchanges (pushing (.bind (.popMany _) fun above args hargs =>
      .bind .pop fun popped callee hcallee => .of_returns (.of_registers (.callValue _ _ _)) ?_))
    subst hargs hcallee
    exact fun _ _ _ hcall => (Returns.carries_callValue _ _ _ _ _ _ hcall).mono
      (by intro; simp; tauto)
  | binaryAdd | binarySubtract | binaryMultiply | binaryTrueDivide | binaryFloorDivide
  | binaryModulo =>
    exact hexchanges (stackBinary _)
  | compareOp =>
    exact hexchanges (computing (.of_computes (.ofOption _ _)) (.any _) fun _ _ => stackBinary _)
  | unaryNegative =>
    refine hexchanges (pushing
      (.bind .pop fun popped value hvalue => .of_returns (.of_computes (.negate _)) ?_))
    subst hvalue
    exact Returns.carries_negate _
  | binarySubscr =>
    refine hexchanges (pushing (.bind .popTwo fun popped pair hpair =>
      .of_returns (.of_computes (.subscript _ _)) ?_))
    subst hpair
    exact fun _ _ _ hx => (Returns.carries_subscript _ _ _ _ _ hx).mono (by simp)
  | buildTuple | buildList =>
    exact hexchanges (pushing (sequence _ _ fun items => List.Subset.refl items))
  | buildSlice => exact hexchanges (pushing (buildSlice _))
  | buildConstKeyMap =>
    refine hexchanges (pushing
      (.bind .pop fun above keys hkeys => .bind (.popMany _) fun popped values hvalues =>
      .of_returns (.of_computes (.buildDict _ _)) ?_))
    subst hkeys hvalues
    exact fun _ _ _ hx => (Returns.carries_buildDict _ _ _ _ _ hx).mono (by simp)
  | unpackSequence => exact hexchanges (unpackSequence _)
  | getIter =>
    refine hexchanges (pushing (.bind .pop fun popped value hvalue =>
      .of_returns (.of_computes (.ofAnswer _)) (.ofAnswer fun _ => ?_)))
    subst hvalue
    exact Symbolic.carries_of_iterate
  | forIter => exact hexchanges (forIter _)
  | popJumpIfFalse | popJumpIfTrue => exact hexchanges (popJump _ _)
  | returnValue =>
    exact hexchanges (bind .pop fun _ value _ => of_pushes
      (.bind (.of_computes (.operand value)) fun _ => .pure _) (hnone _))

end TraceM

/-! ### Runs -/

/-- A step that a trace has taken: the instruction, and the states before and after it. -/
structure TraceStep where
  instruction : Instruction
  before : Tracer
  after : Tracer

namespace TraceStep

/-- The values that the instruction has popped, topmost first. -/
def popped (step : TraceStep) : List Symbolic := step.before.stack.take step.instruction.pops

/-- The values below those that were popped. -/
def kept (step : TraceStep) : List Symbolic := step.before.stack.drop step.instruction.pops

/-- The values that the instruction has pushed, topmost first. -/
def pushed (step : TraceStep) : List Symbolic :=
  step.after.stack.take (step.after.stack.length - step.kept.length)

/-- The guards flow through a step. -/
structure Flows (step : TraceStep) : Prop where
  /-- There were enough values. -/
  enough : step.popped.length = step.instruction.pops
  /-- The pushed values stand in the place of the popped ones. -/
  stack : step.after.stack = step.pushed ++ step.kept
  /-- Unless the values were only moved, each pushed one carries all that were popped. -/
  carries : ¬ step.instruction.opcode.IsMove → ∀ value ∈ step.pushed, value.Carries step.popped
  guards : ∀ guard ∈ step.before.guards, guard ∈ step.after.guards
  /-- The guards of the pushed values are guards of the trace. -/
  noted : ∀ value ∈ step.pushed, ∀ guard ∈ value.guards, guard ∈ step.after.guards

/-- Guards flow through every step from every state. -/
lemma flows_of_step {context : TraceContext} {instruction : Instruction}
    {state after : Tracer} {flow : Flow}
    (h : TraceM.step context instruction state = .ok (flow, after)) :
    Flows ⟨instruction, state, after⟩ := by
  obtain ⟨popped, pushed, rest, hcount, hstack, hafter, hcarry, hnoted⟩ :=
    TraceM.Exchanges.step context instruction _ _ _ h
  have hpopped : TraceStep.popped ⟨instruction, state, after⟩ = popped := by
    simp [TraceStep.popped, hstack, ← hcount]
  have hkept : TraceStep.kept ⟨instruction, state, after⟩ = rest := by
    simp [TraceStep.kept, hstack, ← hcount]
  have hpushed : TraceStep.pushed ⟨instruction, state, after⟩ = pushed := by
    simp [TraceStep.pushed, hkept, hafter]
  constructor
  · rw [hpopped, hcount]
  · rw [hpushed, hkept, hafter]
  · rw [hpopped, hpushed]
    exact hcarry
  · exact (TraceM.extends_of_step h).guards
  · rw [hpushed]
    exact hnoted

end TraceStep

/-- The steps of a trace from a state on, at most `fuel`. -/
def stepsFrom (context : TraceContext) : Nat → Tracer → List TraceStep
  | 0, _ => []
  | fuel + 1, state =>
    match context.code.instruction? state.pc with
    | none => []
    | some instruction =>
      match TraceM.step context instruction state with
      | .error _ => []
      | .ok (flow, after) =>
        ⟨instruction, state, after⟩ ::
          match flow.target? state.pc with
          | none => []
          | some pc => stepsFrom context fuel { after with pc }

/-- The steps of the trace of a program. -/
def traceSteps (code : Code) (frame : Frame) (config : Config) : List TraceStep :=
  stepsFrom ⟨code, frame, config⟩ maxTraceSteps {}

section

variable {context : TraceContext} {fuel : Nat} {state : Tracer} {step : TraceStep}

/-- There are no steps, or there is a first one, and the others follow where it leads. -/
lemma stepsFrom_cases (context : TraceContext) (fuel : Nat) (state : Tracer) :
    stepsFrom context (fuel + 1) state = [] ∨
      ∃ instruction flow after, context.code.instruction? state.pc = some instruction ∧
        TraceM.step context instruction state = .ok (flow, after) ∧
        stepsFrom context (fuel + 1) state = ⟨instruction, state, after⟩ ::
          match flow.target? state.pc with
          | none => []
          | some pc => stepsFrom context fuel { after with pc } := by
  rw [stepsFrom]
  cases hinstruction : context.code.instruction? state.pc with
  | none => exact Or.inl rfl
  | some instruction =>
    cases hstep : TraceM.step context instruction state with
    | error cause => exact Or.inl (by simp only [hstep])
    | ok result => exact Or.inr ⟨instruction, result.1, result.2, rfl, hstep, by simp only [hstep]⟩

/-- A step of a trace is its first one, or one of those that follow where the first one leads. -/
lemma mem_stepsFrom (h : step ∈ stepsFrom context (fuel + 1) state) :
    ∃ instruction flow after, context.code.instruction? state.pc = some instruction ∧
      TraceM.step context instruction state = .ok (flow, after) ∧
      (step = ⟨instruction, state, after⟩ ∨
        ∃ pc, flow.target? state.pc = some pc ∧
          step ∈ stepsFrom context fuel { after with pc }) := by
  rcases stepsFrom_cases context fuel state with
    hnone | ⟨instruction, flow, after, hinstruction, hstep, hsteps⟩
  · rw [hnone] at h
    cases h
  · refine ⟨instruction, flow, after, hinstruction, hstep, ?_⟩
    rw [hsteps] at h
    refine (List.mem_cons.1 h).imp_right fun hlater => ?_
    cases hpc : flow.target? state.pc with
    | none => simp [hpc] at hlater
    | some pc =>
      rw [hpc] at hlater
      exact ⟨pc, rfl, hlater⟩

/-- A trace that completes or breaks off has kept the guards of every state it passed. -/
lemma guards_traceFrom (context : TraceContext) (fuel : Nat) (state : Tracer) :
    ∀ guard ∈ state.guards, guard ∈ (traceFrom context fuel state).2.guards := by
  induction fuel generalizing state with
  | zero => exact fun _ => id
  | succ fuel ih =>
    intro guard hguard
    rw [traceFrom]
    split
    · exact hguard
    · next instruction hinstruction =>
      split
      · exact hguard
      · next after hstep => exact ih _ guard ((TraceM.extends_of_step hstep).guards guard hguard)
      · next target after hstep =>
          exact ih _ guard ((TraceM.extends_of_step hstep).guards guard hguard)
      · next operand after hstep => exact (TraceM.extends_of_step hstep).guards guard hguard

/-- A step of a trace starts with the guards from before the trace, and those that it leaves stay to
the end. -/
lemma guards_of_mem_stepsFrom (h : step ∈ stepsFrom context fuel state) :
    (∀ guard ∈ state.guards, guard ∈ step.before.guards) ∧
      ∀ guard ∈ step.after.guards, guard ∈ (traceFrom context fuel state).2.guards := by
  induction fuel generalizing state with
  | zero => cases h
  | succ fuel ih =>
    obtain ⟨instruction, flow, after, hinstruction, hstep, rfl | ⟨pc, hpc, hlater⟩⟩ :=
      mem_stepsFrom h
    · refine ⟨fun _ => id, ?_⟩
      -- Either the trace ends here, or what follows keeps the guards.
      cases hpc : flow.target? state.pc with
      | none =>
        cases flow with
        | finish operand =>
          rw [traceFrom_of_finish hinstruction hstep]
          exact fun _ => id
        | next | jump target => cases hpc
      | some pc =>
        rw [traceFrom_of_step hinstruction hstep hpc]
        exact guards_traceFrom context fuel { after with pc }
    · rw [traceFrom_of_step hinstruction hstep hpc]
      obtain ⟨hbefore, hlast⟩ := ih hlater
      exact ⟨fun guard hguard => hbefore guard
        ((TraceM.extends_of_step hstep).guards guard hguard), hlast⟩

lemma pairwise_stepsFrom (context : TraceContext) (fuel : Nat) (state : Tracer) :
    (stepsFrom context fuel state).Pairwise fun earlier later =>
      ∀ guard ∈ earlier.after.guards, guard ∈ later.before.guards := by
  induction fuel generalizing state with
  | zero => exact .nil
  | succ fuel ih =>
    rcases stepsFrom_cases context fuel state with hnone | ⟨instruction, flow, after, -, -, hsteps⟩
    · rw [hnone]
      exact .nil
    · rw [hsteps]
      cases flow.target? state.pc with
      | none => exact List.pairwise_singleton _ _
      | some pc =>
        exact List.pairwise_cons.2 ⟨fun later hlater => (guards_of_mem_stepsFrom hlater).1, ih _⟩

/-- A step of a trace is what its instruction does. -/
lemma step_of_mem_stepsFrom (h : step ∈ stepsFrom context fuel state) :
    ∃ flow, TraceM.step context step.instruction step.before = .ok (flow, step.after) := by
  induction fuel generalizing state with
  | zero => cases h
  | succ fuel ih =>
    obtain ⟨instruction, flow, after, -, hstep, rfl | ⟨pc, -, hlater⟩⟩ := mem_stepsFrom h
    · exact ⟨flow, hstep⟩
    · exact ih hlater

lemma flows_of_mem_stepsFrom (h : step ∈ stepsFrom context fuel state) : step.Flows := by
  obtain ⟨flow, hstep⟩ := step_of_mem_stepsFrom h
  exact TraceStep.flows_of_step hstep

end

/-- **Guards flow with the data.**  From whatever state an instruction is traced, it puts values in
the place of those that it pops, and unless it only moves them each pushed value carries the guards
of all popped ones.  The guards of a trace never shrink: a later step starts with the guards that an
earlier one left, and the last state has them all.  The output of a trace has the guards of every
value that was ever pushed. -/
theorem guards_flow_with_data (code : Code) (frame : Frame) (config : Config) :
    (∀ instruction state flow after,
        TraceM.step ⟨code, frame, config⟩ instruction state = .ok (flow, after) →
          TraceStep.Flows ⟨instruction, state, after⟩) ∧
      ((traceSteps code frame config).Pairwise fun earlier later =>
        ∀ guard ∈ earlier.after.guards, guard ∈ later.before.guards) ∧
      (∀ step ∈ traceSteps code frame config, step.Flows ∧ ∀ guard ∈ step.after.guards,
        guard ∈ (traceFrom ⟨code, frame, config⟩ maxTraceSteps {}).2.guards) ∧
      ∀ output, trace code frame config = .ok output →
        ∀ step ∈ traceSteps code frame config, ∀ value ∈ step.pushed, ∀ guard ∈ value.guards,
          guard ∈ output.guards := by
  have hlast : ∀ step ∈ traceSteps code frame config, ∀ guard ∈ step.after.guards,
      guard ∈ (traceFrom ⟨code, frame, config⟩ maxTraceSteps {}).2.guards :=
    fun step hstep => (guards_of_mem_stepsFrom hstep).2
  refine ⟨fun instruction state flow after => TraceStep.flows_of_step, pairwise_stepsFrom _ _ _,
    fun step hstep => ⟨flows_of_mem_stepsFrom hstep, hlast step hstep⟩, ?_⟩
  intro output htrace step hstep value hvalue guard hguard
  obtain ⟨last, hfrom⟩ := exists_traceFrom htrace
  obtain ⟨-, operand, rfl⟩ := traceFrom_extends hfrom
  -- Noted when the value was pushed, kept to the last state, which gives its guards to the output.
  have hkept := hlast step hstep guard
    ((flows_of_mem_stepsFrom hstep).noted value hvalue guard hguard)
  rw [hfrom] at hkept
  exact hkept

/-- In `o.table["a.b"][0] + len(o.table)` the attribute brings the guards of the object, the
dictionary, the list and the number, the length adds that of the builtin, and all are guards of the
output. -/
theorem heldSum_guards_flow : ∃ output, trace heldSum (heldFrame 7) {} = .ok output ∧
    (traceSteps heldSum (heldFrame 7) {}).map (fun step =>
        (step.popped.length, step.pushed.map fun value => value.guards.length)) =
      [(0, [1]), (1, [4]), (0, [0]), (2, [4]), (0, [0]), (2, [4]), (0, [1]), (0, [1]), (1, [4]),
        (2, [5]), (2, [5]), (1, [])] ∧
    ∀ step ∈ traceSteps heldSum (heldFrame 7) {}, step.Flows ∧
      ∀ value ∈ step.pushed, ∀ guard ∈ value.guards, guard ∈ output.guards := by
  have hok : (trace heldSum (heldFrame 7) {}).isOk = true := by decide +kernel
  cases htrace : trace heldSum (heldFrame 7) {} with
  | error stop => simp [htrace, Except.isOk, Except.toBool] at hok
  | ok output =>
    obtain ⟨-, -, hflows, hnoted⟩ := guards_flow_with_data heldSum (heldFrame 7) {}
    exact ⟨output, rfl, by decide +kernel, fun step hstep =>
      ⟨(hflows step hstep).1, hnoted output htrace step hstep⟩⟩

end GuardedTrace
