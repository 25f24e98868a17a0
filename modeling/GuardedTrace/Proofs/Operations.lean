/-
Operations of a trace beside the operations of a run.

For every operation that a trace carries out on symbolic values, it is shown that the operation of a
direct run on the denoted values gives what the traced result denotes.  An operation that is
recorded as a node cannot fail in the run, because the evaluation of the graph has carried it out.
Where a trace is more liberal than a run, the run may fail; `Meets` carries the condition under
which it may.
-/
import GuardedTrace.Direct.Run
import GuardedTrace.Proofs.LayerKeys
import GuardedTrace.Proofs.Readings

namespace GuardedTrace

/-- Nothing is known of the value. -/
def Symbolic.IsUnknown (value : Symbolic) : Prop := ∃ token, value.kind = .unknown token

namespace World

variable {world : World} {state after : Tracer} {value lhs rhs item : Symbolic}
  {args : List Symbolic} {values : List Value} {v l r : Value}

/-! ### Nodes -/

lemma denotes_node {kind : Kind} {operands : List Symbolic} {id : Nat}
    (hfits : kind.FitsNode id v) (hvalue : world.values[id]? = some v) (hdata : v.Data) :
    world.Denotes (Symbolic.derived kind operands) v := by
  obtain ⟨facts, rfl | rfl, rfl, hfits⟩ := hfits
  · exact denotes_derived.2 ⟨hvalue, hfits, hdata⟩
  · exact denotes_derived.2 ⟨hvalue, hfits, hdata⟩

/-- A node that applies a primitive to what values denote has the value that the primitive gives
on it, under every serial number. -/
lemma exists_call {function : Primitive} {operands : List Operand}
    {builder after : Builder} {id : Nat}
    {operation : Operation}
    (hoperation : operation = .callPrimitive function ∨ operation = .callMethod function)
    (hargs : ∀ reader, Operand.evaluateItems reader world.values operands = .ok values)
    (hdata : ∀ value ∈ values, value.Data) (hcovers : world.Covers after)
    (hrecord : builder.record operation operands = (id, after)) :
    ∃ v, world.values[id]? = some v ∧ v.Data ∧ ∀ serial, function.call serial values = .ok v := by
  obtain ⟨node, hnode, hsame, hoperands⟩ := hcovers.exists_node hrecord
  obtain ⟨found, v, hv, hfound, hcall⟩ := world.solves.call hnode (by rwa [hsame])
  rw [hoperands, hargs] at hfound
  cases hfound
  exact ⟨v, hv, Primitive.data_of_call hcall hdata,
    fun serial => (Primitive.call_serial hdata serial id).trans hcall⟩

/-- A recorded call of a primitive succeeds in the run. -/
lemma call_of_emitCall {function : Primitive}
    (h : TraceM.emitCall function args state = .ok (value, after))
    (hlast : after.Extends world.last)
    (hargs : List.Forall₂ world.Denotes args values) :
    ∃ v, world.Denotes value v ∧ ∀ serial, function.call serial values = .ok v := by
  obtain ⟨operands, builder, id, builder', hoperands, hrecord, rfl, rfl⟩ :=
    TraceM.emitCall_eq_ok.1 h
  have hcovers : world.Covers builder' := hlast.nodes
  have hbuilder : world.Covers builder :=
    hcovers.of_extends (Builder.extends_record hrecord (by simp [Operation.Inner]))
  obtain ⟨heval, hdata⟩ := evaluate_operands hoperands hbuilder (denotesItems_iff.2 hargs)
  obtain ⟨v, hv, hvdata, hcall⟩ := exists_call (Or.inl rfl) heval hdata hcovers hrecord
  refine ⟨v, denotes_node (nodeResult_fits ?_ (hcall 0)) hv hvdata, hcall⟩
  exact hargs.imp fun _ _ harg => facts_fits id harg

/-- A recorded call of a method succeeds in the run as a call of its primitive. -/
lemma call_of_emitMethod {function : Primitive} {receiver : Symbolic}
    (h : TraceM.emitMethod function receiver args state = .ok (value, after))
    (hlast : after.Extends world.last) (hreceiver : world.Denotes receiver r)
    (hargs : List.Forall₂ world.Denotes args values) :
    ∃ v, world.Denotes value v ∧ ∀ serial, function.call serial (r :: values) = .ok v := by
  simp only [TraceM.emitMethod, TraceM.bind_eq_ok, TraceM.operand_eq_ok] at h
  obtain ⟨base, _, ⟨builder, hbase, rfl⟩, h⟩ := h
  cases base with
  | node base =>
    simp only [TraceM.bind_eq_ok, TraceM.operands_eq_ok, TraceM.record_eq_ok, TraceM.pure_eq_ok,
      Prod.mk.injEq] at h
    obtain ⟨operands, _, ⟨builder', hoperands, rfl⟩, id, _, ⟨builder'', hrecord, rfl⟩, rfl, rfl⟩ :=
      h
    have hcovers : world.Covers builder'' := hlast.nodes
    have hcovers' : world.Covers builder' :=
      hcovers.of_extends (Builder.extends_record hrecord (by simp [Operation.Inner]))
    have hextends := Symbolic.extends_operands args builder
    rw [hoperands] at hextends
    obtain ⟨heval, hdata⟩ := evaluate_operand hbase (hcovers'.of_extends hextends) hreceiver
    obtain ⟨hevals, hdatas⟩ := evaluate_operands hoperands hcovers' (denotesItems_iff.2 hargs)
    obtain ⟨v, hv, hvdata, hcall⟩ := exists_call (Or.inr rfl)
      (fun reader => by simp [Operand.evaluateItems, heval reader, hevals reader])
      (List.forall_mem_cons.2 ⟨hdata, hdatas⟩) hcovers hrecord
    refine ⟨v, denotes_node (nodeResult_fits ?_ (hcall 0)) hv hvdata, hcall⟩
    exact .cons (facts_fits id hreceiver) (hargs.imp fun _ _ harg => facts_fits id harg)
  | _ => exact absurd h TraceM.breakOff_ne_ok

/-! ### Constants -/

lemma eq_of_foldedLiteral {result : Value} {cause : TypeName → UnsupportedCause} {literal : Literal}
    (h : TraceM.foldedLiteral result cause state = .ok (literal, after)) :
    result = .ofLiteral literal :=
  Value.eq_ofLiteral_of_literal? (TraceM.ofOption_eq_ok.1 h).1

/-- Arguments that are all constants denote their literals only. -/
lemma eq_of_constantArgs? {found : List Value} (h : TraceM.constantArgs? args = some found)
    (hargs : List.Forall₂ world.Denotes args values) :
    values = found ∧ ∀ value ∈ values, value.Data := by
  induction hargs generalizing found with
  | nil =>
    cases h
    simp
  | @cons arg v rest others harg _ ih =>
    simp only [TraceM.constantArgs?, List.mapM_cons, Option.bind_eq_bind, Option.pure_def,
      Option.bind_eq_some_iff, Option.map_eq_some_iff, Option.some.injEq] at h
    obtain ⟨_, ⟨literal, hliteral, rfl⟩, tail, htail, rfl⟩ := h
    have hconstant : arg.constant? = .ok literal := by
      cases hconstant : arg.constant? with
      | error error => simp [hconstant, Except.toOption] at hliteral
      | ok found => simpa [hconstant, Except.toOption] using hliteral
    obtain rfl := eq_of_constant? hconstant harg
    obtain ⟨rfl, hdata⟩ := ih htail
    exact ⟨rfl, List.forall_mem_cons.2 ⟨Value.data_ofLiteral literal, hdata⟩⟩

/-! ### Arithmetic -/

/-- A value of which nothing is known may stand for the failure of an operation. -/
lemma unknown_meets {operands : List Symbolic} {run : Run Value}
    (h : TraceM.unknown operands state = .ok (value, after)) :
    Meets value.IsUnknown (world.Denotes value) run := by
  cases h
  cases run with
  | ok result => exact denotes_derived.2 trivial
  | error error => exact ⟨_, rfl⟩

lemma concatenated_denotes {function : Primitive} {kind : Kind}
    (h : TraceM.concatenated? function lhs.kind rhs.kind = some kind) (hl : world.Denotes lhs l)
    (hr : world.Denotes rhs r) : ∃ v, binary function l r = .ok v ∧ world.DenotesKind kind v := by
  have hl := hl.kind
  have hr := hr.kind
  unfold TraceM.concatenated? at h
  split at h
  · next hlhs hrhs =>
    cases h
    rw [hlhs] at hl
    rw [hrhs] at hr
    obtain ⟨head, rfl, hhead⟩ := hl
    obtain ⟨tail, rfl, htail⟩ := hr
    exact ⟨_, rfl, _, rfl, denotesItems_iff.2
      (List.rel_append (denotesItems_iff.1 hhead) (denotesItems_iff.1 htail))⟩
  · next hlhs hrhs =>
    cases h
    rw [hlhs] at hl
    rw [hrhs] at hr
    obtain ⟨head, rfl, hhead⟩ := hl
    obtain ⟨tail, rfl, htail⟩ := hr
    exact ⟨_, rfl, _, rfl, denotesItems_iff.2
      (List.rel_append (denotesItems_iff.1 hhead) (denotesItems_iff.1 htail))⟩
  · cases h

/-- A binary operation is folded, recorded, or a concatenation, or its result is not known. -/
lemma binaryOp_cases {function : Primitive}
    (h : TraceM.binaryOp function lhs rhs state = .ok (value, after)) :
    (∃ a b result literal cause, lhs.constant? = .ok a ∧ rhs.constant? = .ok b ∧
        binary function (.ofLiteral a) (.ofLiteral b) = .ok result ∧
        TraceM.foldedLiteral result cause state = .ok (literal, after) ∧
        value = .derived (.constant literal) [lhs, rhs]) ∨
      TraceM.emitCall function [lhs, rhs] state = .ok (value, after) ∨
      (∃ kind, TraceM.concatenated? function lhs.kind rhs.kind = some kind ∧
        value = .derived kind [lhs, rhs]) ∨
      TraceM.unknown [lhs, rhs] state = .ok (value, after) := by
  unfold TraceM.binaryOp at h
  rcases ha : lhs.constant? with error | a <;> rcases hb : rhs.constant? with error | b <;>
    simp only [ha, hb] at h
  case ok.ok =>
    simp only [TraceM.bind_eq_ok, TraceM.ofRun_eq_ok, TraceM.pure_eq_ok, Prod.mk.injEq] at h
    obtain ⟨result, _, ⟨hresult, rfl⟩, literal, _, hliteral, rfl, rfl⟩ := h
    exact Or.inl ⟨a, b, result, literal, _, rfl, rfl, hresult, hliteral, rfl⟩
  all_goals
    refine Or.inr ?_
    split at h
    · exact Or.inl h
    · refine Or.inr ?_
      cases hkind : TraceM.concatenated? function lhs.kind rhs.kind with
      | some kind =>
        rw [hkind] at h
        cases h
        exact Or.inl ⟨kind, rfl, rfl⟩
      | none =>
        rw [hkind] at h
        exact Or.inr h

lemma binaryOp_meets {function : Primitive} (hkernel : (kernel? function).isSome)
    (h : TraceM.binaryOp function lhs rhs state = .ok (value, after))
    (hlast : after.Extends world.last) (hl : world.Denotes lhs l) (hr : world.Denotes rhs r) :
    Meets value.IsUnknown (world.Denotes value) (binary function l r) := by
  rcases binaryOp_cases h with ⟨a, b, result, literal, _, ha, hb, hresult, hliteral, rfl⟩ | hemit |
    ⟨kind, hkind, rfl⟩ | hunknown
  · obtain rfl := eq_of_constant? ha hl
    obtain rfl := eq_of_constant? hb hr
    exact meets_of_eq (denotes_derived.2 (eq_of_foldedLiteral hliteral)) hresult
  · obtain ⟨v, hv, hcall⟩ := call_of_emitCall hemit hlast (.cons hl (.cons hr .nil))
    refine meets_of_eq hv ?_
    rw [← hcall 0]
    cases function with
    | neg | abs | relu | sum | getItem | size | dim | stride => cases hkernel
    | _ => rfl
  · obtain ⟨v, hbinary, hv⟩ := concatenated_denotes hkind hl hr
    exact meets_of_eq (denotes_derived.2 hv) hbinary
  · exact unknown_meets hunknown

lemma negate_meets (h : TraceM.negate value state = .ok (item, after))
    (hlast : after.Extends world.last) (hv : world.Denotes value v) :
    Meets item.IsUnknown (world.Denotes item) (unary .neg v) := by
  unfold TraceM.negate at h
  cases hliteral : value.constant? with
  | ok literal =>
    obtain rfl := eq_of_constant? hliteral hv
    simp only [hliteral, TraceM.bind_eq_ok, TraceM.ofRun_eq_ok, TraceM.pure_eq_ok,
      Prod.mk.injEq] at h
    obtain ⟨result, _, ⟨hresult, rfl⟩, negated, _, hnegated, rfl, rfl⟩ := h
    exact meets_of_eq (denotes_derived.2 (eq_of_foldedLiteral hnegated)) hresult
  | error error =>
    simp only [hliteral] at h
    split at h
    · obtain ⟨result, hresult, hcall⟩ := call_of_emitCall h hlast (.cons hv .nil)
      exact meets_of_eq hresult (hcall 0)
    · exact unknown_meets h

/-! ### Containers -/

lemma subscript_meets {container key : Symbolic} {c k : Value}
    (h : TraceM.subscript container key state = .ok (value, after))
    (hlast : after.Extends world.last) (hc : world.Denotes container c) (hk : world.Denotes key k)
    (serial : Nat) :
    Meets (container.indexedByTruth key = true) (world.Denotes value) (c.subscript serial k) := by
  have hemit : TraceM.emitCall .getItem [container, key] state = .ok (value, after) →
      Meets (container.indexedByTruth key = true) (world.Denotes value) (c.subscript serial k) := by
    intro h
    obtain ⟨v, hv, hcall⟩ := call_of_emitCall h hlast (.cons hc (.cons hk .nil))
    exact meets_of_eq hv (hcall serial)
  unfold TraceM.subscript at h
  split at h
  · split at h
    · exact hemit h
    · obtain ⟨hitem, rfl⟩ := TraceM.ofAnswer_eq_ok.1 h
      exact getItem_meets hitem hc hk serial
  · cases hkind : container.kind with
    | array facts =>
      simp only [hkind] at h
      split at h
      · exact hemit h
      · exact absurd h TraceM.breakOff_ne_ok
    | _ =>
      simp only [hkind] at h
      exact absurd h TraceM.breakOff_ne_ok

lemma toKey_ofLiteral {literal : Literal} {key : Key} (h : literal.toKey? = some key) :
    (Value.ofLiteral literal).toKey = .ok key := by
  cases literal with
  | int _ | str _ =>
    cases h
    rfl
  | _ => cases h

lemma length_ofLiterals (literals : List Literal) :
    (Value.ofLiterals literals).length = literals.length := by
  induction literals with
  | nil => rfl
  | cons literal rest ih => simp [Value.ofLiterals, ih]

lemma entries_of_dictEntries {literals : List Literal} {entries : List (Key × Symbolic)}
    (hlength : literals.length = args.length) (hargs : List.Forall₂ world.Denotes args values)
    (h : TraceM.dictEntries (literals.zip args) state = .ok (entries, after)) :
    ∃ keys, (Value.ofLiterals literals).mapM Value.toKey = .ok keys ∧
      List.Forall₂ (Table.Related world.Denotes) entries (keys.zip values) := by
  induction hargs generalizing literals entries state after with
  | nil =>
    obtain rfl := List.length_eq_zero_iff.1 hlength
    cases h
    exact ⟨[], rfl, .nil⟩
  | @cons arg v rest others harg _ ih =>
    match literals, hlength with
    | literal :: literals, hlength =>
      simp only [List.zip_cons_cons, TraceM.dictEntries, TraceM.bind_eq_ok, TraceM.ofOption_eq_ok,
        TraceM.pure_eq_ok, Prod.mk.injEq] at h
      obtain ⟨key, _, ⟨hkey, rfl⟩, tail, _, htail, rfl, rfl⟩ := h
      obtain ⟨keys, hkeys, hentries⟩ := ih (by simpa using hlength) htail
      refine ⟨key :: keys, mapM_eq_ok.2 (.cons (toKey_ofLiteral hkey) (mapM_eq_ok.1 hkeys)), ?_⟩
      exact .cons ⟨rfl, harg⟩ hentries

/-- A dictionary with constant keys is built in the run as well. -/
lemma denotes_buildDict {keys : Symbolic} {k : Value}
    (h : TraceM.buildDict keys args state = .ok (value, after)) (hkeys : world.Denotes keys k)
    (hargs : List.Forall₂ world.Denotes args values) :
    ∃ items found, k = .tuple items ∧ items.length = values.length ∧
      items.mapM Value.toKey = .ok found ∧
      world.Denotes value (.dict (Table.ofListOrdered Key.cmp (found.zip values))) := by
  simp only [TraceM.buildDict, TraceM.bind_eq_ok, TraceM.ofAnswer_eq_ok] at h
  obtain ⟨literal, _, ⟨hliteral, rfl⟩, h⟩ := h
  cases literal with
  | tuple literals =>
    simp only at h
    split at h
    · next hlength =>
      simp only [TraceM.bind_eq_ok, TraceM.pure_eq_ok, Prod.mk.injEq] at h
      obtain ⟨entries, _, hentries, rfl, rfl⟩ := h
      obtain ⟨found, hfound, hrelated⟩ := entries_of_dictEntries hlength hargs hentries
      refine ⟨_, found, eq_of_constant? hliteral hkeys, ?_, hfound, ?_⟩
      · rw [length_ofLiterals, hlength, hargs.length_eq]
      · exact denotes_derived.2 ⟨_, rfl, Table.ordered_ofListOrdered _,
          denotesEntries_iff.2 (Table.ofListOrdered_related hrelated)⟩
    · exact absurd h TraceM.breakOff_ne_ok
  | _ => exact absurd h TraceM.breakOff_ne_ok

/-- The rows of an array that are recorded are those that the run takes out of it. -/
lemma rows_of_arrayRows {array : Symbolic} {numbers : NumArray} {count row : Nat}
    {items : List Symbolic} (harray : world.Denotes array (.array numbers))
    (h : TraceM.arrayRows array (List.range' row count) state = .ok (items, after))
    (hlast : after.Extends world.last) :
    ∃ rows, (∀ taken, Value.rowsFrom numbers count row taken = .ok (taken.reverse ++ rows)) ∧
      rows.length = count ∧ List.Forall₂ world.Denotes items rows := by
  induction count generalizing row state items with
  | zero =>
    obtain ⟨rfl, rfl⟩ := Prod.mk.inj (TraceM.pure_eq_ok.1 h)
    exact ⟨[], fun taken => by simp [Value.rowsFrom], rfl, .nil⟩
  | succ count ih =>
    rw [List.range'_succ] at h
    simp only [TraceM.arrayRows, TraceM.bind_eq_ok, TraceM.ofRun_eq_ok, TraceM.pure_eq_ok,
      Prod.mk.injEq] at h
    obtain ⟨index, _, ⟨hindex, rfl⟩, item, middle, hitem, others, _, hothers, rfl, rfl⟩ := h
    obtain ⟨rows, hrows, hcount, hdenotes⟩ := ih hothers
    have hmiddle := (TraceM.Computes.arrayRows array _ _ _ _ hothers).toExtends.trans hlast
    obtain ⟨v, hv, hcall⟩ := call_of_emitCall hitem hmiddle
      (.cons harray (.cons (denotes_constant.2 rfl) .nil))
    obtain ⟨numbers', hselect, rfl⟩ := except_map_eq_ok.1 (hcall 0)
    refine ⟨.array numbers' :: rows, fun taken => ?_, by simp [hcount], .cons hv hdenotes⟩
    simp only [Value.rowsFrom, hindex, hselect, ok_bind, hrows, List.reverse_cons,
      List.append_assoc, List.singleton_append]

/-- Unpacking gives as many values in the run. -/
lemma iterate_of_unpackItems {expected : Nat} {items : List Symbolic}
    (h : TraceM.unpackItems value expected state = .ok (items, after))
    (hlast : after.Extends world.last) (hv : world.Denotes value v) :
    ∃ values, v.iterate = .ok values ∧ values.length = expected ∧
      List.Forall₂ world.Denotes items values := by
  unfold TraceM.unpackItems at h
  cases hkind : value.kind with
  | array facts =>
    simp only [hkind, TraceM.bind_eq_ok, TraceM.ofOption_eq_ok] at h
    obtain ⟨rows, _, ⟨hrows, rfl⟩, h⟩ := h
    split at h
    · next hexpected =>
      obtain ⟨shape, hshape, hhead⟩ := Option.bind_eq_some_iff.1 hrows
      obtain ⟨rest, rfl⟩ := List.head?_eq_some_iff.1 hhead
      have hfits := hv.kind
      rw [hkind] at hfits
      have hdims := hfits.2.1.shape _ hshape
      rcases Value.array_or_number hdims with ⟨numbers, rfl, hnumbers⟩ | ⟨-, hnumber⟩
      · rw [List.range_eq_range'] at h
        obtain ⟨found, hfound, hcount, hdenotes⟩ := rows_of_arrayRows hv h hlast
        refine ⟨found, ?_, hcount.trans hexpected, hdenotes⟩
        simpa [Value.iterate, hnumbers] using hfound []
      · cases hnumber
    · exact absurd h TraceM.breakOff_ne_ok
  | _ =>
    simp only [hkind, TraceM.bind_eq_ok, TraceM.ofAnswer_eq_ok] at h
    obtain ⟨found, _, ⟨hfound, rfl⟩, h⟩ := h
    split at h
    · next hexpected =>
      obtain ⟨rfl, rfl⟩ := Prod.mk.inj (TraceM.pure_eq_ok.1 h)
      obtain ⟨values, hvalues, hdenotes⟩ := iterate_of_items hfound hv
      exact ⟨values, hvalues, hdenotes.length_eq ▸ hexpected, hdenotes⟩
    · exact absurd h TraceM.breakOff_ne_ok

end World

end GuardedTrace
