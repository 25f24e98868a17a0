/-
Folded constants.

Where every operand is a literal, a trace computes the result at once and goes on with the literal
of the result.  Folding is closed: what the operations compute from literals is the value of a
literal again, for every operation, with every overload, and for literals that are nested to any
depth.  So no trace ever breaks off because a folded result has no literal.
-/
import GuardedTrace.Proofs.HeldArrays
import GuardedTrace.Proofs.Inversion
import GuardedTrace.Proofs.Places

namespace GuardedTrace

namespace Value

/-- A value that has a literal, and that the literal gives back bit for bit. -/
def IsLiteral (value : Value) : Prop :=
  ∃ literal, value.literal? = some literal ∧ ofLiteral literal = value

variable {value container key item : Value} {items : List Value}

lemma isLiteral_ofLiteral (literal : Literal) : (ofLiteral literal).IsLiteral :=
  ⟨literal, literal?_ofLiteral literal, rfl⟩

lemma isLiteral_ofLiterals (literals : List Literal) :
    ∀ item ∈ ofLiterals literals, item.IsLiteral := by
  induction literals with
  | nil => nofun
  | cons literal rest ih => exact List.forall_mem_cons.2 ⟨isLiteral_ofLiteral literal, ih⟩

lemma exists_ofLiterals (h : ∀ item ∈ items, item.IsLiteral) :
    ∃ literals, items = ofLiterals literals := by
  induction items with
  | nil => exact ⟨[], rfl⟩
  | cons item rest ih =>
    obtain ⟨⟨literal, -, rfl⟩, hrest⟩ := List.forall_mem_cons.1 h
    obtain ⟨literals, rfl⟩ := ih hrest
    exact ⟨literal :: literals, rfl⟩

/-! ### The shapes of literals -/

@[simp] lemma isLiteral_tuple : (tuple items).IsLiteral ↔ ∀ item ∈ items, item.IsLiteral := by
  constructor
  · rintro ⟨literal, hliteral, -⟩
    obtain ⟨literals, hliterals, -⟩ := Option.map_eq_some_iff.1 hliteral
    rw [eq_ofLiterals_of_literals? hliterals]
    exact isLiteral_ofLiterals literals
  · intro h
    obtain ⟨literals, rfl⟩ := exists_ofLiterals h
    exact isLiteral_ofLiteral (.tuple literals)

@[simp] lemma isLiteral_list : (list items).IsLiteral ↔ ∀ item ∈ items, item.IsLiteral := by
  constructor
  · rintro ⟨literal, hliteral, -⟩
    obtain ⟨literals, hliterals, -⟩ := Option.map_eq_some_iff.1 hliteral
    rw [eq_ofLiterals_of_literals? hliterals]
    exact isLiteral_ofLiterals literals
  · intro h
    obtain ⟨literals, rfl⟩ := exists_ofLiterals h
    exact isLiteral_ofLiteral (.list literals)

lemma isLiteral_bool (truth : Bool) : (bool truth).IsLiteral := isLiteral_ofLiteral (.bool truth)

lemma isLiteral_int (word : Int64) : (int word).IsLiteral := isLiteral_ofLiteral (.int word)

lemma isLiteral_float (number : Double) : (float number).IsLiteral :=
  isLiteral_ofLiteral (.float number)

lemma isLiteral_str (text : String) : (str text).IsLiteral := isLiteral_ofLiteral (.str text)

lemma isLiteral_of_isSome (h : (Number.of? value).isSome) : value.IsLiteral := by
  cases value with
  | bool truth => exact isLiteral_bool truth
  | int word => exact isLiteral_int word
  | float number => exact isLiteral_float number
  | _ => cases h

lemma not_isLiteral_array {numbers : NumArray} : ¬ (array numbers).IsLiteral := nofun

lemma not_isLiteral_dict {entries : List (Key × Value)} : ¬ (dict entries).IsLiteral := nofun

lemma not_isLiteral_layer {node : Layer} : ¬ (layer node).IsLiteral := nofun

/-! ### Reading items -/

lemma IsLiteral.subscript {serial : Nat} (h : container.IsLiteral)
    (hitem : container.subscript serial key = .ok item) : item.IsLiteral := by
  have hpick {items : List Value} (h : ∀ item ∈ items, item.IsLiteral) (positions : List Nat) :
      ∀ item ∈ Slice.pick items positions, item.IsLiteral :=
        fun item hmem => h item (mem_of_mem_pick hmem)
  unfold Value.subscript at hitem
  split at hitem
  · exact isLiteral_tuple.1 h _ (mem_of_itemAt hitem)
  · exact isLiteral_list.1 h _ (mem_of_itemAt hitem)
  · obtain ⟨positions, -, rfl⟩ := except_map_eq_ok.1 hitem
    exact isLiteral_tuple.2 (hpick (isLiteral_tuple.1 h) positions)
  · obtain ⟨positions, -, rfl⟩ := except_map_eq_ok.1 hitem
    exact isLiteral_list.2 (hpick (isLiteral_list.1 h) positions)
  · obtain ⟨c, -, rfl⟩ := List.mem_map.1 (mem_of_itemAt hitem)
    exact isLiteral_str _
  · exact absurd h not_isLiteral_dict
  · exact absurd h not_isLiteral_dict
  · exact absurd h not_isLiteral_array
  · exact absurd h not_isLiteral_layer
  · exact absurd h not_isLiteral_layer
  · cases hitem

end Value

/-! ### Operations -/

section

variable {operation : Primitive} {lhs rhs value result : Value}

lemma isLiteral_otherBinary (hlhs : lhs.IsLiteral) (hrhs : rhs.IsLiteral)
    (h : otherBinary operation lhs rhs = .ok result) : result.IsLiteral := by
  unfold otherBinary at h
  split at h
  · cases h
    exact Value.isLiteral_bool _
  · cases h
    exact Value.isLiteral_bool _
  · cases h
    exact Value.isLiteral_str _
  · cases h
    exact Value.isLiteral_tuple.2
      (List.forall_mem_append.2 ⟨Value.isLiteral_tuple.1 hlhs, Value.isLiteral_tuple.1 hrhs⟩)
  · cases h
    exact Value.isLiteral_list.2
      (List.forall_mem_append.2 ⟨Value.isLiteral_list.1 hlhs, Value.isLiteral_list.1 hrhs⟩)
  -- The four comparisons of texts.
  iterate 4
    · cases h
      exact Value.isLiteral_bool _
  · cases h

lemma isLiteral_binary (hlhs : lhs.IsLiteral) (hrhs : rhs.IsLiteral)
    (h : binary operation lhs rhs = .ok result) : result.IsLiteral := by
  unfold binary at h
  split at h
  · exact absurd hlhs Value.not_isLiteral_array
  · exact absurd hlhs Value.not_isLiteral_array
  · exact absurd hrhs Value.not_isLiteral_array
  · unfold scalarBinary at h
    split at h
    · exact Value.isLiteral_of_isSome (isSome_of_intBinary h)
    · exact Value.isLiteral_of_isSome (isSome_of_floatBinary h)
    · exact isLiteral_otherBinary hlhs hrhs h

lemma isLiteral_unary (hvalue : value.IsLiteral) (h : unary operation value = .ok result) :
    result.IsLiteral := by
  unfold unary at h
  split at h
  · exact absurd hvalue Value.not_isLiteral_array
  · split at h
    · obtain ⟨word, rfl⟩ := exists_of_wordResult h
      exact Value.isLiteral_int word
    · cases h
      exact Value.isLiteral_float _
    · cases h

end

lemma Primitive.isLiteral_call {serial : Nat} {function : Primitive}
    {args : List Value} {result : Value}
    (hargs : ∀ arg ∈ args, arg.IsLiteral) (h : function.call serial args = .ok result) :
    result.IsLiteral := by
  cases succeeds_of_call h with
  | unary _ h => exact isLiteral_unary (hargs _ (by simp)) h
  | sumNumber hnumber => exact Value.isLiteral_of_isSome hnumber
  | getItem h => exact Value.IsLiteral.subscript (hargs _ (by simp)) h
  | binary _ h => exact isLiteral_binary (hargs _ (by simp)) (hargs _ (by simp)) h
  | sum | sizes _ _ | size _ _ | dim _ =>
    exact absurd (hargs _ (List.mem_cons_self ..)) Value.not_isLiteral_array

namespace Builtin

variable {arg result : Value} {args : List Value}

lemma isLiteral_rangeOf {start stop step : Int64} (h : rangeOf start stop step = .ok result) :
    result.IsLiteral := by
  unfold rangeOf at h
  split at h
  · cases h
  · simp only at h
    split at h
    · cases h
    · obtain ⟨items, hitems, rfl⟩ := except_map_eq_ok.1 h
      refine Value.isLiteral_list.2 fun item hitem => ?_
      obtain ⟨member, -, hmember⟩ := exists_of_mem_right (mapM_eq_ok.1 hitems) hitem
      unfold rangeItem at hmember
      split at hmember
      · cases hmember
        exact Value.isLiteral_int _
      · cases hmember

lemma isLiteral_range? {bounds : List Int64} {error : RunError}
    (h : (range? bounds).getD (.error error) = .ok result) : result.IsLiteral := by
  unfold range? at h
  split at h
  · exact isLiteral_rangeOf h
  · exact isLiteral_rangeOf h
  · exact isLiteral_rangeOf h
  · cases h

lemma isLiteral_toInt (h : toInt arg = .ok result) : result.IsLiteral := by
  unfold toInt at h
  split at h
  · cases h
    exact Value.isLiteral_int _
  · cases h
    exact Value.isLiteral_int _
  · obtain ⟨word, -, rfl⟩ := except_map_eq_ok.1 h
    exact Value.isLiteral_int word
  · split at h
    · cases h
      exact Value.isLiteral_int _
    · cases h
  · cases h

lemma isLiteral_toFloat (h : toFloat arg = .ok result) : result.IsLiteral := by
  unfold toFloat at h
  split at h
  · cases h
    exact Value.isLiteral_float _
  · cases h
    exact Value.isLiteral_float _
  · cases h
    exact Value.isLiteral_float _
  · split at h
    · cases h
      exact Value.isLiteral_float _
    · cases h
  · cases h

lemma isLiteral_call {function : Builtin} (hargs : ∀ arg ∈ args, arg.IsLiteral)
    (h : function.call args = .ok result) : result.IsLiteral := by
  unfold call at h
  simp only at h
  split at h
  · obtain ⟨size, -, hsize⟩ := except_bind_eq_ok.1 h
    obtain ⟨word, rfl⟩ := exists_of_ofSize hsize
    exact Value.isLiteral_int word
  · exact isLiteral_unary (hargs _ (by simp)) h
  -- The smallest and the largest are picked from one container or from the arguments.
  · exact Value.isLiteral_tuple.1 (hargs _ (by simp)) _ (extremumOf_mem h)
  · exact Value.isLiteral_list.1 (hargs _ (by simp)) _ (extremumOf_mem h)
  · exact Value.isLiteral_tuple.1 (hargs _ (by simp)) _ (extremumOf_mem h)
  · exact Value.isLiteral_list.1 (hargs _ (by simp)) _ (extremumOf_mem h)
  · exact hargs _ (extremumOf_mem h)
  · exact hargs _ (extremumOf_mem h)
  · split at h
    · obtain ⟨words, -, h⟩ := except_bind_eq_ok.1 h
      exact isLiteral_range? h
    · cases h
  · exact isLiteral_toInt h
  · exact isLiteral_toFloat h
  · cases h

end Builtin

/-- A computation that a trace folds: an operation on the values of literals. -/
inductive Folding : Run Value → Prop where
  | primitive (serial : Nat) (function : Primitive) (args : List Literal) :
    Folding (function.call serial (Value.ofLiterals args))
  | builtin (function : Builtin) (args : List Literal) :
    Folding (function.call (Value.ofLiterals args))
  | binary (operation : Primitive) (lhs rhs : Literal) :
    Folding (GuardedTrace.binary operation (.ofLiteral lhs) (.ofLiteral rhs))
  | unary (operation : Primitive) (operand : Literal) :
    Folding (GuardedTrace.unary operation (.ofLiteral operand))
  | subscript (serial : Nat) (container key : Literal) :
    Folding ((Value.ofLiteral container).subscript serial (.ofLiteral key))

/-- Folding is closed. -/
lemma Folding.isLiteral {run : Run Value} {result : Value} (h : Folding run)
    (hok : run = .ok result) :
    result.IsLiteral := by
  cases h with
  | primitive serial function args =>
    exact Primitive.isLiteral_call (Value.isLiteral_ofLiterals args) hok
  | builtin function args => exact Builtin.isLiteral_call (Value.isLiteral_ofLiterals args) hok
  | binary operation lhs rhs =>
    exact isLiteral_binary (Value.isLiteral_ofLiteral lhs) (Value.isLiteral_ofLiteral rhs) hok
  | unary operation operand => exact isLiteral_unary (Value.isLiteral_ofLiteral operand) hok
  | subscript serial container key => exact (Value.isLiteral_ofLiteral container).subscript hok

/-! ### Causes that never arise -/

/-- A cause of a break that says that a folded result has no literal. -/
def BreakCause.Unfolded : BreakCause → Prop
  | .unsupported (.operation ..) | .unsupported (.negation _) | .unsupported (.returned ..) => True
  | _ => False

namespace TraceM

variable {α β : Type} {x : TraceM α} {f : α → TraceM β}

/-- A part of a trace never breaks off because a folded result has no literal. -/
def Folds (x : TraceM α) : Prop := ∀ state cause, x state = .error cause → ¬ cause.Unfolded

namespace Folds

/-- A part of a trace that always goes on does not break off. -/
lemma of_ok (h : ∀ state, ∃ result, x state = .ok result) : Folds x := by
  intro state cause hcause
  obtain ⟨result, hresult⟩ := h state
  cases hcause.symm.trans hresult

lemma pure (value : α) : Folds (pure value : TraceM α) := of_ok fun state => ⟨(value, state), rfl⟩

lemma bind (hx : Folds x)
    (hf : ∀ value state after, x state = .ok (value, after) → Folds (f value)) :
    Folds (x >>= f) := by
  intro state cause h
  change Except.bind (x state) (fun p => f p.1 p.2) = .error cause at h
  cases hstate : x state with
  | error first =>
    rw [hstate] at h
    cases h
    exact hx state cause hstate
  | ok p =>
    rw [hstate] at h
    exact hf p.1 state p.2 hstate p.2 cause h

lemma bind_any (hx : Folds x) (hf : ∀ value, Folds (f value)) : Folds (x >>= f) :=
  bind hx fun value _ _ _ => hf value

lemma breakOff {cause : BreakCause} (h : ¬ cause.Unfolded) : Folds (breakOff cause : TraceM α) := by
  intro state found hfound
  cases hfound
  exact h

lemma ofAnswer (answer : Answer α) : Folds (ofAnswer answer) := by
  cases answer with
  | ok value => exact pure value
  | error error => exact breakOff id

lemma ofRun (run : Run α) : Folds (ofRun run) := by
  cases run with
  | ok value => exact pure value
  | error error => exact breakOff id

/-- A folded result is followed by its literal. -/
lemma folding {run : Run Value} (h : Folding run) (cause : TypeName → UnsupportedCause)
    {f : Literal → TraceM β} (hf : ∀ literal, Folds (f literal)) :
    Folds (TraceM.ofRun run >>= fun result => foldedLiteral result cause >>= f) := by
  refine bind (ofRun run) fun result state after hrun => ?_
  obtain ⟨literal, hliteral, -⟩ := h.isLiteral (ofRun_eq_ok.1 hrun).1
  rw [foldedLiteral, hliteral]
  exact bind_any (pure literal) hf

lemma operand (value : Symbolic) : Folds (operand value) := by
  intro state cause h
  unfold TraceM.operand at h
  split at h
  · cases h
  · cases h
    exact id

lemma operands (values : List Symbolic) : Folds (operands values) := by
  intro state cause h
  unfold TraceM.operands at h
  split at h
  · cases h
  · cases h
    exact id

lemma record (operation : Operation) (operands : List Operand) :
    Folds (record operation operands) :=
  of_ok fun _ => ⟨_, rfl⟩

lemma register (key : String) (layer : Layer) : Folds (register key layer) :=
  of_ok fun _ => ⟨_, rfl⟩

lemma unknown (operands : List Symbolic) : Folds (unknown operands) := of_ok fun _ => ⟨_, rfl⟩

lemma emitCall (function : Primitive) (args : List Symbolic) : Folds (emitCall function args) :=
  bind_any (operands args) fun _ => bind_any (record _ _) fun _ => pure _

lemma emitMethod (function : Primitive) (receiver : Symbolic) (args : List Symbolic) :
    Folds (emitMethod function receiver args) := by
  refine bind_any (operand receiver) fun base => ?_
  split
  · exact bind_any (operands args) fun _ => bind_any (record _ _) fun _ => pure _
  · exact breakOff id

end Folds

/-! ### The operations of a trace -/

/-- Arguments that are all constants are the values of literals. -/
lemma exists_of_constantArgs? {args : List Symbolic} {values : List Value}
    (h : constantArgs? args = some values) : ∃ literals, values = Value.ofLiterals literals := by
  induction args generalizing values with
  | nil =>
    cases h
    exact ⟨[], rfl⟩
  | cons arg rest ih =>
    simp only [constantArgs?, List.mapM_cons, Option.bind_eq_bind, Option.pure_def,
      Option.bind_eq_some_iff, Option.map_eq_some_iff, Option.some.injEq] at h
    obtain ⟨_, ⟨literal, -, rfl⟩, others, hothers, rfl⟩ := h
    obtain ⟨literals, rfl⟩ := ih hothers
    exact ⟨literal :: literals, rfl⟩

variable (function : Primitive) (lhs rhs callee : Symbolic) (args : List Symbolic)

lemma folds_binaryOp : Folds (binaryOp function lhs rhs) := by
  unfold binaryOp
  split
  · next a b _ _ => exact .folding (.binary function a b) _ fun literal => .pure _
  · split
    · exact .emitCall _ _
    · split
      · exact .pure _
      · exact .unknown _

lemma folds_negate (value : Symbolic) : Folds (negate value) := by
  unfold negate
  split
  · next literal _ => exact .folding (.unary .neg literal) _ fun negated => .pure _
  · split
    · exact .emitCall _ _
    · exact .unknown _

lemma folds_foldBuiltin (builtin : Builtin) : Folds (foldBuiltin builtin callee args) := by
  unfold foldBuiltin
  split
  · next values hvalues =>
    obtain ⟨literals, rfl⟩ := exists_of_constantArgs? hvalues
    exact .folding (.builtin builtin literals) _ fun literal => .pure _
  · split
    · split
      · exact .bind_any (.emitCall _ _) fun result => .pure _
      · exact .breakOff id
    · exact .breakOff id

lemma folds_callBuiltin (builtin : Builtin) : Folds (callBuiltin builtin callee args) := by
  unfold callBuiltin
  split
  · next container =>
    unfold callLength
    simp only
    split
    · exact .bind_any (.ofRun _) fun word => .pure _
    · exact .bind_any (.emitMethod _ _ _) fun result => .pure _
    · exact folds_foldBuiltin callee [container] .len
  · exact folds_foldBuiltin callee args builtin

lemma folds_callLayer (config : Config) (key : String) (node : Layer) :
    Folds (callLayer config key node callee args) := by
  unfold callLayer
  split
  · exact .breakOff id
  · exact .breakOff id
  · exact .bind_any (.operands args) fun _ => .bind_any (.register _ _) fun _ =>
      .bind_any (.record _ _) fun _ => .pure _

lemma folds_callValue (config : Config) : Folds (callValue config callee args) := by
  unfold callValue
  simp only
  split
  · exact .ofAnswer _
  · exact folds_callBuiltin callee args _
  · split
    · next values hvalues =>
      obtain ⟨literals, rfl⟩ := exists_of_constantArgs? hvalues
      exact .folding (.primitive 0 _ literals) _ fun literal => .pure _
    · exact .bind_any (.emitCall _ _) fun result => .pure _
  · exact folds_callLayer callee args config _ _
  · split
    · exact .bind_any (.emitMethod _ _ _) fun result => .pure _
    · exact .breakOff id
  all_goals exact .breakOff id

end TraceM

/-! ### Items of literals -/

namespace Value

/-- A slice fails for its step or for the length of what it slices. -/
lemma positions_ne_type {bounds : Slice} {size : Nat} {fault : TypeFault} :
    bounds.positions size ≠ .error (.type fault) := by
  intro h
  rw [Slice.positions] at h
  split_ifs at h
  · exact nomatch h
  · cases hsize : narrow size <;> rw [hsize] at h <;> exact nomatch h

lemma itemAt_ne_type {items : List Value} {index : Int64} {fault : TypeFault} :
    itemAt items index ≠ .error (.type fault) := by
  intro h
  unfold itemAt at h
  split at h <;> cases h

/-- An item is missing, or what should have items has none; no item is refused for what it is. -/
lemma IsLiteral.subscript_ne_notLiteral {container key : Value}
    (h : container.IsLiteral) {serial : Nat}
    {type : TypeName} : container.subscript serial key ≠ .error (.type (.notLiteral type)) := by
  intro herror
  unfold Value.subscript at herror
  split at herror
  · exact itemAt_ne_type herror
  · exact itemAt_ne_type herror
  · exact positions_ne_type (except_map_eq_error.1 herror)
  · exact positions_ne_type (except_map_eq_error.1 herror)
  · exact itemAt_ne_type herror
  · exact not_isLiteral_dict h
  · exact not_isLiteral_dict h
  · exact not_isLiteral_array h
  · exact not_isLiteral_layer h
  · exact not_isLiteral_layer h
  · cases herror

end Value

/-- Reading an item of a literal is reading it from the value of the literal. -/
lemma Literal.getItem_eq (literal key : Literal) :
    (literal.getItem key).map Value.ofLiteral = (Value.ofLiteral literal).subscript 0
      (.ofLiteral key) := by
  unfold getItem
  cases hitem : (Value.ofLiteral literal).subscript 0 (.ofLiteral key) with
  | error error => rfl
  | ok result =>
    obtain ⟨item, hliteral, rfl⟩ := (Folding.subscript 0 literal key).isLiteral hitem
    simp only [ok_bind, hliteral, Except.map]

/-- Folding is closed: an operation on literals, nested to any depth, gives the value of a literal
whenever it gives a value.  So neither arithmetic nor negation nor a call breaks a trace off for
want of a literal, in whichever state, and reading an item of a literal fails only where the item is
missing. -/
theorem folding_closed :
    (∀ run result, Folding run → run = .ok result → result.IsLiteral) ∧
      (∀ function lhs rhs, TraceM.Folds (TraceM.binaryOp function lhs rhs)) ∧
      (∀ value, TraceM.Folds (TraceM.negate value)) ∧
      (∀ config callee args, TraceM.Folds (TraceM.callValue config callee args)) ∧
      (∀ builtin callee args, TraceM.Folds (TraceM.callBuiltin builtin callee args)) ∧
      ∀ literal key : Literal, (literal.getItem key).map Value.ofLiteral =
          (Value.ofLiteral literal).subscript 0 (.ofLiteral key) ∧
        ∀ type, literal.getItem key ≠ .error (.type (.notLiteral type)) := by
  refine ⟨fun run result hfolding hok => hfolding.isLiteral hok,
    TraceM.folds_binaryOp, TraceM.folds_negate,
    fun config callee args => TraceM.folds_callValue callee args config,
    fun builtin callee args => TraceM.folds_callBuiltin callee args builtin, fun literal key => ?_⟩
  have heq := Literal.getItem_eq literal key
  refine ⟨heq, fun type herror => ?_⟩
  rw [herror] at heq
  exact (Value.isLiteral_ofLiteral literal).subscript_ne_notLiteral heq.symm

/-- The pair of a number that is none and of a list with the least word. -/
def oddPair : Literal := .tuple [.float Double.nan, .list [.int (-0x8000000000000000)]]

/-- Doubling the pair gives a literal again; the least word has no negation, and a trace that
negates it breaks off because a run fails. -/
theorem oddPair_folds :
    (∃ result, binary .add (.ofLiteral oddPair) (.ofLiteral oddPair) = .ok result ∧
      result.IsLiteral) ∧
      (∃ cause, TraceM.negate (.constant (.int (-0x8000000000000000))) {} = .error cause ∧
        cause = .run (.overflow (.integer .neg)) ∧ ¬ cause.Unfolded) ∧
      (oddPair.getItem (.int (-1))).map Value.ofLiteral =
        (Value.ofLiteral oddPair).subscript 0 (.int (-1)) := by
  obtain ⟨hclosed, -, hnegate, -, -, hitem⟩ := folding_closed
  exact ⟨⟨_, rfl, hclosed _ _ (.binary .add oddPair oddPair) rfl⟩,
    ⟨_, rfl, rfl, hnegate (.constant (.int (-0x8000000000000000))) {} _ rfl⟩,
      (hitem oddPair (.int (-1))).1⟩

end GuardedTrace
