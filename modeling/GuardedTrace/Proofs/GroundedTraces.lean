/-
The graph that a trace records.

A builder is *grounded* when each of its nodes reads only nodes before it, no two of its nodes are
alike, and attributes are read from one operand.  A state of a trace is grounded when its builder
is, the layers that its nodes call are in its table, and all values that it holds are within its
nodes.

A part of a trace is looked at from every state with at least some number of nodes: values that were
within those nodes stay within the nodes of any later state.  Every instruction keeps states
grounded, and what a program returns reads only nodes that were recorded.
-/
import GuardedTrace.Proofs.NodeBounds

namespace GuardedTrace

/-! ### Builders -/

namespace Builder

variable {builder after : Builder} {operation : Operation} {operands : List Operand} {id : Nat}

/-- Nodes read only what is before them, and are all different; attributes are read from one
operand. -/
structure Grounded (builder : Builder) : Prop where
  behind : ∀ (position : Nat) (node : Node), builder.nodes.toList[position]? = some node →
    ∀ read ∈ node.reads, read < position
  distinct : (builder.nodes.toList.map fun node => (node.operation, node.operands)).Nodup
  unary : ∀ node ∈ builder.nodes.toList, ∀ name, node.operation = .readAttr name →
    node.operands.length = 1

lemma grounded_start : Grounded {} := by
  constructor <;> simp

lemma behindReads_le {count : Nat} (h : ∀ read ∈ Operand.readsItems operands, read < count) :
    behindReads operands ≤ count := by
  unfold behindReads
  suffices hfold : ∀ reads : List Nat, (∀ read ∈ reads, read < count) → ∀ start ≤ count,
      reads.foldl (fun position id => max position (id + 1)) start ≤ count from
    hfold _ h 0 (Nat.zero_le _)
  intro reads
  induction reads with
  | nil => exact fun _ _ hstart => hstart
  | cons read rest ih =>
    intro hreads start hstart
    obtain ⟨hread, hrest⟩ := List.forall_mem_cons.1 hreads
    exact ih hrest _ (max_le hstart hread)

/-- A builder that counts as ordered has every node behind the nodes that it reads. -/
def Searchable (builder : Builder) : Prop :=
  builder.ordered = true → ∀ (position : Nat) (node : Node),
    builder.nodes.toList[position]? = some node →
    behindReads node.operands ≤ position

lemma Grounded.searchable (h : builder.Grounded) : builder.Searchable :=
  fun _ position node hnode => behindReads_le (h.behind position node hnode)

/-- A request is answered by a new node only when there is no node like it: a node like it would
stand behind everything that the request reads, and there it is looked for. -/
lemma not_mem_of_find? (hsearchable : builder.Searchable)
    (h : builder.find? operation operands = none) :
    (operation, operands) ∉ builder.nodes.toList.map fun node =>
      (node.operation, node.operands) := by
  intro hmem
  obtain ⟨node, hnode, hsame⟩ := List.mem_map.1 hmem
  obtain ⟨rfl, rfl⟩ := Prod.mk.inj hsame
  obtain ⟨position, hposition⟩ := List.getElem?_of_mem hnode
  -- The search starts behind all that the request reads, and so at the latest at a node like it.
  have hstart : builder.searchStart node.operands ≤ position := by
    unfold searchStart
    split
    · next hordered => exact hsearchable hordered position node hposition
    · exact Nat.zero_le _
  simp only [find?, Option.map_eq_none_iff, Array.findIdx?_eq_none_iff] at h
  have hextract : node ∈ builder.nodes.extract (builder.searchStart node.operands) := by
    rw [← Array.mem_toList_iff, Array.toList_extract]
    refine List.mem_of_getElem? (i := position - builder.searchStart node.operands) ?_
    rw [Array.getElem?_toList] at hposition
    have hlt := (Array.getElem?_eq_some_iff.1 hposition).1
    simp only [List.extract_eq_take_drop, List.getElem?_take, List.getElem?_drop,
      Nat.add_sub_cancel' hstart, Array.getElem?_toList, hposition]
    rw [if_pos (Nat.sub_lt_sub_right hstart hlt)]
  have hdiffers := h node hextract
  simp [(Operand.sameItems_iff _ _).2 rfl] at hdiffers

/-- What a new node was recorded for was not there before. -/
lemma not_mem_of_record (hsearchable : builder.Searchable)
    (h : builder.record operation operands = (id, after))
    (hnodes : after.nodes.toList = builder.nodes.toList ++ [⟨id, operation, operands⟩]) :
    (operation, operands) ∉ builder.nodes.toList.map fun node =>
      (node.operation, node.operands) := by
  cases hfind : builder.find? operation operands with
  | none => exact not_mem_of_find? hsearchable hfind
  | some found =>
    simp only [Builder.record, hfind, Prod.mk.injEq] at h
    have hlength := congrArg List.length hnodes
    rw [← h.2] at hlength
    simp at hlength

/-- A request for what reads recorded nodes only keeps a builder grounded. -/
lemma Grounded.record (hgrounded : builder.Grounded)
    (hreads : ∀ read ∈ Operand.readsItems operands, read < builder.nodes.size)
    (hunary : ∀ name, operation = .readAttr name → operands.length = 1)
    (h : builder.record operation operands = (id, after)) :
    after.Grounded ∧ builder.nodes.size ≤ after.nodes.size ∧ id < after.nodes.size ∧
      ∀ node ∈ after.nodes.toList, node ∈ builder.nodes.toList ∨ node.operation = operation := by
  rcases record_cases h with ⟨rfl, node, hnode, -⟩ | ⟨rfl, hnodes, -⟩
  · have hlt := (List.getElem?_eq_some_iff.1 hnode).1
    exact ⟨hgrounded, Nat.le_refl _, by simpa using hlt, fun _ hold => Or.inl hold⟩
  · have hnew := not_mem_of_record hgrounded.searchable h hnodes
    have hsize : after.nodes.size = builder.nodes.size + 1 := by
      simpa using congrArg List.length hnodes
    refine ⟨⟨?_, ?_, ?_⟩, by omega, by omega, ?_⟩
    · intro position node hnode read hread
      rw [hnodes] at hnode
      rcases getElem?_append_one hnode with hnode | ⟨rfl, rfl⟩
      · exact hgrounded.behind position node hnode read hread
      · simpa using hreads read hread
    · rw [hnodes, List.map_append, List.map_singleton, List.nodup_append_comm]
      exact List.nodup_cons.2 ⟨hnew, hgrounded.distinct⟩
    · rw [hnodes]
      refine List.forall_mem_append.2 ⟨hgrounded.unary, ?_⟩
      intro node hnode name hname
      obtain rfl := List.mem_singleton.1 hnode
      exact hunary name hname
    · rw [hnodes]
      intro node hnode
      refine (List.mem_append.1 hnode).imp id fun hnew => ?_
      rw [List.mem_singleton.1 hnew]

end Builder

/-! ### Operands -/

namespace Symbolic

/-- What becomes of a builder when values are turned into operands: it stays grounded, and all that
is added are nodes that read attributes. -/
structure Refers (builder after : Builder) (reads : List Nat) : Prop where
  grounded : after.Grounded
  size_le : builder.nodes.size ≤ after.nodes.size
  reads_lt : ∀ read ∈ reads, read < after.nodes.size
  added : ∀ node ∈ after.nodes.toList, node ∈ builder.nodes.toList ∨
    ∃ name, node.operation = .readAttr name

lemma Refers.nil {builder : Builder} (h : builder.Grounded) : Refers builder builder [] :=
  ⟨h, Nat.le_refl _, nofun, fun _ => Or.inl⟩

lemma Refers.append {builder middle after : Builder} {reads others : List Nat}
    (h : Refers builder middle reads) (h' : Refers middle after others) :
    Refers builder after (reads ++ others) := by
  refine ⟨h'.grounded, h.size_le.trans h'.size_le, List.forall_mem_append.2 ⟨?_, h'.reads_lt⟩, ?_⟩
  · exact fun read hread => Nat.lt_of_lt_of_le (h.reads_lt read hread) h'.size_le
  · exact fun node hnode => (h'.added node hnode).elim (h.added node) Or.inr

mutual

/-- The operand of a value within the nodes of a builder reads recorded nodes. -/
lemma refers_operand : ∀ {value : Symbolic} {builder after : Builder} {arg : Operand},
    builder.Grounded → value.Within builder.nodes.size → value.operand builder = (.ok arg, after) →
    Refers builder after arg.reads
  | ⟨kind, support, guards, localName, globalName⟩, builder, after, arg, hgrounded, hwithin, h => by
    simp only [operand] at h
    split at h
    · cases h
    · split at h
      · next heq =>
        cases h
        exact refers_operandOfKind hgrounded hwithin heq
      · cases h
      · cases h
termination_by structural value => value

lemma refers_operandOfKind : ∀ {kind : Kind} {builder after : Builder} {arg : Operand},
    builder.Grounded → WithinKind builder.nodes.size kind →
    operandOfKind kind builder = (.ok (some arg), after) → Refers builder after arg.reads
  | .array facts, builder, after, arg, hgrounded, hwithin, h
  | .scalar facts, builder, after, arg, hgrounded, hwithin, h => by
    cases h
    exact ⟨hgrounded, Nat.le_refl _, fun read hread => List.mem_singleton.1 hread ▸
      hwithin, fun _ => Or.inl⟩
  | .constant literal, builder, after, arg, hgrounded, _, h => by
    cases h
    exact .nil hgrounded
  | .host (.elementType _), builder, after, arg, hgrounded, _, h
  | .host (.device _), builder, after, arg, hgrounded, _, h => by
    cases h
    exact .nil hgrounded
  | .sequence kind items, builder, after, arg, hgrounded, hwithin, h => by
    simp only [operandOfKind] at h
    rcases hargs : operands items builder with ⟨_ | args, builder'⟩
    · simp [hargs] at h
    · have hrefers := refers_operands hgrounded hwithin hargs
      rw [hargs] at h
      cases kind with
      | list | tuple =>
        cases h
        exact hrefers
      | slice =>
        match args, h, hrefers with
        | [start, stop, step], h, hrefers =>
          cases h
          simpa [Operand.reads, Operand.readsItems] using hrefers
        | [], h, _ | [_], h, _ | [_, _], h, _ | _ :: _ :: _ :: _ :: _, h, _ => simp at h
  | .dict entries, builder, after, arg, hgrounded, hwithin, h => by
    simp only [operandOfKind] at h
    rcases hargs : operandEntries entries builder with ⟨_ | args, builder'⟩
    · simp [hargs] at h
    · have hrefers := refers_operandEntries hgrounded hwithin hargs
      rw [hargs] at h
      cases h
      exact hrefers
  | .attr holder name, builder, after, arg, hgrounded, hwithin, h => by
    simp only [operandOfKind] at h
    split at h
    · next base middle hholder =>
      have hrefers := refers_operand hgrounded hwithin hholder
      rcases hrecord : middle.record (.readAttr name) [.node base] with ⟨id, builder'⟩
      rw [hrecord] at h
      cases h
      have hreads : ∀ read ∈ Operand.readsItems [.node base], read < middle.nodes.size :=
        hrefers.reads_lt
      obtain ⟨hafter, hle, hid, hadded⟩ := hrefers.grounded.record hreads (fun _ _ => rfl) hrecord
      refine ⟨hafter, hrefers.size_le.trans hle,
        fun read hread => List.mem_singleton.1 hread ▸ hid, ?_⟩
      exact fun node hnode => (hadded node hnode).elim (hrefers.added node)
        fun h => Or.inr ⟨name, h⟩
    · cases h
    · cases h
  | .layer _ _, _, _, _, _, _, h | .deferred _, _, _, _, _, _, h | .builtin _, _, _, _, _, _, h
  | .iterator _ _, _, _, _, _, _, h | .routine _, _, _, _, _, _, h | .method _ _, _, _, _, _, _, h
  | .host (.primitive _), _, _, _, _, _, h | .library _, _, _, _, _, _, h
  | .unsupported _ _, _, _, _, _, _, h | .unknown _, _, _, _, _, _, h => by
    simp [operandOfKind] at h
termination_by structural kind => kind

lemma refers_operands : ∀ {items : List Symbolic} {builder after : Builder} {args : List Operand},
    builder.Grounded → WithinItems builder.nodes.size items →
      operands items builder = (.ok args, after) →
    Refers builder after (Operand.readsItems args)
  | [], builder, after, args, hgrounded, _, h => by
    cases h
    exact .nil hgrounded
  | item :: rest, builder, after, args, hgrounded, hwithin, h => by
    simp only [operands] at h
    split at h
    · cases h
    · next arg middle hitem =>
      rcases hrest : operands rest middle with ⟨_ | others, builder'⟩
      · simp [hrest] at h
      · rw [hrest] at h
        cases h
        have hrefers := refers_operand hgrounded hwithin.1 hitem
        exact hrefers.append
          (refers_operands hrefers.grounded (WithinItems.mono hrefers.size_le hwithin.2) hrest)
termination_by structural items => items

lemma refers_operandEntries : ∀ {entries : List (Key × Symbolic)} {builder after : Builder}
    {args : List (Key × Operand)}, builder.Grounded → WithinEntries builder.nodes.size entries →
    operandEntries entries builder = (.ok args, after) →
      Refers builder after (Operand.readsEntries args)
  | [], builder, after, args, hgrounded, _, h => by
    cases h
    exact .nil hgrounded
  | (key, item) :: rest, builder, after, args, hgrounded, hwithin, h => by
    simp only [operandEntries] at h
    split at h
    · cases h
    · next arg middle hitem =>
      rcases hrest : operandEntries rest middle with ⟨_ | others, builder'⟩
      · simp [hrest] at h
      · rw [hrest] at h
        cases h
        have hrefers := refers_operand hgrounded hwithin.1 hitem
        exact hrefers.append
          (refers_operandEntries hrefers.grounded
            (WithinEntries.mono hrefers.size_le hwithin.2) hrest)
termination_by structural entries => entries

end

end Symbolic

/-! ### States of a trace -/

/-- The graph recorded so far is grounded, the layers that it calls are registered, and all values
stand for recorded nodes. -/
structure Tracer.Grounded (state : Tracer) : Prop where
  builder : state.builder.Grounded
  registered : ∀ node ∈ state.builder.nodes.toList, ∀ key, node.operation = .callLayer key →
    (state.layers.lookup key).isSome
  stack : ∀ value ∈ state.stack, value.Within state.builder.nodes.size
  locals : ∀ name value, state.locals.lookup name = some value →
    value.Within state.builder.nodes.size
  globals : ∀ name value, state.globals.lookup name = some value →
    value.Within state.builder.nodes.size

namespace Tracer

variable {state after : Tracer}

lemma grounded_start : Grounded {} := ⟨Builder.grounded_start, by simp, nofun, nofun, nofun⟩

lemma Grounded.of_pc (h : state.Grounded) (pc : Nat) : Grounded { state with pc } :=
  ⟨h.builder, h.registered, h.stack, h.locals, h.globals⟩

/-- A state that holds the same values over a larger grounded graph. -/
lemma Grounded.of_builder (h : state.Grounded) (hbuilder : after.builder.Grounded)
    (hle : state.builder.nodes.size ≤ after.builder.nodes.size)
    (hregistered : ∀ node ∈ after.builder.nodes.toList, ∀ key, node.operation = .callLayer key →
      (after.layers.lookup key).isSome)
    (hstack : after.stack = state.stack) (hlocals : after.locals = state.locals)
    (hglobals : after.globals = state.globals) : after.Grounded := by
  refine ⟨hbuilder, hregistered, fun value hvalue => ?_, fun name value hvalue => ?_,
    fun name value hvalue => ?_⟩
  · exact (h.stack value (hstack ▸ hvalue)).mono hle
  · exact (h.locals name value (hlocals ▸ hvalue)).mono hle
  · exact (h.globals name value (hglobals ▸ hvalue)).mono hle

/-- A state that holds the same values over a larger grounded graph, to which no call of a layer is
added. -/
lemma Grounded.of_added (h : state.Grounded) (hbuilder : after.builder.Grounded)
    (hle : state.builder.nodes.size ≤ after.builder.nodes.size)
    (hadded : ∀ node ∈ after.builder.nodes.toList, node ∈ state.builder.nodes.toList ∨
      ∀ key, node.operation ≠ .callLayer key)
    (hlayers : after.layers = state.layers) (hstack : after.stack = state.stack)
    (hlocals : after.locals = state.locals) (hglobals : after.globals = state.globals) :
    after.Grounded := by
  refine h.of_builder hbuilder hle ?_ hstack hlocals hglobals
  intro node hnode key hkey
  rw [hlayers]
  exact h.registered node ((hadded node hnode).resolve_right fun hnew => hnew key hkey) key hkey

end Tracer

namespace TraceM

variable {α β : Type} {x : TraceM α} {f : α → TraceM β} {count : Nat} {P Q : Nat → α → Prop}
  {R : Nat → β → Prop}

/-- From a grounded state with at least `count` nodes, a part of a trace leads to a grounded state
with at least as many nodes as before; its result has a property of the number of nodes that there
are then. -/
def Grounds (count : Nat) (P : Nat → α → Prop) (x : TraceM α) : Prop :=
  ∀ state value after, state.Grounded → count ≤ state.builder.nodes.size →
    x state = .ok (value, after) →
    after.Grounded ∧ state.builder.nodes.size ≤ after.builder.nodes.size ∧
      P after.builder.nodes.size value

namespace Grounds

lemma pure {value : α} (h : ∀ n, count ≤ n → P n value) :
    Grounds count P (pure value : TraceM α) := by
  intro state result after hstate hcount heq
  cases pure_eq_ok.1 heq
  exact ⟨hstate, Nat.le_refl _, h _ hcount⟩

/-- What follows starts with the nodes that there are then. -/
lemma bind (hx : Grounds count P x)
    (hf : ∀ n, count ≤ n → ∀ value, P n value → Grounds n R (f value)) :
    Grounds count R (x >>= f) := by
  intro state result after hstate hcount heq
  obtain ⟨value, middle, hmiddle, hlast⟩ := bind_eq_ok.1 heq
  obtain ⟨hgrounded, hle, hvalue⟩ := hx _ _ _ hstate hcount hmiddle
  obtain ⟨hafter, hle', hresult⟩ :=
    hf _ (hcount.trans hle) value hvalue _ _ _ hgrounded (Nat.le_refl _) hlast
  exact ⟨hafter, hle.trans hle', hresult⟩

lemma breakOff {cause : BreakCause} : Grounds count P (breakOff cause : TraceM α) := nofun

lemma ite {c : Prop} [Decidable c] {y : TraceM α} (hx : Grounds count P x)
    (hy : Grounds count P y) :
    Grounds count P (if c then x else y) := by
  split
  · exact hx
  · exact hy

lemma ofAnswer {answer : Answer α} (h : ∀ n, count ≤ n → ∀ value, answer = .ok value → P n value) :
    Grounds count P (ofAnswer answer) := by
  intro state value after hstate hcount heq
  obtain ⟨hvalue, rfl⟩ := ofAnswer_eq_ok.1 heq
  exact ⟨hstate, Nat.le_refl _, h _ hcount value hvalue⟩

/-- A part that records nothing, whatever its result. -/
lemma of_quiet (h : ∀ state value after, x state = .ok (value, after) → after = state) :
    Grounds count (fun _ _ => True) x := by
  intro state value after hstate _ heq
  obtain rfl := h state value after heq
  exact ⟨hstate, Nat.le_refl _, trivial⟩

lemma ofRun (result : Run α) : Grounds count (fun _ _ => True) (ofRun result) :=
  of_quiet fun _ _ _ h => (ofRun_eq_ok.1 h).2

lemma ofOption (cause : BreakCause) (option : Option α) :
    Grounds count (fun _ _ => True) (ofOption cause option) :=
  of_quiet fun _ _ _ h => (ofOption_eq_ok.1 h).2

/-- A value that is made of the literal that an operation on literals gives. -/
lemma folded {result : Run Value} {cause : Value → TypeName → UnsupportedCause}
    {make : Value → Literal → Symbolic}
    (h : ∀ n value literal, (make value literal).Within n) :
    Grounds count Symbolic.Within (TraceM.ofRun result >>= fun value =>
      foldedLiteral value (cause value) >>= fun literal => Pure.pure (make value literal)) :=
  bind (ofRun _) fun _ _ _ _ => bind (ofOption _ _) fun _ _ _ _ => pure fun _ _ => h _ _ _

/-! ### Recording -/

lemma record {operation : Operation} {operands : List Operand}
    (hreads : ∀ read ∈ Operand.readsItems operands, read < count)
    (hunary : ∀ name, operation = .readAttr name → operands.length = 1)
    (hlayer : ∀ key, operation ≠ .callLayer key) :
    Grounds count (fun n id => id < n) (record operation operands) := by
  intro state id after hstate hcount heq
  obtain ⟨builder, hrecord, rfl⟩ := record_eq_ok.1 heq
  have hreads' : ∀ read ∈ Operand.readsItems operands, read < state.builder.nodes.size :=
    fun read hread => Nat.lt_of_lt_of_le (hreads read hread) hcount
  obtain ⟨hbuilder, hle, hid, hadded⟩ := hstate.builder.record hreads' hunary hrecord
  refine ⟨hstate.of_added hbuilder hle (fun node hnode => ?_) rfl rfl rfl rfl, hle, hid⟩
  rcases hadded node hnode with hold | hnew
  · exact Or.inl hold
  · exact Or.inr (hnew ▸ hlayer)

/-- Turning values into operands keeps states grounded. -/
lemma of_refers {state : Tracer} {builder : Builder} {reads : List Nat} (hstate : state.Grounded)
    (h : Symbolic.Refers state.builder builder reads) : Tracer.Grounded { state with builder } := by
  refine hstate.of_added h.grounded h.size_le (fun node hnode => ?_) rfl rfl rfl rfl
  exact (h.added node hnode).imp_right fun ⟨_, hname⟩ => hname ▸ nofun

lemma operand {value : Symbolic} (h : value.Within count) :
    Grounds count (fun n arg => ∀ read ∈ arg.reads, read < n) (operand value) := by
  intro state arg after hstate hcount heq
  obtain ⟨builder, hoperand, rfl⟩ := operand_eq_ok.1 heq
  have hrefers := Symbolic.refers_operand hstate.builder (h.mono hcount) hoperand
  exact ⟨of_refers hstate hrefers, hrefers.size_le, hrefers.reads_lt⟩

lemma operands {values : List Symbolic} (h : ∀ value ∈ values, value.Within count) :
    Grounds count (fun n args => ∀ read ∈ Operand.readsItems args, read < n) (operands values) := by
  intro state args after hstate hcount heq
  obtain ⟨builder, hoperands, rfl⟩ := operands_eq_ok.1 heq
  have hwithin : Symbolic.WithinItems state.builder.nodes.size values :=
    Symbolic.withinItems_iff.2 (Symbolic.forall_within_mono hcount h)
  have hrefers := Symbolic.refers_operands hstate.builder hwithin hoperands
  exact ⟨of_refers hstate hrefers, hrefers.size_le, hrefers.reads_lt⟩

lemma register (key : String) (layer : Layer) :
    Grounds count (fun _ _ => True) (register key layer) := by
  intro state value after hstate hcount heq
  have hrecords := Registers.register key layer state value after heq
  obtain ⟨-, rfl⟩ := Prod.mk.inj (register_eq_ok.1 heq)
  refine ⟨hstate.of_builder hstate.builder (Nat.le_refl _) ?_ rfl rfl rfl, Nat.le_refl _, trivial⟩
  intro node hnode other hother
  obtain ⟨found, hfound⟩ := Option.isSome_iff_exists.1 (hstate.registered node hnode other hother)
  exact Option.isSome_iff_exists.2 ⟨found, hrecords.layers other found hfound⟩

lemma placeholder (path : String) (scope : Scope) :
    Grounds count (fun n id => id < n) (placeholder path scope) := by
  intro state id after hstate _ heq
  obtain ⟨hrecord, -, -, hlayers, hstack, hlocals, hglobals⟩ := placeholder_eq_ok heq
  obtain ⟨hbuilder, hle, hid, hadded⟩ :=
    hstate.builder.record (by simp [Operand.readsItems]) (by simp) hrecord
  refine ⟨hstate.of_added hbuilder hle (fun node hnode => ?_) hlayers hstack
    hlocals hglobals, hle, hid⟩
  rcases hadded node hnode with hold | hnew
  · exact Or.inl hold
  · exact Or.inr (hnew ▸ nofun)

/-! ### Wrapped values -/

lemma wrapScalar (path : String) (scope : Scope) (elementType : ElementType) (type : TypeName) :
    Grounds count Symbolic.Within (wrapScalar path scope elementType type) :=
  bind (placeholder path scope) fun _ _ _ hid => pure fun _ hle =>
    Symbolic.within_boundTo.2 (Nat.lt_of_lt_of_le hid hle)

mutual

/-- What is wrapped from the frame stands for placeholders that are recorded. -/
lemma wrap (config : Config) (scope : Scope) : ∀ (value : Value) (path : String) {count : Nat},
    Grounds count Symbolic.Within (wrap config scope value path)
  | .array numbers, path, count =>
    bind (placeholder path scope) fun _ _ _ hid => pure fun _ hle =>
      Symbolic.within_boundTo.2 (Nat.lt_of_lt_of_le hid hle)
  | .int _, path, count | .float _, path, count => by
    simp only [TraceM.wrap]
    exact ite (pure fun _ _ => Symbolic.within_boundTo.2 trivial) (wrapScalar path scope _ _)
  | .tuple items, path, count | .list items, path, count =>
    bind (wrapItems config scope items path 0) fun _ _ _ hitems => pure fun _ hle =>
      Symbolic.within_boundTo.2 (Symbolic.within_sequence (Symbolic.forall_within_mono hle hitems))
  | .dict entries, path, count =>
    bind (wrapEntries config scope entries path) fun _ _ _ hentries => pure fun _ hle =>
      Symbolic.within_boundTo.2 (Symbolic.within_derived.2
        (Symbolic.withinEntries_iff.2 fun entry hentry => (hentries entry hentry).mono hle))
  | .layer _, path, count | .routine _, path, count | .primitive _, path, count
  | .builtin _, path, count
  | .library _, path, count | .object _, path, count | .boundPrimitive _ _ _, path, count
  | .boundRoutine _ _ _, path, count => pure fun _ _ => Symbolic.within_boundTo.2 trivial
  | .none, path, count | .bool _, path, count | .str _, path, count | .slice _, path, count
  | .elementType _, path, count | .device _, path, count =>
    pure fun _ _ => Symbolic.within_boundTo.2 trivial
termination_by structural value => value

lemma wrapItems (config : Config) (scope : Scope) :
    ∀ (items : List Value) (path : String) (position : Nat)
    {count : Nat}, Grounds count (fun n wrapped => ∀ item ∈ wrapped, item.Within n)
      (wrapItems config scope items path position)
  | [], _, _, count => pure fun _ _ => by simp
  | item :: rest, path, position, count =>
    bind (wrap config scope item _) fun _ _ _ hitem =>
      bind (wrapItems config scope rest path (position + 1)) fun _ hle _ hothers =>
        pure fun _ hle' =>
        List.forall_mem_cons.2 ⟨hitem.mono (hle.trans hle'),
          Symbolic.forall_within_mono hle' hothers⟩
termination_by structural items => items

lemma wrapEntries (config : Config) (scope : Scope) :
    ∀ (entries : List (Key × Value)) (path : String)
    {count : Nat}, Grounds count (fun n wrapped => ∀ entry ∈ wrapped, entry.2.Within n)
      (wrapEntries config scope entries path)
  | [], _, count => pure fun _ _ => by simp
  | (key, item) :: rest, path, count =>
    bind (wrap config scope item _) fun _ _ _ hitem =>
      bind (wrapEntries config scope rest path) fun _ hle _ hothers => pure fun _ hle' =>
        List.forall_mem_cons.2
          ⟨hitem.mono (hle.trans hle'), fun entry hentry => (hothers entry hentry).mono hle'⟩
termination_by structural entries => entries

end

/-! ### Values -/

section

variable {value key callee : Symbolic} {args : List Symbolic}

lemma unknown (values : List Symbolic) : Grounds count Symbolic.Within (unknown values) := by
  intro state result after hstate hcount heq
  cases heq
  exact ⟨⟨hstate.builder, hstate.registered, hstate.stack, hstate.locals, hstate.globals⟩,
    Nat.le_refl _, trivial⟩

lemma emitCall {function : Primitive} (h : ∀ arg ∈ args, arg.Within count) :
    Grounds count Symbolic.Within (emitCall function args) :=
  bind (operands h) fun _ _ _ hreads => bind (record hreads nofun nofun)
    fun _ _ _ hid => pure fun _ hle =>
    Symbolic.within_derived.2 (Symbolic.withinKind_nodeResult (Nat.lt_of_lt_of_le hid hle) _ _)

lemma emitMethod {function : Primitive} (hvalue : value.Within count)
    (h : ∀ arg ∈ args, arg.Within count) :
    Grounds count Symbolic.Within (emitMethod function value args) := by
  refine bind (operand hvalue) fun n hle arg hreads => ?_
  split
  · next base =>
    refine bind (operands (Symbolic.forall_within_mono hle h)) fun m hle' others hothers => ?_
    have hall : ∀ read ∈ Operand.readsItems (.node base :: others), read < m :=
      List.forall_mem_append.2 ⟨fun read hread => Nat.lt_of_lt_of_le
        (hreads read hread) hle', hothers⟩
    exact bind (record hall nofun nofun) fun _ _ _ hid => pure fun _ hle'' =>
      Symbolic.within_derived.2 (Symbolic.withinKind_nodeResult (Nat.lt_of_lt_of_le hid hle'') _ _)
  · exact breakOff

lemma binaryOp {function : Primitive} (hvalue : value.Within count) (hkey : key.Within count) :
    Grounds count Symbolic.Within (binaryOp function value key) := by
  unfold TraceM.binaryOp
  split
  · exact folded fun _ _ _ => trivial
  · refine ite (emitCall (by simpa using ⟨hvalue, hkey⟩)) ?_
    split
    · next kind hkind =>
      exact pure fun _ hle => Symbolic.within_derived.2
        (Symbolic.WithinKind.mono hle (Symbolic.withinKind_of_concatenated? hvalue hkey hkind))
    · exact unknown _

lemma negate (hvalue : value.Within count) : Grounds count Symbolic.Within (negate value) := by
  unfold TraceM.negate
  split
  · exact folded fun _ _ _ => trivial
  · exact ite (emitCall (by simpa using hvalue)) (unknown _)

lemma layerAttr {config : Config} {path name : String} {layer : Layer}
    (hvalue : value.Within count) :
    Grounds count Symbolic.Within (layerAttr config value path layer name) := by
  refine bind (ofOption _ _) fun n hle member _ => ?_
  split
  · exact pure fun _ _ => trivial
  · exact bind (register _ _) fun _ _ _ _ =>
      bind (record (by simp [Operand.readsItems]) nofun nofun) fun _ _ _ hid => pure fun _ hle' =>
        Symbolic.within_derived.2 (Nat.lt_of_lt_of_le hid hle')
  · exact pure fun _ _ => trivial
  · exact pure fun _ _ => trivial
  · split
    · exact pure fun _ _ => trivial
    · exact pure fun _ hle' => Symbolic.within_lazyAttr (hvalue.mono (hle.trans hle')) name

lemma getAttr {config : Config} {name : String} (hvalue : value.Within count) :
    Grounds count Symbolic.Within (getAttr config value name) := by
  unfold TraceM.getAttr
  split
  · exact layerAttr hvalue
  · split
    · exact bind (ofRun _) fun _ _ _ _ =>
        bind (wrap _ _ _ _) fun _ _ _ hwrapped => pure fun _ hle =>
        Symbolic.within_addGuards.2 (hwrapped.mono hle)
    · exact pure fun _ hle => Symbolic.within_constOrLazyAttr (hvalue.mono hle) name
  · refine pure fun _ hle => ?_
    cases hattr : value.constAttr? name with
    | none => exact Symbolic.within_lazyAttr (hvalue.mono hle) name
    | some attr => exact Symbolic.within_of_constAttr? hattr
  · exact pure fun _ hle => Symbolic.within_constOrLazyAttr (hvalue.mono hle) name
  · exact pure fun _ hle => Symbolic.within_lazyAttr (hvalue.mono hle) name
  · exact bind (ofOption _ _) fun _ _ _ _ => pure fun _ _ => Symbolic.within_wrapMember _
  · exact unknown _

lemma subscript (hvalue : value.Within count) (hkey : key.Within count) :
    Grounds count Symbolic.Within (subscript value key) := by
  have hboth : ∀ arg ∈ [value, key], arg.Within count := by simpa using ⟨hvalue, hkey⟩
  unfold TraceM.subscript
  refine ite (ite (emitCall hboth)
    (ofAnswer fun _ hle _ h => Symbolic.within_of_getItem (hvalue.mono hle) h)) ?_
  split
  · exact ite (emitCall hboth) breakOff
  · exact breakOff

lemma dictEntries : ∀ {pairs : List (Literal × Symbolic)} {count : Nat},
    (∀ pair ∈ pairs, pair.2.Within count) →
    Grounds count (fun n entries => ∀ entry ∈ entries, entry.2.Within n) (dictEntries pairs)
  | [], _, _ => pure fun _ _ => by simp
  | (literal, value) :: rest, count, h => by
    obtain ⟨hvalue, hrest⟩ := List.forall_mem_cons.1 h
    refine bind (ofOption _ _) fun n hle _ _ =>
      bind (dictEntries fun pair hpair => (hrest pair hpair).mono hle) fun m hle' _ hothers => ?_
    exact pure fun _ hle'' => List.forall_mem_cons.2 ⟨hvalue.mono (hle.trans (hle'.trans hle'')),
      fun entry hentry => (hothers entry hentry).mono hle''⟩

lemma buildDict (hargs : ∀ arg ∈ args, arg.Within count) :
    Grounds count Symbolic.Within (buildDict key args) := by
  refine bind (ofAnswer (P := fun _ _ => True) fun _ _ _ _ => trivial) fun n hle literal _ => ?_
  split
  · refine ite (bind (dictEntries fun pair hpair => ?_) fun m _ entries hentries =>
      pure fun _ hle' => ?_) breakOff
    · exact (hargs _ (List.of_mem_zip hpair).2).mono hle
    · refine Symbolic.within_derived.2 (Symbolic.withinEntries_iff.2 fun entry hentry => ?_)
      exact (hentries entry (Table.mem_of_mem_ofListOrdered hentry)).mono hle'
  · exact breakOff

lemma arrayRows : ∀ {rows : List Nat} {count : Nat}, value.Within count →
    Grounds count (fun n items => ∀ item ∈ items, item.Within n) (arrayRows value rows)
  | [], _, _ => pure fun _ _ => by simp
  | row :: rest, count, hvalue => by
    refine bind (ofRun _) fun n hle index _ => bind (emitCall ?_) fun m hle' item hitem =>
      bind (arrayRows (hvalue.mono (hle.trans hle'))) fun _ hle'' others hothers =>
        pure fun _ hle''' =>
        List.forall_mem_cons.2 ⟨hitem.mono (hle''.trans hle'''),
          Symbolic.forall_within_mono hle''' hothers⟩
    simpa using hvalue.mono hle

lemma unpackItems {expected : Nat} (hvalue : value.Within count) :
    Grounds count (fun n items => ∀ item ∈ items, item.Within n) (unpackItems value expected) := by
  unfold TraceM.unpackItems
  split
  · exact bind (ofOption _ _) fun _ hle _ _ => ite (arrayRows (hvalue.mono hle)) breakOff
  · exact bind (ofAnswer fun _ hle _ h => Symbolic.within_of_items (hvalue.mono hle) h)
      fun _ _ _ hitems =>
      ite (pure fun _ hle => Symbolic.forall_within_mono hle hitems) breakOff

lemma foldBuiltin {function : Builtin} (hargs : ∀ arg ∈ args, arg.Within count) :
    Grounds count Symbolic.Within (foldBuiltin function callee args) := by
  unfold TraceM.foldBuiltin
  dsimp only
  split
  · exact folded fun _ _ _ => trivial
  · split
    · exact ite (bind (emitCall hargs) fun _ _ _ hresult => pure fun _ hle =>
        Symbolic.within_inherit.2 (hresult.mono hle)) breakOff
    · exact breakOff

lemma callLength (hvalue : value.Within count) :
    Grounds count Symbolic.Within (callLength callee value) := by
  unfold TraceM.callLength
  dsimp only
  split
  · exact bind (ofRun _) fun _ _ _ _ => pure fun _ _ => trivial
  · exact bind (emitMethod hvalue (by simp)) fun _ _ _ hresult => pure fun _ hle =>
      Symbolic.within_inherit.2 (hresult.mono hle)
  · exact foldBuiltin (by simpa using hvalue)

lemma callBuiltin {function : Builtin} (hargs : ∀ arg ∈ args, arg.Within count) :
    Grounds count Symbolic.Within (callBuiltin function callee args) := by
  unfold TraceM.callBuiltin
  split
  · exact callLength (hargs _ (List.mem_cons_self ..))
  · exact foldBuiltin hargs

/-- A layer is registered before the node that calls it is recorded. -/
lemma callLayer {config : Config} {path : String} {layer : Layer}
    (hargs : ∀ arg ∈ args, arg.Within count) :
    Grounds count Symbolic.Within (callLayer config path layer callee args) := by
  intro state value after hstate hcount heq
  obtain ⟨-, -, reads, middle, id, builder, hoperands, hrecord, rfl, rfl⟩ := callLayer_eq_ok heq
  have hrefers := Symbolic.refers_operands hstate.builder
    (Symbolic.withinItems_iff.2 (Symbolic.forall_within_mono hcount hargs)) hoperands
  obtain ⟨hbuilder, hle, hid, hadded⟩ :=
    hrefers.grounded.record hrefers.reads_lt (fun _ hname => Operation.noConfusion hname) hrecord
  -- The state between the two is grounded; the node then adds a call of the layer that is there
  -- already.
  have hregistered : Tracer.Grounded { state with
      builder := middle, layers := state.layers.register path layer } :=
    (register path layer _ () _ (of_refers hstate hrefers) (Nat.zero_le _) rfl).1
  refine ⟨hregistered.of_builder hbuilder hle ?_ rfl rfl rfl, hrefers.size_le.trans hle, ?_⟩
  · intro node hnode other hother
    rcases hadded node hnode with hold | hnew
    · exact hregistered.registered node hold other hother
    · obtain rfl := Operation.callLayer.inj (hnew.symm.trans hother)
      exact Option.isSome_iff_exists.2 (LayerTable.exists_lookup_register _ _ _)
  · exact Symbolic.within_derived.2 (Symbolic.withinKind_outputFacts hid
      (Symbolic.forall_within_mono (hcount.trans (hrefers.size_le.trans hle)) hargs) _ _)

lemma callValue {config : Config} (hcallee : callee.Within count)
    (hargs : ∀ arg ∈ args, arg.Within count) :
    Grounds count Symbolic.Within (callValue config callee args) := by
  have hparts := Symbolic.within_iff.1 hcallee
  unfold TraceM.callValue
  dsimp only
  split
  · exact ofAnswer fun _ _ _ => Symbolic.within_of_callDeferred
  · exact callBuiltin hargs
  · split
    · exact folded fun _ _ _ => trivial
    · exact bind (emitCall hargs) fun _ _ _ hresult => pure fun _ hle =>
        Symbolic.within_inherit.2 (hresult.mono hle)
  · exact callLayer hargs
  · next holder name hkind =>
    rw [hkind] at hparts
    split
    · exact bind (emitMethod hparts hargs) fun _ _ _ hresult => pure fun _ hle =>
        Symbolic.within_inherit.2 (hresult.mono hle)
    · exact breakOff
  all_goals exact breakOff

end

/-! ### The state -/

lemma push {value : Symbolic} (h : value.Within count) :
    Grounds count (fun _ _ => True) (push value) := by
  intro state result after hstate hcount heq
  cases heq
  refine ⟨⟨hstate.builder, hstate.registered, ?_, hstate.locals, hstate.globals⟩,
    Nat.le_refl _, trivial⟩
  exact List.forall_mem_cons.2 ⟨h.mono hcount, hstate.stack⟩

/-- What is popped was on the stack. -/
lemma of_pops {rest : List Symbolic} {state : Tracer} (hstate : state.Grounded)
    (hrest : ∀ value ∈ rest, value ∈ state.stack) : Tracer.Grounded { state with stack := rest } :=
  ⟨hstate.builder, hstate.registered, fun value hvalue => hstate.stack value (hrest value hvalue),
    hstate.locals, hstate.globals⟩

lemma pop : Grounds count Symbolic.Within pop := by
  intro state value after hstate _ heq
  obtain ⟨rest, hstack, rfl⟩ := pop_eq_ok.1 heq
  exact ⟨of_pops hstate (by simp +contextual [hstack]), Nat.le_refl _,
    hstate.stack value (by simp [hstack])⟩

lemma popTwo : Grounds count (fun n pair => pair.1.Within n ∧ pair.2.Within n) popTwo := by
  rintro state ⟨second, top⟩ after hstate _ heq
  obtain ⟨rest, hstack, rfl⟩ := popTwo_eq_ok.1 heq
  exact ⟨of_pops hstate (by simp +contextual [hstack]), Nat.le_refl _,
    hstate.stack second (by simp [hstack]),
    hstate.stack top (by simp [hstack])⟩

lemma popMany (number : Nat) :
    Grounds count (fun n values => ∀ value ∈ values, value.Within n) (popMany number) := by
  intro state values after hstate _ heq
  obtain ⟨rest, hstack, -, rfl⟩ := popMany_eq_ok.1 heq
  exact ⟨of_pops hstate (by simp +contextual [hstack]), Nat.le_refl _,
    fun value hvalue => hstate.stack value (by simp [hstack, hvalue])⟩

lemma pushAll : ∀ {values : List Symbolic} {count : Nat}, (∀ value ∈ values, value.Within count) →
    Grounds count (fun _ _ => True) (pushAll values)
  | [], _, _ => pure fun _ _ => trivial
  | value :: rest, count, h => by
    obtain ⟨hvalue, hrest⟩ := List.forall_mem_cons.1 h
    exact bind (pushAll hrest) fun _ hle _ _ => push (hvalue.mono hle)

lemma get : Grounds count (fun n state => ∀ value ∈ state.stack, value.Within n)
    (get : TraceM Tracer) := by
  intro state found after hstate _ heq
  cases heq
  exact ⟨hstate, Nat.le_refl _, hstate.stack⟩

lemma storeLocal {name : String} {value : Symbolic} (h : value.Within count) :
    Grounds count (fun _ _ => True)
      (modify fun state => { state with locals := state.locals.put name value } : TraceM Unit) := by
  intro state result after hstate hcount heq
  cases heq
  exact ⟨⟨hstate.builder, hstate.registered, hstate.stack,
    Table.forall_lookup_put hstate.locals (h.mono hcount), hstate.globals⟩, Nat.le_refl _, trivial⟩

lemma loadLocal (context : TraceContext) (name : String) :
    Grounds count Symbolic.Within (loadLocal context name) := by
  intro state value after hstate hcount heq
  rcases loadLocal_eq_ok.1 heq with ⟨hknown, rfl⟩ | ⟨-, live, middle, -, hwrap, rfl⟩
  · exact ⟨hstate, Nat.le_refl _, hstate.locals name value hknown⟩
  · obtain ⟨hmiddle, hle, hvalue⟩ := wrap context.config .locals live name _ _ _ hstate hcount hwrap
    exact ⟨⟨hmiddle.builder, hmiddle.registered, hmiddle.stack,
      Table.forall_lookup_put hmiddle.locals hvalue, hmiddle.globals⟩, hle, hvalue⟩

lemma wrapGlobal (context : TraceContext) (name : String) :
    Grounds count Symbolic.Within (wrapGlobal context name) := by
  unfold TraceM.wrapGlobal
  split
  · exact wrap _ _ _ _
  · exact bind (ofOption _ _) fun _ _ _ _ => pure fun _ _ => trivial

lemma loadGlobal (context : TraceContext) (name : String) :
    Grounds count Symbolic.Within (loadGlobal context name) := by
  intro state value after hstate hcount heq
  rcases loadGlobal_eq_ok.1 heq with ⟨hknown, rfl⟩ | ⟨-, middle, hwrap, rfl⟩
  · exact ⟨hstate, Nat.le_refl _, hstate.globals name value hknown⟩
  · obtain ⟨hmiddle, hle, hvalue⟩ := wrapGlobal context name _ _ _ hstate hcount hwrap
    exact ⟨⟨hmiddle.builder, hmiddle.registered, hmiddle.stack, hmiddle.locals,
      Table.forall_lookup_put hmiddle.globals hvalue⟩, hle, hvalue⟩

/-! ### Instructions -/

/-- What a program returns reads recorded nodes. -/
def Returned (count : Nat) (flow : Flow) : Prop :=
  ∀ operand, flow = .finish operand → ∀ read ∈ operand.reads, read < count

lemma next : Grounds count Returned (Pure.pure Flow.next : TraceM Flow) := pure fun _ _ => nofun

lemma jump (target : Nat) : Grounds count Returned (Pure.pure (Flow.jump target) : TraceM Flow) :=
  pure fun _ _ => nofun

lemma pushing {result : TraceM Symbolic} (h : Grounds count Symbolic.Within result) :
    Grounds count Returned (pushing result) :=
  bind h fun _ _ _ hvalue => bind (push hvalue) fun _ _ _ _ => next

lemma stackBinary (function : Primitive) : Grounds count Returned (stackBinary function) :=
  pushing (bind popTwo fun _ _ _ hpair => binaryOp hpair.1 hpair.2)

lemma buildSlice (number : UInt32) : Grounds count Symbolic.Within (buildSlice number) := by
  unfold TraceM.buildSlice
  refine ite (bind (popMany 2) fun n _ parts hparts => pure fun _ hle =>
    Symbolic.within_sequence ?_)
    (ite (bind (popMany 3) fun n _ parts hparts => pure fun _ hle =>
      Symbolic.within_sequence ?_) breakOff)
  · exact List.forall_mem_append.2
      ⟨Symbolic.forall_within_mono hle hparts, by simp⟩
  · exact Symbolic.forall_within_mono hle hparts

lemma forIter (target : UInt32) : Grounds count Returned (forIter target) := by
  refine bind pop fun n _ iterator hiterator => bind (ofAnswer (P := fun m result =>
    ∀ item rest, result = some (item, rest) → item.Within m ∧ rest.Within m) ?_)
      fun m _ result hresult => ?_
  · rintro m hle _ hadvance item rest rfl
    exact Symbolic.within_of_advance (hiterator.mono hle) hadvance
  split
  · next item rest =>
    obtain ⟨hitem, hrest⟩ := hresult item rest rfl
    exact bind (push hrest) fun _ hle _ _ => bind (push (hitem.mono hle)) fun _ _ _ _ => next
  · exact jump _

lemma staticTruth (value : Symbolic) : Grounds count (fun _ _ => True) (staticTruth value) := by
  unfold TraceM.staticTruth
  split
  · exact ofRun _
  · repeat' split
    all_goals first | exact pure fun _ _ => trivial | exact breakOff

lemma popJump (target : UInt32) (jumpWhen : Bool) :
    Grounds count Returned (popJump target jumpWhen) := by
  refine bind pop fun _ _ _ _ => bind (staticTruth _) fun _ _ _ _ => ?_
  split
  · exact jump _
  · exact next

/-- Every instruction keeps states grounded. -/
lemma step (context : TraceContext) (instruction : Instruction) :
    Grounds count Returned (step context instruction) := by
  unfold TraceM.step
  cases instruction.opcode with
  | nop => exact next
  | jumpAbsolute => exact jump _
  | popTop => exact bind pop fun _ _ _ _ => next
  | rotTwo =>
    exact bind popTwo fun _ _ _ hpair => bind (push hpair.2) fun _ hle _ _ =>
      bind (push (hpair.1.mono hle)) fun _ _ _ _ => next
  | dupTop =>
    refine bind get fun n _ state hstack => ?_
    split
    · next top rest heq => exact bind (push (hstack top (by simp [heq]))) fun _ _ _ _ => next
    · exact breakOff
  | loadConst =>
    exact pushing (bind (ofOption _ _) fun _ _ _ _ => pure fun _ _ => Symbolic.within_constant _)
  | loadFast => exact pushing (bind (ofOption _ _) fun _ _ _ _ => loadLocal _ _)
  | storeFast =>
    exact bind (ofOption _ _) fun _ _ _ _ => bind pop fun _ _ _ hvalue =>
      bind (storeLocal hvalue) fun _ _ _ _ => next
  | loadGlobal => exact pushing (bind (ofOption _ _) fun _ _ _ _ => loadGlobal _ _)
  | loadAttr | loadMethod =>
    exact pushing (bind (ofOption _ _) fun _ _ _ _ => bind pop fun _ _ _ hholder => getAttr hholder)
  | callFunction | callMethod =>
    exact pushing (bind (popMany _) fun _ _ _ hargs => bind pop fun _ hle _ hcallee =>
      callValue hcallee (Symbolic.forall_within_mono hle hargs))
  | binaryAdd | binarySubtract | binaryMultiply | binaryTrueDivide | binaryFloorDivide
  | binaryModulo =>
    exact stackBinary _
  | compareOp => exact bind (ofOption _ _) fun _ _ _ _ => stackBinary _
  | unaryNegative => exact pushing (bind pop fun _ _ _ hvalue => negate hvalue)
  | binarySubscr => exact pushing (bind popTwo fun _ _ _ hpair => subscript hpair.1 hpair.2)
  | buildTuple | buildList =>
    exact pushing (bind (popMany _) fun _ _ _ hitems => pure fun _ hle =>
      Symbolic.within_sequence (Symbolic.forall_within_mono hle hitems))
  | buildSlice => exact pushing (buildSlice _)
  | buildConstKeyMap =>
    exact pushing (bind pop fun _ _ _ _ => bind (popMany _) fun _ _ _ hargs => buildDict hargs)
  | unpackSequence =>
    exact bind pop fun _ _ _ hvalue => bind (unpackItems hvalue) fun _ _ _ hitems =>
      bind (pushAll hitems) fun _ _ _ _ => next
  | getIter =>
    exact pushing (bind pop fun _ _ _ hvalue =>
      ofAnswer fun _ hle _ => Symbolic.within_of_iterate (hvalue.mono hle))
  | forIter => exact forIter _
  | popJumpIfFalse | popJumpIfTrue => exact popJump _ _
  | returnValue =>
    refine bind pop fun _ _ _ hvalue => bind (operand hvalue) fun n _ output houtput =>
      pure fun m hle other hother read hread => ?_
    obtain rfl := Flow.finish.inj hother
    exact Nat.lt_of_lt_of_le (houtput read hread) hle

end Grounds

end TraceM

/-! ### Whole traces -/

section

variable {context : TraceContext} {output : TraceOutput}

/-- A trace that returns ends in a grounded state, with a result that reads its nodes. -/
lemma traceFrom_grounded {fuel : Nat} {state last : Tracer} (hstate : state.Grounded)
    (h : traceFrom context fuel state = (.ok output, last)) :
    last.Grounded ∧ ∃ operand, output = last.finish operand ∧
      ∀ read ∈ operand.reads, read < last.builder.nodes.size := by
  induction fuel generalizing state with
  | zero => simp [traceFrom] at h
  | succ fuel ih =>
    obtain ⟨instruction, flow, after, -, hstep, hflow⟩ := traceFrom_cases h
    obtain ⟨hafter, -, hreturned⟩ :=
      TraceM.Grounds.step context instruction _ _ _ hstate (Nat.zero_le _) hstep
    rcases hflow with ⟨pc, -, h⟩ | ⟨operand, hfinish, houtput, rfl⟩
    · exact ih (hafter.of_pc pc) h
    · exact ⟨hafter, operand, houtput, hreturned operand hfinish⟩

end

end GuardedTrace
