/-
What is taken out of containers and frames.

The items of a symbolic container denote the items of the container that it denotes, whether they
are iterated over or read under a constant key.  A value that is wrapped denotes the value that
stands at its place in the frame.

There is one way in which a trace is more liberal than a run: it takes a truth value as the index of
a sequence.  `Meets` says that a run gives what the trace expects or fails where it may.
-/
import GuardedTrace.Proofs.Denotation

namespace GuardedTrace

namespace World

variable {world : World} {value : Symbolic} {v : Value}

/-! ### Containers -/

/-- Items of related lists at one position. -/
lemma forall₂_getElem? {α β : Type} {R : α → β → Prop} {items : List α} {others : List β}
    (h : List.Forall₂ R items others) (position : Nat) :
    (items[position]? = none ∧ others[position]? = none) ∨
      ∃ item other, items[position]? = some item ∧
        others[position]? = some other ∧ R item other := by
  induction h generalizing position with
  | nil => simp
  | @cons item other _ _ hfirst _ ih =>
    cases position with
    | zero => exact Or.inr ⟨item, other, rfl, rfl, hfirst⟩
    | succ position => simpa using ih position

lemma forall₂_pick {α β : Type} {R : α → β → Prop} {items : List α} {others : List β}
    (h : List.Forall₂ R items others) (positions : List Nat) :
    List.Forall₂ R (Slice.pick items positions) (Slice.pick others positions) := by
  induction positions with
  | nil => exact .nil
  | cons position rest ih =>
    unfold Slice.pick at ih ⊢
    rcases forall₂_getElem? h position with ⟨hitem, hother⟩ | ⟨item, other, hitem, hother, hrelated⟩
    · simpa [hitem, hother] using ih
    · simpa [hitem, hother] using And.intro hrelated ih

lemma lookup_related {α β : Type} {R : α → β → Prop} {entries : List (Key × α)}
    {others : List (Key × β)} (h : List.Forall₂ (Table.Related R) entries others)
    {key : Key} {item : α}
    (hitem : entries.lookup key = some item) :
    ∃ other, others.lookup key = some other ∧ R item other := by
  induction h with
  | nil => cases hitem
  | @cons entry other _ _ hfirst _ ih =>
    obtain ⟨name, found⟩ := entry
    obtain ⟨name', found'⟩ := other
    obtain ⟨rfl, hrelated⟩ := hfirst
    simp only [List.lookup_cons] at hitem ⊢
    split at hitem
    · cases hitem
      exact ⟨found', rfl, hrelated⟩
    · exact ih hitem

lemma forall₂_ofLiterals {kind : Literal → Symbolic}
    (hkind : ∀ literal, world.Denotes (kind literal) (.ofLiteral literal))
    (literals : List Literal) :
    List.Forall₂ world.Denotes (literals.map kind) (Value.ofLiterals literals) := by
  induction literals with
  | nil => exact .nil
  | cons literal rest ih => exact .cons (hkind literal) ih

lemma forall₂_addGuards {guards : GuardSet} {items : List Symbolic} {values : List Value}
    (h : List.Forall₂ world.Denotes items values) :
    List.Forall₂ world.Denotes (items.map (·.addGuards guards)) values := by
  rw [List.forall₂_map_left_iff]
  exact h.imp fun _ _ hitem => denotes_addGuards.2 hitem

lemma forall₂_layers {kind : Nat → Layer → Symbolic}
    (hkind : ∀ position child, world.Denotes (kind position child) (.layer child))
    (children : List Layer) :
    List.Forall₂ world.Denotes (children.mapIdx kind) (children.map Value.layer) := by
  rw [List.forall₂_iff_get]
  refine ⟨by simp, fun i hi hi' => ?_⟩
  simpa using hkind i _

/-- The items of a value are those that iterating over what it denotes yields. -/
lemma iterate_of_items {items : List Symbolic} (h : value.items = .ok items)
    (hdenotes : world.Denotes value v) :
    ∃ values, v.iterate = .ok values ∧ List.Forall₂ world.Denotes items values := by
  have hkind := hdenotes.kind
  unfold Symbolic.items at h
  split at h
  · next heq =>
    cases h
    rw [heq] at hkind
    obtain ⟨values, rfl, hvalues⟩ := hkind
    exact ⟨values, rfl, forall₂_addGuards (denotesItems_iff.1 hvalues)⟩
  · next heq =>
    cases h
    rw [heq] at hkind
    obtain ⟨values, rfl, hvalues⟩ := hkind
    exact ⟨values, rfl, forall₂_addGuards (denotesItems_iff.1 hvalues)⟩
  · next literal heq =>
    rw [heq] at hkind
    obtain rfl := hkind
    have hitem : ∀ item, world.Denotes (Symbolic.derived (.constant item) [value])
        (.ofLiteral item) :=
      fun item => denotes_derived.2 rfl
    cases literal with
    | tuple literals | list literals =>
      cases h
      exact ⟨_, rfl, forall₂_ofLiterals hitem literals⟩
    | _ => cases h
  · next key node heq =>
    rw [heq] at hkind
    obtain ⟨hobjects, rfl⟩ := hkind
    simp only [Symbolic.layerItems, heq] at h
    split at h
    · next hlist =>
      cases h
      refine ⟨node.children.map .layer, by simp only [Value.iterate, hlist, if_true], ?_⟩
      refine forall₂_layers (fun position child => ?_) node.children
      exact denotes_derived.2 ⟨hobjects, rfl⟩
    · cases h
  · cases h

end World

/-- A result that fails only where it may, and is right otherwise. -/
def Meets {α : Type} (relaxed : Prop) (P : α → Prop) : Run α → Prop
  | .ok value => P value
  | .error _ => relaxed

lemma meets_of_eq {α : Type} {relaxed : Prop} {P : α → Prop} {run : Run α} {value : α}
    (hvalue : P value) (h : run = .ok value) : Meets relaxed P run :=
  h ▸ hvalue

lemma Meets.imp {α : Type} {relaxed relaxed' : Prop} {P Q : α → Prop} {run : Run α}
    (h : Meets relaxed P run) (hrelaxed : relaxed → relaxed') (hP : ∀ value, P value → Q value) :
    Meets relaxed' Q run := by
  cases run with
  | ok value => exact hP value h
  | error error => exact hrelaxed h

/-- A truth value as the index of a sequence: a trace counts it as a number, a run refuses it. -/
def Symbolic.indexedByTruth (value key : Symbolic) : Bool :=
  match value.kind, key.constant? with
  | .sequence .., .ok (.bool _) => true
  | _, _ => false

namespace World

variable {world : World} {value key item : Symbolic} {v k : Value}

lemma sequenceItem_meets {kind : SequenceKind} {items : List Symbolic} {values : List Value}
    {index : Literal} (h : value.sequenceItem kind items key index = .ok item)
    (hkind : (kind = .list ∧ v = .list values) ∨ (kind = .tuple ∧ v = .tuple values))
    (hitems : List.Forall₂ world.Denotes items values) (serial : Nat) :
    Meets (∃ truth, index = .bool truth) (world.Denotes item)
      (v.subscript serial (.ofLiteral index)) := by
  have hlength := hitems.length_eq
  unfold Symbolic.sequenceItem at h
  split at h
  · next bounds =>
    split at h
    · next positions hpositions =>
      cases h
      have hpick := denotesItems_iff.2 (forall₂_pick hitems positions)
      rw [hlength] at hpositions
      rcases hkind with ⟨rfl, rfl⟩ | ⟨rfl, rfl⟩ <;>
        simp only [Value.ofLiteral, Value.subscript, hpositions, Except.map, Meets] <;>
        exact denotes_derived.2 ⟨_, rfl, hpick⟩
    · cases h
  · cases index with
    | int position =>
      simp only [Literal.toInt?] at h
      split at h
      · next found hfound =>
        cases h
        obtain ⟨place, hplace, hfound⟩ := Option.bind_eq_some_iff.1 hfound
        rcases forall₂_getElem? hitems place with
            ⟨hnone, -⟩ | ⟨item', other, hitem, hother, hdenotes⟩
        · rw [hnone] at hfound
          cases hfound
        · obtain rfl := Option.some.inj (hitem.symm.trans hfound)
          rw [hlength] at hplace
          rcases hkind with ⟨rfl, rfl⟩ | ⟨rfl, rfl⟩ <;>
            simp only [Value.ofLiteral, Value.subscript, Value.itemAt, hplace, Option.bind_some,
              hother, Meets] <;>
            exact denotes_inherit.2 hdenotes
      · cases h
    | bool truth =>
      rcases hkind with ⟨rfl, rfl⟩ | ⟨rfl, rfl⟩ <;> exact ⟨truth, rfl⟩
    | _ => simp [Literal.toInt?] at h

/-- A key that a traced dictionary has leads in the run to what the entry denotes. -/
lemma subscript_entry {entries : List (Key × Symbolic)} {values : List (Key × Value)}
    {index : Literal} {entry : Key} (hvalues : world.DenotesEntries entries values)
    (hentry : index.toKey? = some entry) (hitem : entries.lookup entry = some item) (serial : Nat) :
    ∃ other, (Value.dict values).subscript serial (.ofLiteral index) = .ok other ∧
      world.Denotes item other := by
  obtain ⟨other, hother, hdenotes⟩ := lookup_related (denotesEntries_iff.1 hvalues) hitem
  refine ⟨other, ?_, hdenotes⟩
  cases index with
  | int _ | str _ =>
    cases hentry
    simp only [Value.ofLiteral, Value.subscript, Value.entryAt, hother]
  | _ => cases hentry

/-- An item of a literal is an item of the value of the literal, whatever it is numbered. -/
lemma subscript_ofLiteral {literal index result : Literal} (h : literal.getItem index = .ok result)
    (serial : Nat) :
    (Value.ofLiteral literal).subscript serial (.ofLiteral index) = .ok (.ofLiteral result) := by
  simp only [Literal.getItem, except_bind_eq_ok] at h
  obtain ⟨found, hfound, h⟩ := h
  split at h
  · next hliteral =>
    cases h
    rw [(Value.data_ofLiteral literal).subscript_serial _ _ 0, hfound,
      Value.eq_ofLiteral_of_literal? hliteral]
  · cases h

/-- A member of a layer that is a list is the member of the same layer in the run. -/
lemma subscript_layerItem {position : Int64} (h : value.layerItem position key = .ok item)
    (hvalue : world.Denotes value v) (serial : Nat) :
    ∃ child, v.subscript serial (.int position) = .ok child ∧ world.Denotes item child := by
  have hkind := hvalue.kind
  unfold Symbolic.layerItem at h
  split at h
  · next path node heq =>
    rw [heq] at hkind
    obtain ⟨hobjects, rfl⟩ := hkind
    split at h
    · cases h
    · next size hsize =>
      have hlist : node.isListLike = true := by
        by_contra hlist
        simp [Layer.length?, hlist] at hsize
      split at h
      · next child _ hchild =>
        cases h
        refine ⟨.layer child, ?_, denotes_derived.2 ⟨hobjects, rfl⟩⟩
        simp only [Value.subscript, hlist, if_true, hchild]
      · cases h
  · cases h

/-- An item under a constant key is what stands under the key in the denoted container. -/
lemma getItem_meets (h : value.getItem key = .ok item) (hvalue : world.Denotes value v)
    (hkey : world.Denotes key k) (serial : Nat) :
    Meets (value.indexedByTruth key = true) (world.Denotes item) (v.subscript serial k) := by
  simp only [Symbolic.getItem, except_bind_eq_ok] at h
  obtain ⟨index, hindex, h⟩ := h
  obtain rfl := eq_of_constant? hindex hkey
  have hkind := hvalue.kind
  have htruth : ∀ {kind items}, value.kind = .sequence kind items →
      (∃ truth, index = .bool truth) → value.indexedByTruth key = true := by
    rintro kind items heq ⟨truth, rfl⟩
    simp only [Symbolic.indexedByTruth, heq, hindex]
  split at h
  · next items heq =>
    rw [heq] at hkind
    obtain ⟨values, rfl, hvalues⟩ := hkind
    exact (sequenceItem_meets h (Or.inl ⟨rfl, rfl⟩) (denotesItems_iff.1 hvalues) serial).imp
      (htruth heq) fun _ => id
  · next items heq =>
    rw [heq] at hkind
    obtain ⟨values, rfl, hvalues⟩ := hkind
    exact (sequenceItem_meets h (Or.inr ⟨rfl, rfl⟩) (denotesItems_iff.1 hvalues) serial).imp
      (htruth heq) fun _ => id
  · next entries heq =>
    rw [heq] at hkind
    obtain ⟨values, rfl, -, hvalues⟩ := hkind
    split at h
    · cases h
    · next entry hentry =>
      split at h
      · next found hfound =>
        cases h
        obtain ⟨other, hother, hdenotes⟩ := subscript_entry hvalues hentry hfound serial
        exact meets_of_eq (denotes_inherit.2 hdenotes) hother
      · cases h
  · next literal heq =>
    rw [heq] at hkind
    obtain rfl := hkind
    split at h
    · next result hresult =>
      cases h
      exact meets_of_eq (denotes_derived.2 rfl) (subscript_ofLiteral hresult serial)
    · cases h
  · next path node heq =>
    split at h
    · next position =>
      obtain ⟨child, hchild, hdenotes⟩ := subscript_layerItem h hvalue serial
      exact meets_of_eq hdenotes hchild
    · cases h
  · cases h

/-! ### Bindings -/

lemma denotes_boundTo {path : String} {scope : Scope} {check : Check}
    (hname : value.localName = none)
    (hkind : world.DenotesKind value.kind v)
    (hplace : ∀ held type, value.kind = .unsupported held type →
      world.frame.resolve scope path = .ok held) :
    world.Denotes (value.boundTo path scope check) v := by
  refine denotes_iff.2 ⟨?_, ?_⟩
  · cases scope <;> exact hkind
  · intro held type hheld base other hbase
    have hkept : value.kind = .unsupported held type := by
      cases scope <;> exact hheld
    have hsame : base = path ∧ other = scope := by
      cases scope with
      | locals =>
        cases hbase
        exact ⟨rfl, rfl⟩
      | globals =>
        have hlocal : (value.boundTo path .globals check).localName = none := hname
        simp only [TraceM.nameAndScope?, hlocal] at hbase
        cases hbase
        exact ⟨rfl, rfl⟩
    obtain ⟨rfl, rfl⟩ := hsame
    exact hplace held type hkept

lemma denotes_bound {kind : Kind} {path : String} {scope : Scope} {check : Check}
    (hkind : world.DenotesKind kind v) (hfree : ∀ held type, kind ≠ .unsupported held type) :
    world.Denotes ((Symbolic.ofKind kind).boundTo path scope check) v :=
  denotes_boundTo rfl hkind fun held type h => absurd h (hfree held type)

/-- The placeholder of a binding has the value that is bound. -/
lemma value_of_placeholder {path : String} {scope : Scope} {state after : Tracer} {node : Nat}
    (h : TraceM.placeholder path scope state = .ok (node, after)) (hlast : after.Extends world.last)
    (hplace : world.frame.resolve scope path = .ok v) : world.values[node]? = some v := by
  obtain ⟨hrecord, hinputs, -⟩ := TraceM.placeholder_eq_ok h
  have hcovers : world.Covers after.builder := hlast.nodes
  obtain ⟨found, hfound, hoperation, -⟩ := hcovers.exists_node hrecord
  have hinput : (⟨path, scope⟩ : InputBinding) ∈ after.inputs := by
    rw [hinputs]
    split
    · next hmem => exact hmem
    · simp
  obtain ⟨value, hvalue, hresolve⟩ := world.solves.input hfound hoperation (hlast.inputs _ hinput)
  rw [hplace] at hresolve
  cases hresolve
  exact hvalue

lemma denotes_wrapScalar {path : String} {scope : Scope} {state after : Tracer}
    {symbolic : Symbolic}
    {elementType : ElementType} {type : TypeName} (hnumber : (Number.of? v).isSome)
    (h : TraceM.wrapScalar path scope elementType type state = .ok (symbolic, after))
    (hlast : after.Extends world.last) (hplace : world.frame.resolve scope path = .ok v) :
    world.Denotes symbolic v := by
  simp only [TraceM.wrapScalar, TraceM.bind_eq_ok, TraceM.pure_eq_ok, Prod.mk.injEq] at h
  obtain ⟨node, _, hnode, rfl, rfl⟩ := h
  exact denotes_bound ⟨value_of_placeholder hnode hlast hplace,
    ArrayFacts.fits_scalar (Value.packed_of_isSome hnumber), data_of_isSome hnumber⟩
      fun _ _ h => by cases h

/-- A number is a constant when numbers are specialised, and a placeholder otherwise. -/
lemma denotes_wrapNumber {config : Config} {literal : Literal} {path : String} {scope : Scope}
    {state after : Tracer} {symbolic : Symbolic} {elementType : ElementType} {type : TypeName}
    (hnumber : (Number.of? (.ofLiteral literal)).isSome)
    (h : (if config.specializeScalars then pure (TraceM.wrapConstant literal path scope)
      else TraceM.wrapScalar path scope elementType type :
        TraceM Symbolic) state = .ok (symbolic, after))
    (hlast : after.Extends world.last)
    (hplace : world.frame.resolve scope path = .ok (.ofLiteral literal)) :
    world.Denotes symbolic (.ofLiteral literal) := by
  split at h
  · obtain ⟨rfl, rfl⟩ := Prod.mk.inj (TraceM.pure_eq_ok.1 h)
    exact denotes_bound rfl nofun
  · exact denotes_wrapScalar hnumber h hlast hplace

/-- A value that the trace cannot look into denotes what stands at its place. -/
lemma denotes_sealed {path : String} {scope : Scope} {check : Check} {type : TypeName}
    (hobjects : world.objects) (hplace : world.frame.resolve scope path = .ok v) :
    world.Denotes ((Symbolic.ofKind (.unsupported v type)).boundTo path scope check) v := by
  refine denotes_boundTo rfl ⟨hobjects, Or.inl rfl⟩ ?_
  rintro held type ⟨⟩
  exact hplace

mutual

/-- A wrapped value denotes the value at its place. -/
lemma denotes_wrap (config : Config) (scope : Scope) : ∀ {live : Value} {path : String}
    {state after : Tracer} {symbolic : Symbolic},
    TraceM.wrap config scope live path state = .ok (symbolic, after) → after.Extends world.last →
    world.frame.resolve scope path = .ok live → (world.objects ∨ live.Plain) →
    world.Denotes symbolic live
  | .array numbers, path, state, after, symbolic, h, hlast, hplace, _ => by
    simp only [TraceM.wrap, TraceM.bind_eq_ok, TraceM.pure_eq_ok, Prod.mk.injEq] at h
    obtain ⟨node, _, hnode, rfl, rfl⟩ := h
    exact denotes_bound ⟨value_of_placeholder hnode hlast hplace,
      ArrayFacts.fits_ofArray numbers _, trivial⟩ nofun
  | .int number, path, state, after, symbolic, h, hlast, hplace, _ =>
    @denotes_wrapNumber _ config (.int number) _ _ _ _ _ _ _ rfl h hlast hplace
  | .float number, path, state, after, symbolic, h, hlast, hplace, _ =>
    @denotes_wrapNumber _ config (.float number) _ _ _ _ _ _ _ rfl h hlast hplace
  | .tuple items, path, state, after, symbolic, h, hlast, hplace, hplain => by
    simp only [TraceM.wrap, TraceM.bind_eq_ok, TraceM.pure_eq_ok, Prod.mk.injEq] at h
    obtain ⟨wrapped, _, hwrapped, rfl, rfl⟩ := h
    have hobjects := hplain.resolve_right id
    have hshort := world.tuples hobjects items (Frame.reaches_of_resolve hplace)
    refine denotes_boundTo rfl
      ⟨items, rfl, denotes_wrapItems config scope hwrapped hlast ?_ ?_⟩ nofun
    · intro position item hitem
      rw [Nat.zero_add]
      exact Frame.resolve_item (Or.inl hplace) hshort hitem
    · exact Or.inl hobjects
  | .list items, path, state, after, symbolic, h, hlast, hplace, hplain => by
    simp only [TraceM.wrap, TraceM.bind_eq_ok, TraceM.pure_eq_ok, Prod.mk.injEq] at h
    obtain ⟨wrapped, _, hwrapped, rfl, rfl⟩ := h
    have hshort := world.orderly.short items (Frame.reaches_of_resolve hplace)
    refine denotes_boundTo rfl
      ⟨items, rfl, denotes_wrapItems config scope hwrapped hlast ?_ ?_⟩ nofun
    · intro position item hitem
      rw [Nat.zero_add]
      exact Frame.resolve_item (Or.inr hplace) hshort hitem
    · exact hplain.imp id And.right
  | .dict entries, path, state, after, symbolic, h, hlast, hplace, hplain => by
    simp only [TraceM.wrap, TraceM.bind_eq_ok, TraceM.pure_eq_ok, Prod.mk.injEq] at h
    obtain ⟨wrapped, _, hwrapped, rfl, rfl⟩ := h
    have hordered := world.orderly.ordered entries (Frame.reaches_of_resolve hplace)
    refine denotes_boundTo rfl
      ⟨entries, rfl, hordered, denotes_wrapEntries config scope hwrapped hlast ?_ ?_⟩ nofun
    · exact fun key item hitem => world.orderly.regular.resolve_entry hplace hitem
    · exact hplain.imp id fun hdict => hdict.2
  | .layer node, path, state, after, symbolic, h, _, _, hplain => by
    obtain ⟨rfl, rfl⟩ := Prod.mk.inj (TraceM.pure_eq_ok.1 h)
    exact denotes_bound ⟨hplain.resolve_right id, rfl⟩ nofun
  | .routine function, path, state, after, symbolic, h, _, _, hplain => by
    obtain ⟨rfl, rfl⟩ := Prod.mk.inj (TraceM.pure_eq_ok.1 h)
    exact denotes_bound ⟨hplain.resolve_right id, rfl⟩ nofun
  | .library space, path, state, after, symbolic, h, _, _, hplain => by
    obtain ⟨rfl, rfl⟩ := Prod.mk.inj (TraceM.pure_eq_ok.1 h)
    exact denotes_bound ⟨hplain.resolve_right id, rfl⟩ nofun
  | .object owner, path, state, after, symbolic, h, _, hplace, hplain => by
    obtain ⟨rfl, rfl⟩ := Prod.mk.inj (TraceM.pure_eq_ok.1 h)
    exact denotes_sealed (hplain.resolve_right id) hplace
  | .boundPrimitive _ _ _, path, state, after, symbolic, h, _, hplace, hplain
  | .boundRoutine _ _ _, path, state, after, symbolic, h, _, hplace, hplain => by
    obtain ⟨rfl, rfl⟩ := Prod.mk.inj (TraceM.pure_eq_ok.1 h)
    exact denotes_sealed (hplain.resolve_right False.elim) hplace
  | .primitive _, path, state, after, symbolic, h, _, _, _
  | .builtin _, path, state, after, symbolic, h, _, _, _
  | .none, path, state, after, symbolic, h, _, _, _
  | .bool _, path, state, after, symbolic, h, _, _, _
  | .str _, path, state, after, symbolic, h, _, _, _
  | .slice _, path, state, after, symbolic, h, _, _, _
  | .elementType _, path, state, after, symbolic, h, _, _, _
  | .device _, path, state, after, symbolic, h, _, _, _ => by
    obtain ⟨rfl, rfl⟩ := Prod.mk.inj (TraceM.pure_eq_ok.1 h)
    exact denotes_bound rfl nofun
termination_by structural live => live

lemma denotes_wrapItems (config : Config) (scope : Scope) : ∀ {items : List Value} {path : String}
    {position : Nat} {state after : Tracer} {symbolics : List Symbolic},
    TraceM.wrapItems config scope items path position state = .ok (symbolics, after) →
    after.Extends world.last →
    (∀ (offset : Nat) item, items[offset]? = some item → world.frame.resolve scope
      (path ++ "[" ++ Text.showNat (position + offset) ++ "]") = .ok item) →
    (world.objects ∨ Value.PlainItems items) → world.DenotesItems symbolics items
  | [], path, position, state, after, symbolics, h, _, _, _ => by
    obtain ⟨rfl, rfl⟩ := Prod.mk.inj (TraceM.pure_eq_ok.1 h)
    exact rfl
  | item :: rest, path, position, state, after, symbolics, h, hlast, hplaces, hplain => by
    simp only [TraceM.wrapItems, TraceM.bind_eq_ok, TraceM.pure_eq_ok, Prod.mk.injEq] at h
    obtain ⟨wrapped, middle, hwrapped, others, _, hothers, rfl, rfl⟩ := h
    have hrest := (TraceM.Computes.wrapItems config scope rest path _ _ _ _ hothers).toExtends
    refine ⟨item, rest, rfl, ?_, ?_⟩
    · exact denotes_wrap config scope hwrapped (hrest.trans hlast) (hplaces 0 item rfl)
        (hplain.imp id And.left)
    · refine denotes_wrapItems config scope hothers hlast ?_ (hplain.imp id And.right)
      intro offset other hother
      rw [Nat.add_right_comm, Nat.add_assoc]
      exact hplaces (offset + 1) other hother
termination_by structural items => items

lemma denotes_wrapEntries (config : Config) (scope : Scope) : ∀ {entries : List (Key × Value)}
    {path : String} {state after : Tracer} {symbolics : List (Key × Symbolic)},
    TraceM.wrapEntries config scope entries path state = .ok (symbolics, after) →
    after.Extends world.last →
    (∀ key item, (key, item) ∈ entries →
      world.frame.resolve scope (path ++ "[" ++ key.written ++ "]") = .ok item) →
    (world.objects ∨ Value.PlainEntries entries) → world.DenotesEntries symbolics entries
  | [], path, state, after, symbolics, h, _, _, _ => by
    obtain ⟨rfl, rfl⟩ := Prod.mk.inj (TraceM.pure_eq_ok.1 h)
    exact rfl
  | (key, item) :: rest, path, state, after, symbolics, h, hlast, hplaces, hplain => by
    simp only [TraceM.wrapEntries, TraceM.bind_eq_ok, TraceM.pure_eq_ok, Prod.mk.injEq] at h
    obtain ⟨wrapped, middle, hwrapped, others, _, hothers, rfl, rfl⟩ := h
    have hrest := (TraceM.Computes.wrapEntries config scope rest path _ _ _ hothers).toExtends
    refine ⟨item, rest, rfl, ?_, ?_⟩
    · exact denotes_wrap config scope hwrapped (hrest.trans hlast)
        (hplaces key item (List.mem_cons_self ..)) (hplain.imp id And.left)
    · exact denotes_wrapEntries config scope hothers hlast
        (fun key item hitem => hplaces key item (List.mem_cons_of_mem _ hitem))
        (hplain.imp id And.right)
termination_by structural entries => entries

end

end World

end GuardedTrace
