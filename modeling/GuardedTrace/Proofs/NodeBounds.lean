/-
The nodes that symbolic values stand for.

A symbolic value is *within* a number of nodes when every node that the value or one of its parts
stands for is among the first so many nodes of the graph.  What is taken out of a value, put
together from values or derived from them is within what they are within: only a node that is
recorded anew can be a new node of a value.  A value that is within some nodes is within any larger
number of them, which is what lets values stay on the stack while the graph grows.
-/
import GuardedTrace.Proofs.Calls
import GuardedTrace.Proofs.TwoRuns

namespace GuardedTrace.Symbolic

mutual

/-- Every node that the value or a part of it stands for is one of the first `count` nodes. -/
def Within (count : Nat) : Symbolic → Prop
  | ⟨kind, _, _, _, _⟩ => WithinKind count kind
termination_by structural value => value

def WithinKind (count : Nat) : Kind → Prop
  | .array facts | .scalar facts => facts.node < count
  | .deferred payload => Within count payload
  | .iterator items _ => WithinItems count items
  | .attr holder _ => Within count holder
  | .sequence _ items => WithinItems count items
  | .dict entries => WithinEntries count entries
  | .method _ receiver => Within count receiver
  | .layer .. | .constant _ | .builtin _ | .routine _ | .host _ | .library _ | .unsupported ..
  | .unknown _ => True
termination_by structural kind => kind

def WithinItems (count : Nat) : List Symbolic → Prop
  | [] => True
  | item :: rest => Within count item ∧ WithinItems count rest
termination_by structural items => items

def WithinEntries (count : Nat) : List (Key × Symbolic) → Prop
  | [] => True
  | (_, item) :: rest => Within count item ∧ WithinEntries count rest
termination_by structural entries => entries

end

section

variable {count more node : Nat} {value key callee : Symbolic} {kind : Kind}
  {items args : List Symbolic}

lemma within_iff : value.Within count ↔ WithinKind count value.kind := by
  cases value
  rfl

lemma withinItems_iff : WithinItems count items ↔ ∀ item ∈ items, item.Within count := by
  induction items with
  | nil => simp [WithinItems]
  | cons item rest ih => simp [WithinItems, ih]

lemma withinEntries_iff {entries : List (Key × Symbolic)} :
    WithinEntries count entries ↔ ∀ entry ∈ entries, entry.2.Within count := by
  induction entries with
  | nil => simp [WithinEntries]
  | cons entry rest ih => simp [WithinEntries, ih]

/-! ### More nodes -/

mutual

lemma Within.mono (hle : count ≤ more) :
    ∀ {value : Symbolic}, value.Within count → value.Within more
  | ⟨kind, _, _, _, _⟩, h => @WithinKind.mono hle kind h
termination_by structural value => value

lemma WithinKind.mono (hle : count ≤ more) :
    ∀ {kind : Kind}, WithinKind count kind → WithinKind more kind
  | .array _, h | .scalar _, h => Nat.lt_of_lt_of_le h hle
  | .deferred payload, h => @Within.mono hle payload h
  | .iterator items _, h => @WithinItems.mono hle items h
  | .attr holder _, h => @Within.mono hle holder h
  | .sequence _ items, h => @WithinItems.mono hle items h
  | .dict entries, h => @WithinEntries.mono hle entries h
  | .method _ receiver, h => @Within.mono hle receiver h
  | .layer _ _, _ | .constant _, _ | .builtin _, _ | .routine _, _ | .host _, _ | .library _, _
  | .unsupported _ _, _ | .unknown _, _ => trivial
termination_by structural kind => kind

lemma WithinItems.mono (hle : count ≤ more) : ∀ {items : List Symbolic},
    WithinItems count items → WithinItems more items
  | [], _ => trivial
  | item :: rest, h => ⟨@Within.mono hle item h.1, @WithinItems.mono hle rest h.2⟩
termination_by structural items => items

lemma WithinEntries.mono (hle : count ≤ more) : ∀ {entries : List (Key × Symbolic)},
    WithinEntries count entries → WithinEntries more entries
  | [], _ => trivial
  | (_, item) :: rest, h =>
    ⟨@Within.mono hle item h.1, @WithinEntries.mono hle rest h.2⟩
termination_by structural entries => entries

end

lemma forall_within_mono (hle : count ≤ more) (h : ∀ value ∈ items, value.Within count) :
    ∀ value ∈ items, value.Within more :=
  fun value hvalue => (h value hvalue).mono hle

/-! ### Derived values -/

@[simp] lemma within_ofKind : (ofKind kind).Within count ↔ WithinKind count kind := Iff.rfl

@[simp] lemma within_constant (literal : Literal) : (constant literal).Within count := trivial

@[simp] lemma within_derived : (derived kind items).Within count ↔ WithinKind count kind := Iff.rfl

@[simp] lemma within_inherit {propagation : Propagation} :
    (value.inherit propagation).Within count ↔ value.Within count := by
  rw [within_iff, within_iff]
  rfl

@[simp] lemma within_addGuards {guards : GuardSet} :
    (value.addGuards guards).Within count ↔ value.Within count := by
  rw [within_iff, within_iff]
  rfl

@[simp] lemma within_boundTo {path : String} {scope : Scope} {check : Check} :
    (value.boundTo path scope check).Within count ↔ value.Within count := by
  rw [within_iff, within_iff, kind_boundTo]

lemma within_sequence {kind : SequenceKind} (h : ∀ item ∈ items, item.Within count) :
    (sequence kind items).Within count := within_derived.2 (withinItems_iff.2 h)

lemma node_itemResult (node : Nat) (operands : List Symbolic) :
    ∃ facts, facts.node = node ∧
      (itemResult node operands = .array facts ∨ itemResult node operands = .scalar facts) := by
  unfold itemResult
  split
  · exact ⟨_, rfl, Or.inr rfl⟩
  · split
    · split <;> exact ⟨_, rfl, Or.inl rfl⟩
    · exact ⟨_, rfl, Or.inr rfl⟩

/-- The result of a node stands for the node. -/
lemma withinKind_nodeResult (hnode : node < count) (function : Primitive)
    (operands : List Symbolic) :
    WithinKind count (nodeResult node function operands) := by
  have hitem : WithinKind count (itemResult node operands) := by
    obtain ⟨facts, rfl, h | h⟩ := node_itemResult node operands <;>
      exact h.symm ▸ hnode
  unfold nodeResult
  dsimp only
  split
  · split <;> exact hnode
  · exact hnode
  · split <;> exact hnode
  · split <;> exact hnode
  · exact hitem
  · split <;> exact hnode

/-! ### Containers -/

lemma within_of_layerItems (h : value.layerItems = .ok items) :
    ∀ item ∈ items, item.Within count := by
  unfold layerItems at h
  split at h
  · split at h
    · cases h
      intro item hitem
      obtain ⟨position, hposition, rfl⟩ := List.mem_mapIdx.1 hitem
      trivial
    · cases h
  · cases h

lemma within_of_items (hvalue : value.Within count) (h : value.items = .ok items) :
    ∀ item ∈ items, item.Within count := by
  have hkind := within_iff.1 hvalue
  have hparts {parts : List Symbolic} (hparts : WithinItems count parts) :
      ∀ item ∈ parts.map (·.addGuards value.guards), item.Within count := by
    intro item hitem
    obtain ⟨part, hpart, rfl⟩ := List.mem_map.1 hitem
    exact within_addGuards.2 (withinItems_iff.1 hparts part hpart)
  unfold Symbolic.items at h
  split at h
  · next heq =>
    cases h
    rw [heq] at hkind
    exact hparts hkind
  · next heq =>
    cases h
    rw [heq] at hkind
    exact hparts hkind
  · split at h
    · cases h
      intro item hitem
      obtain ⟨literal, -, rfl⟩ := List.mem_map.1 hitem
      trivial
    · cases h
  · exact within_of_layerItems h
  · cases h

lemma within_of_sequenceItem {kind : SequenceKind} {index : Literal} {item : Symbolic}
    (hitems : WithinItems count items) (h : value.sequenceItem kind items key index = .ok item) :
    item.Within count := by
  have hall := withinItems_iff.1 hitems
  unfold sequenceItem at h
  split at h
  · split at h
    · cases h
      refine within_derived.2 (withinItems_iff.2 fun part hpart => ?_)
      obtain ⟨position, -, hposition⟩ := List.mem_filterMap.1 hpart
      exact hall part (List.mem_of_getElem? hposition)
    · cases h
  · split at h
    · cases h
    · split at h
      · next found hfound =>
        cases h
        obtain ⟨position, -, hposition⟩ := Option.bind_eq_some_iff.1 hfound
        exact within_inherit.2 (hall found (List.mem_of_getElem? hposition))
      · cases h

lemma within_of_layerItem {index : Int64} {item : Symbolic}
    (h : value.layerItem index key = .ok item) :
    item.Within count := by
  unfold layerItem at h
  split at h
  · split at h
    · cases h
    · split at h
      · cases h
        trivial
      · cases h
  · cases h

lemma within_of_getItem {item : Symbolic} (hvalue : value.Within count)
    (h : value.getItem key = .ok item) :
    item.Within count := by
  obtain ⟨index, -, h⟩ := except_bind_eq_ok.1 h
  have hkind := within_iff.1 hvalue
  split at h
  · next heq =>
    rw [heq] at hkind
    exact within_of_sequenceItem hkind h
  · next heq =>
    rw [heq] at hkind
    exact within_of_sequenceItem hkind h
  · next entries heq =>
    rw [heq] at hkind
    split at h
    · cases h
    · split at h
      · next found hfound =>
        cases h
        obtain ⟨before, behind, hsplit, -⟩ := List.lookup_eq_some_iff.1 hfound
        exact within_inherit.2
          (withinEntries_iff.1 hkind _ (hsplit ▸ List.mem_append_right _ (List.mem_cons_self ..)))
      · cases h
  · split at h
    · cases h
      trivial
    · cases h
  · split at h
    · exact within_of_layerItem h
    · cases h
  · cases h

lemma within_of_iterate {iterator : Symbolic} (hvalue : value.Within count)
    (h : value.iterate = .ok iterator) : iterator.Within count := by
  obtain ⟨items, hitems, rfl⟩ := except_map_eq_ok.1 h
  exact within_derived.2 (withinItems_iff.2 (within_of_items hvalue hitems))

lemma within_of_advance {item next : Symbolic} (hvalue : value.Within count)
    (h : value.advance = .ok (some (item, next))) : item.Within count ∧ next.Within count := by
  have hkind := within_iff.1 hvalue
  unfold advance at h
  split at h
  · next items position heq =>
    rw [heq] at hkind
    split at h
    · cases h
    · next found hfound =>
      cases h
      exact ⟨within_addGuards.2
        (withinItems_iff.1 hkind found (List.mem_of_getElem? hfound)), hkind⟩
  · cases h

/-! ### Calls and attributes -/

lemma within_of_callDeferred {result : Symbolic} (h : callee.callDeferred args = .ok result) :
    result.Within count := by
  unfold callDeferred at h
  split at h
  · obtain ⟨literal, -, h⟩ := except_bind_eq_ok.1 h
    match args, h with
    | [], h =>
      cases h
      trivial
    | [index], h =>
      obtain ⟨key, -, h⟩ := except_bind_eq_ok.1 h
      split at h
      · cases h
        trivial
      · cases h
    | _ :: _ :: _, h => cases h
  · cases h

lemma within_of_constAttr? {name : String} {attr : Symbolic}
    (h : value.constAttr? name = some attr) :
    attr.Within count := by
  unfold constAttr? at h
  split at h
  · obtain ⟨literal, -, rfl⟩ := Option.map_eq_some_iff.1 h
    dsimp only
    split <;> trivial
  · cases h

lemma within_lazyAttr (hvalue : value.Within count) (name : String) :
    (TraceM.lazyAttr value name).Within count := hvalue

lemma within_constOrLazyAttr (hvalue : value.Within count) (name : String) :
    (TraceM.constOrLazyAttr value name).Within count := by
  unfold TraceM.constOrLazyAttr
  split
  · trivial
  · exact within_lazyAttr hvalue name

lemma within_wrapMember (member : Value) : (TraceM.wrapMember value member).Within count := by
  unfold TraceM.wrapMember
  refine within_derived.2 ?_
  split
  case h_6 => split <;> trivial
  all_goals trivial

lemma withinKind_of_concatenated? {function : Primitive} (hvalue : value.Within count)
    (hkey : key.Within count) (h : TraceM.concatenated? function value.kind key.kind = some kind) :
    WithinKind count kind := by
  have hhead := within_iff.1 hvalue
  have htail := within_iff.1 hkey
  have happend {head tail : List Symbolic} (hhead : WithinItems count head)
      (htail : WithinItems count tail) : WithinItems count (head ++ tail) := by
    rw [withinItems_iff] at hhead htail ⊢
    exact List.forall_mem_append.2 ⟨hhead, htail⟩
  unfold TraceM.concatenated? at h
  split at h
  · next heq heq' =>
    cases h
    rw [heq] at hhead
    rw [heq'] at htail
    exact happend hhead htail
  · next heq heq' =>
    cases h
    rw [heq] at hhead
    rw [heq'] at htail
    exact happend hhead htail
  · cases h

/-- The facts of a layer's result are about its node, or are those of its input. -/
lemma withinKind_outputFacts (hnode : node < count) (hargs : ∀ arg ∈ args, arg.Within count)
    (layer : Layer) (dynamicShapes : Bool) :
    WithinKind count (.array (layer.outputFacts node dynamicShapes (TraceM.inputFacts? args))) := by
  rcases Layer.outputFacts_node node dynamicShapes layer (TraceM.inputFacts? args) with h | ⟨h, -⟩
  · exact h.trans_lt hnode
  · generalize layer.outputFacts node dynamicShapes (TraceM.inputFacts? args) = facts at h ⊢
    cases args with
    | nil => cases h
    | cons arg rest =>
      have hkind := within_iff.1 (hargs arg (List.mem_cons_self ..))
      simp only [TraceM.inputFacts?] at h
      split at h
      · next heq =>
        rw [heq, Option.some.inj h] at hkind
        exact hkind
      · next heq =>
        rw [heq, Option.some.inj h] at hkind
        exact hkind
      · cases h

end

end GuardedTrace.Symbolic
