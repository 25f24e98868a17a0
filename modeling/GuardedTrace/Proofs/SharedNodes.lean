/-
Sharing of nodes.

A builder answers a request for a node that is there with that node.  Beside the graph that it
builds stands the graph in which every request has a node of its own.  A node and the requests that
it answers have the same value, but an object that a request makes has the number of the shared
node.  So the shared graph computes what the other graph computes, with other numbers for the
objects that are made, unless an equality compares two objects that get the same number.
-/
import GuardedTrace.Proofs.Renaming
import GuardedTrace.Proofs.RequestGraphs

namespace GuardedTrace

/-! ### Operands -/

namespace Operand

section

variable {f : Nat → Nat} {values shared : List Value}

lemma sliceBound_rename (value : Value) : sliceBound (value.rename f) = sliceBound value := by
  cases value with
  | layer node => simp [sliceBound, Value.rename, Value.typeName]
  | object owner => simp [sliceBound, Value.rename, Value.typeName]
  | _ => rfl

/-- A bound of a slice does not depend on the numbers of objects. -/
lemma bind_sliceBound_rename {result : Evaluation Value}
    {next renamed : Option Int64 → Evaluation Value}
    (h : ∀ bound, renamed bound = (next bound).map (Value.rename f)) :
    (result.map (Value.rename f) >>= fun value => sliceBound value >>= renamed) =
      (result >>= fun value => sliceBound value >>= next).map (Value.rename f) := by
  cases result with
  | error error => rfl
  | ok value =>
    simp only [Except.map, ok_bind, sliceBound_rename]
    cases sliceBound value with
    | error error => rfl
    | ok bound => exact h bound

lemma renameEntries_of_related {entries others : List (Key × Value)}
    (h : List.Forall₂ (Table.Related fun value renamed => renamed = value.rename f)
      entries others) :
    others = Value.renameEntries f entries := by
  induction h with
  | nil => rfl
  | @cons entry other _ _ hentry _ ih =>
    obtain ⟨key, value⟩ := entry
    obtain ⟨_, _⟩ := other
    obtain ⟨rfl, rfl⟩ := hentry
    rw [ih, Value.renameEntries]

lemma ofListOrdered_rename (entries : List (Key × Value)) :
    Table.ofListOrdered Key.cmp (entries.map fun entry => (entry.1, entry.2.rename f)) =
      Value.renameEntries f (Table.ofListOrdered Key.cmp entries) := by
  refine renameEntries_of_related (Table.ofListOrdered_related ?_)
  rw [List.forall₂_map_right_iff, List.forall₂_same]
  exact fun entry _ => ⟨rfl, rfl⟩

mutual

/-- An operand of renamed values has the renamed value. -/
lemma evaluate_relabel (reader other : Nat) : ∀ {operand : Operand},
    (∀ id ∈ operand.reads, ∃ value, values[id]? = some value ∧
      shared[f id]? = some (value.rename f)) →
    (operand.relabel f).evaluate other shared =
      (operand.evaluate reader values).map (Value.rename f)
  | node id, h => by
    obtain ⟨value, hvalue, hshared⟩ := h id (List.mem_singleton_self id)
    simp only [relabel, evaluate, hvalue, hshared]
    rfl
  | literal value, _ => congrArg Except.ok (Value.rename_ofLiteral value).symm
  | tuple items, h => by
    simp only [relabel, evaluate, evaluateItems_relabel reader other h]
    cases evaluateItems reader values items with
    | error error => rfl
    | ok found =>
      exact congrArg (fun items => Except.ok (Value.tuple items)) (Value.renameItems_eq found).symm
  | list items, h => by
    simp only [relabel, evaluate, evaluateItems_relabel reader other h]
    cases evaluateItems reader values items with
    | error error => rfl
    | ok found =>
      exact congrArg (fun items => Except.ok (Value.list items)) (Value.renameItems_eq found).symm
  | dict entries, h => by
    simp only [relabel, evaluate, evaluateEntries_relabel reader other h]
    cases evaluateEntries reader values entries with
    | error error => rfl
    | ok found =>
      exact congrArg (fun entries => Except.ok (Value.dict entries)) (ofListOrdered_rename found)
  | slice start stop step, h => by
    simp only [reads, List.forall_mem_append] at h
    simp only [relabel, evaluate, evaluate_relabel reader other h.1.1,
      evaluate_relabel reader other h.1.2, evaluate_relabel reader other h.2]
    exact bind_sliceBound_rename fun _ => bind_sliceBound_rename fun _ =>
      bind_sliceBound_rename fun _ => rfl
termination_by structural operand => operand

lemma evaluateItems_relabel (reader other : Nat) : ∀ {items : List Operand},
    (∀ id ∈ readsItems items, ∃ value, values[id]? = some value ∧
      shared[f id]? = some (value.rename f)) →
    evaluateItems other shared (relabelItems f items) =
      (evaluateItems reader values items).map (List.map (Value.rename f))
  | [], _ => rfl
  | item :: rest, h => by
    obtain ⟨hitem, hrest⟩ := List.forall_mem_append.1 h
    simp only [relabelItems, evaluateItems, evaluate_relabel reader other hitem,
      evaluateItems_relabel reader other hrest]
    cases evaluate reader values item with
    | error error => rfl
    | ok value => cases evaluateItems reader values rest <;> rfl
termination_by structural items => items

lemma evaluateEntries_relabel (reader other : Nat) : ∀ {entries : List (Key × Operand)},
    (∀ id ∈ readsEntries entries, ∃ value, values[id]? = some value ∧
      shared[f id]? = some (value.rename f)) →
    evaluateEntries other shared (relabelEntries f entries) =
      (evaluateEntries reader values entries).map
        (List.map fun entry => (entry.1, entry.2.rename f))
  | [], _ => rfl
  | (key, item) :: rest, h => by
    obtain ⟨hitem, hrest⟩ := List.forall_mem_append.1 h
    simp only [relabelEntries, evaluateEntries, evaluate_relabel reader other hitem,
      evaluateEntries_relabel reader other hrest]
    cases evaluate reader values item with
    | error error => rfl
    | ok value => cases evaluateEntries reader values rest <;> rfl
termination_by structural entries => entries

end

end

end Operand

/-! ### Requests -/

/-- Whether a request compares two values for equality. -/
def NodeRequest.testsEquality (layers : LayerTable) : NodeRequest → Bool
  | .callPrimitive function _ | .callMethod function _ _ => function.testsEquality
  | .callLayer target _ =>
    match (layers.lookup target).map Layer.kind with
    | some (.leaf function) => function.testsEquality
    | _ => false
  | _ => false

/-- No renaming changes the layer: it was there before the evaluation, with all its parts. -/
def Layer.Settled (layer : Layer) : Prop := ∀ f, layer.rename f = layer

/-- No renaming changes the value: all its objects were there before the evaluation, which numbers
only what it makes itself. -/
def Value.Settled (value : Value) : Prop := ∀ f, value.rename f = value

section

variable {layers : LayerTable} {assignment : String → Value}

lemma settled_of_resolve? (hlayers : ∀ entry ∈ layers, entry.2.Settled)
    {target : String} {value : Value}
    (h : layers.resolve? target = some value) : value.Settled := by
  intro f
  simp only [LayerTable.resolve?, Option.bind_eq_bind, Option.bind_eq_some_iff] at h
  obtain ⟨⟨key, member⟩, -, layer, hlayer, hmember⟩ := h
  obtain ⟨before, behind, rfl, -⟩ := List.lookup_eq_some_iff.1 hlayer
  have hsettled := hlayers (key, layer) (by simp) f
  have hrenamed := Layer.member?_rename (f := f) layer member
  rw [hsettled, hmember] at hrenamed
  exact (Option.some.inj hrenamed).symm

section

variable {f : Nat → Nat} {request : NodeRequest} {values shared : List Value}

lemma liftRun_map {α β : Type} (g : α → β) (result : Run α) :
    liftRun (result.map g) = (liftRun result).map g := by
  cases result <;> rfl

lemma bind_map_rename {args renamed : Evaluation (List Value)}
    {next next' : List Value → Evaluation Value}
    (hargs : renamed = args.map (List.map (Value.rename f)))
    (hnext : ∀ found, args = .ok found →
      next' (found.map (Value.rename f)) = (next found).map (Value.rename f)) :
    (renamed >>= next') = (args >>= next).map (Value.rename f) := by
  rw [hargs]
  cases args with
  | error error => rfl
  | ok found => exact hnext found rfl

/-- A request has, from renamed values, the renamed value under the number of the node that answers
it. -/
lemma value_relabel (hlayers : ∀ entry ∈ layers, entry.2.Settled)
    (hassignment : ∀ name, (assignment name).Settled) {position : Nat}
    (hvalues : ∀ id ∈ Operand.readsItems request.operands, ∃ value, values[id]? = some value ∧
      shared[f id]? = some (value.rename f))
    (hapart : request.testsEquality layers = true → ∀ a b,
      Operand.evaluateItems position values request.operands = .ok [a, b] → a.Apart f b) :
    Node.value layers assignment shared
        ⟨f position, request.operation, Operand.relabelItems f request.operands⟩ =
      (Node.value layers assignment values ⟨position, request.operation, request.operands⟩).map
        (Value.rename f) := by
  have hargs := Operand.evaluateItems_relabel position (f position) hvalues
  have hcall {function : Primitive}
      (htests : function.testsEquality = request.testsEquality layers) :
      ∀ args, Operand.evaluateItems position values request.operands = .ok args →
        liftRun (function.call (f position) (args.map (Value.rename f))) =
          (liftRun (function.call position args)).map (Value.rename f) := by
    intro args hfound
    rw [← liftRun_map, Primitive.call_rename position]
    rintro hequality a b rfl
    exact hapart (htests.symm.trans hequality) a b hfound
  cases request with
  | placeholder name => exact congrArg Except.ok (hassignment name f).symm
  | parameter target =>
    simp only [Node.value, Node.name?, CompiledGraph.compute, Node.parameter?,
      NodeRequest.operation]
    cases hvalue : layers.resolve? target with
    | none => rfl
    | some value =>
      simp only [Option.map_some, Option.toList_some, List.lookup_cons, beq_self_eq_true]
      exact congrArg Except.ok (settled_of_resolve? hlayers hvalue f).symm
  | callPrimitive function args => exact bind_map_rename hargs (hcall rfl)
  | callMethod function receiver args => exact bind_map_rename hargs (hcall rfl)
  | callLayer target args =>
    simp only [Node.value, Node.name?, CompiledGraph.compute, NodeRequest.operation]
    cases hlayer : layers.lookup target with
    | none => rfl
    | some layer =>
      obtain ⟨before, behind, hsplit, -⟩ := List.lookup_eq_some_iff.1 hlayer
      have hsettled : layer.rename f = layer := hlayers (target, layer) (by simp [hsplit]) f
      refine bind_map_rename hargs fun found hfound => ?_
      have hkeeps : layer.KeepsApart f found := by
        rintro function hkind hequality a b rfl
        refine hapart ?_ a b hfound
        simpa [NodeRequest.testsEquality, hlayer, hkind] using hequality
      rw [← liftRun_map, ← Layer.forward_rename position layer hkeeps, hsettled]
  | readAttr base name =>
    refine bind_map_rename hargs fun found hfound => ?_
    obtain ⟨value, hvalue, -⟩ := hvalues base (List.mem_singleton_self base)
    have hone : found = [value] := by
      simp only [NodeRequest.operands, Operand.evaluateItems, Operand.evaluate,
        hvalue, ok_bind] at hfound
      exact (Except.ok.inj hfound).symm
    subst hone
    show liftRun ((value.rename f).getAttr (f position) name) = _
    rw [Value.getAttr_rename, liftRun_map]

end

/-! ### Shared nodes -/

section

variable {f : Nat → Nat} {requests : List NodeRequest} {request : NodeRequest} {nodes : List Node}
  {output : Operand}

/-- The values of requests, and of the nodes that answer them. -/
def Answered (f : Nat → Nat) (values shared : List Value) : Prop :=
  ∀ (id : Nat) value, values[id]? = some value → shared[f id]? = some (value.rename f)

/-- The evaluation of requests, and of the nodes that answer them: both fail in the same way, or
both succeed. -/
inductive AnsweredBy (f : Nat → Nat) :
    Evaluation (List Value) → Evaluation (List Value) → Prop where
  | error (error : GraphError) : AnsweredBy f (.error error) (.error error)
  | ok {values shared : List Value} (h : Answered f values shared) :
    AnsweredBy f (.ok values) (.ok shared)

lemma Answered.get {values shared : List Value} (h : Answered f values shared) {id : Nat}
    (hid : id < values.length) :
    ∃ value, values[id]? = some value ∧ shared[f id]? = some (value.rename f) :=
  ⟨values[id], List.getElem?_eq_getElem hid, h id _ (List.getElem?_eq_getElem hid)⟩

lemma Answered.append_one {values shared : List Value}
    (h : Answered f values shared) {value : Value}
    (hvalue : shared[f values.length]? = some (value.rename f)) :
    Answered f (values ++ [value]) shared := by
  intro id found hfound
  rcases getElem?_append_one hfound with hfound | ⟨rfl, rfl⟩
  · exact h id found hfound
  · exact hvalue

lemma Answered.mono {values shared : List Value} (h : Answered f values shared)
    (more : List Value) :
    Answered f values (shared ++ more) := by
  intro id value hvalue
  have hfound := h id value hvalue
  rw [List.getElem?_append_left (List.getElem?_eq_some_iff.1 hfound).1, hfound]

/-- Nodes that answer requests, and have their values. -/
structure Shares (layers : LayerTable) (assignment : String → Value) (f : Nat → Nat)
    (requests : List NodeRequest) (nodes : List Node) : Prop where
  wired : Wired layers nodes
  answered : ∀ position < requests.length, f position < nodes.length
  length_le : nodes.length ≤ requests.length
  values : AnsweredBy f (evaluateNodes layers assignment (requestNodes requests) [])
    (evaluateNodes layers assignment nodes [])

lemma Shares.nil : Shares layers assignment f [] [] := by
  refine ⟨⟨?_, ?_, ?_⟩, ?_, Nat.le_refl _, .ok fun id value hvalue => ?_⟩ <;> simp_all

section

variable (hlayers : ∀ entry ∈ layers, entry.2.Settled)
  (hassignment : ∀ name, (assignment name).Settled)
  (hearlier : ∀ id ∈ Operand.readsItems request.operands, id < requests.length)
  (hapart : request.testsEquality layers = true → ∀ values a b,
  evaluateNodes layers assignment (requestNodes requests) [] = .ok values →
  Operand.evaluateItems requests.length values request.operands = .ok [a, b] → a.Apart f b)
include hlayers hassignment hearlier hapart

/-- The value of a node that answers one more request. -/
lemma Answered.value_eq {values shared : List Value} (h : Answered f values shared)
    (hvalues : evaluateNodes layers assignment (requestNodes requests) [] = .ok values) :
    Node.value layers assignment shared
        ⟨f requests.length, request.operation, Operand.relabelItems f request.operands⟩ =
      (Node.value layers assignment values
        ⟨requests.length, request.operation, request.operands⟩).map
        (Value.rename f) := by
  refine value_relabel hlayers hassignment (fun id hid => h.get ?_) fun htests a b =>
    hapart htests values a b hvalues
  rw [length_of_requests hvalues]
  exact hearlier id hid

/-- A request that is answered with a node that is there. -/
lemma Shares.found (h : Shares layers assignment f requests nodes) {node : Node}
    (hnode : nodes[f requests.length]? = some node)
    (hoperation : node.operation = request.operation)
    (hoperands : node.operands = Operand.relabelItems f request.operands) :
    Shares layers assignment f (requests ++ [request]) nodes := by
  have hid := h.wired.numbered _ _ hnode
  obtain ⟨id, operation, operands⟩ := node
  obtain rfl : id = f requests.length := hid
  obtain rfl : operation = request.operation := hoperation
  obtain rfl : operands = Operand.relabelItems f request.operands := hoperands
  refine ⟨h.wired, fun position hposition => ?_, ?_, ?_⟩
  · rw [List.length_append, List.length_singleton] at hposition
    rcases Nat.lt_succ_iff_lt_or_eq.1 hposition with hlt | rfl
    · exact h.answered position hlt
    · exact (List.getElem?_eq_some_iff.1 hnode).1
  · rw [List.length_append]
    exact Nat.le_add_right_of_le h.length_le
  · have hvalues := h.values
    rw [requestNodes_append_one, evaluateNodes_append_one]
    generalize hbefore : evaluateNodes layers assignment (requestNodes requests) [] =
      before at hvalues ⊢
    generalize hnodes : evaluateNodes layers assignment nodes [] = after at hvalues ⊢
    cases hvalues with
    | error error => exact .error error
    | @ok values shared hshared =>
      -- the request cannot fail, because the node did not
      obtain ⟨found, hfound, hsolves⟩ := (evaluateNodes_eq_ok hnodes).2 _ _ hnode
      have heq := hshared.value_eq hlayers hassignment hearlier hapart hbefore
      rw [hsolves] at heq
      obtain ⟨value, hvalue, rfl⟩ := except_map_eq_ok.1 heq.symm
      rw [ok_bind, hvalue]
      refine .ok (hshared.append_one ?_)
      rw [length_of_requests hbefore]
      exact hfound

/-- A request that is answered with a new node. -/
lemma Shares.new (h : Shares layers assignment f requests nodes)
    (hresolves : request.Resolves layers)
    (hlast : f requests.length = nodes.length) :
    Shares layers assignment f (requests ++ [request])
      (nodes ++ [⟨f requests.length, request.operation,
        Operand.relabelItems f request.operands⟩]) := by
  refine ⟨h.wired.append_one hlast hresolves fun id hid => h.answered id (hearlier id hid),
    fun position hposition => ?_, ?_, ?_⟩
  · rw [List.length_append, List.length_singleton] at hposition ⊢
    rcases Nat.lt_succ_iff_lt_or_eq.1 hposition with hlt | rfl
    · exact Nat.lt_succ_of_lt (h.answered position hlt)
    · exact hlast ▸ Nat.lt_succ_self _
  · rw [List.length_append, List.length_append]
    exact Nat.add_le_add_right h.length_le 1
  · have hvalues := h.values
    rw [requestNodes_append_one, evaluateNodes_append_one, evaluateNodes_append_one]
    generalize hbefore : evaluateNodes layers assignment (requestNodes requests) [] =
      before at hvalues ⊢
    generalize hnodes : evaluateNodes layers assignment nodes [] = after at hvalues ⊢
    cases hvalues with
    | error error => exact .error error
    | @ok values shared hshared =>
      rw [ok_bind, ok_bind, hshared.value_eq hlayers hassignment hearlier hapart hbefore]
      cases Node.value layers assignment values
        ⟨requests.length, request.operation, request.operands⟩ with
      | error error => exact .error error
      | ok value =>
        refine .ok ((hshared.mono _).append_one ?_)
        rw [length_of_requests hbefore, hlast, ← (evaluateNodes_eq_ok hnodes).1]
        simp

end

/-- The recorded nodes answer the requests, and have their values. -/
lemma Shares.replay (hlayers : ∀ entry ∈ layers, entry.2.Settled)
    (hassignment : ∀ name, (assignment name).Settled) (hearlier : ReadsEarlier requests)
    (hresolves : ∀ request ∈ requests, request.Resolves layers)
    (hids : (replay Builder.record requests).2 = (List.range requests.length).map f)
    (hapart : ∀ position request, requests[position]? = some request →
      request.testsEquality layers = true → ∀ values a b,
        evaluateNodes layers assignment (requestNodes (requests.take position)) [] = .ok values →
        Operand.evaluateItems position values request.operands = .ok [a, b] → a.Apart f b) :
    Shares layers assignment f requests (replay Builder.record requests).1.nodes.toList := by
  -- `f` is fixed, so that the answers to the first requests stay the same in the induction
  induction requests using List.reverseRecOn with
  | nil => exact .nil
  | append_singleton requests request ih =>
    rw [replay_append_one] at hids ⊢
    rw [List.length_append, List.length_singleton, List.range_succ, List.map_append] at hids
    obtain ⟨hbefore, hlast⟩ := List.append_inj' hids rfl
    have hrelabel : Operand.relabelItems ((GuardedTrace.replay Builder.record requests).2.getD · 0)
        request.operands = Operand.relabelItems f request.operands := by
      refine Operand.relabelItems_congr fun id hid => ?_
      have hrange := List.getElem?_range (hearlier.last id hid)
      simp [hbefore, List.getD_eq_getElem?_getD, hrange]
    rw [hrelabel] at hlast ⊢
    have hshares := ih hearlier.init
      (fun other hother => hresolves other (List.mem_append_left _ hother))
      hbefore fun position other hother htests values a b hvalues => by
        have hlt := (List.getElem?_eq_some_iff.1 hother).1
        refine hapart position other ?_ htests values a b ?_
        · rw [List.getElem?_append_left hlt, hother]
        · rwa [List.take_append_of_le_length hlt.le]
    have hnext := fun htests values a b hvalues =>
      hapart requests.length request (by simp) htests values a b
      (by rwa [List.take_left])
    obtain ⟨id, after, hrecord⟩ : ∃ id after, (GuardedTrace.replay Builder.record requests).1.record
        request.operation (Operand.relabelItems f request.operands) = (id, after) := ⟨_, _, rfl⟩
    rw [hrecord] at hlast ⊢
    obtain rfl : id = f requests.length := (List.cons.inj hlast).1
    rcases Builder.record_cases hrecord with
        ⟨rfl, node, hnode, hoperation, hoperands⟩ | ⟨hsize, hnodes, -⟩
    · exact hshares.found hlayers hassignment hearlier.last hnext hnode hoperation hoperands
    · rw [hnodes]
      refine hshares.new hlayers hassignment hearlier.last hnext (hresolves request (by simp)) ?_
      rw [hsize, Array.length_toList]

/-- The node that answers a request when nodes are shared. -/
def answer (requests : List NodeRequest) (position : Nat) : Nat :=
  (replay Builder.record requests).2.getD position 0

lemma replay_eq_map_answer (requests : List NodeRequest) :
    (replay Builder.record requests).2 = (List.range requests.length).map (answer requests) := by
  refine List.ext_getElem (by simp [length_replay]) fun position hposition _ => ?_
  simp [answer, List.getD_eq_getElem?_getD, List.getElem?_eq_getElem hposition]

/-- **Shared nodes keep the meaning of a graph**, up to the numbers of the objects that are made:
the graph in which equal requests share a node gives the same error as the graph in which every
request has a node of its own, or the same value with other numbers, unless an equality compares two
different objects that are made by requests with a common node. -/
theorem evaluate_shared {limit : Nat} (hlayers : ∀ entry ∈ layers, entry.2.Settled)
    (hassignment : ∀ name, (assignment name).Settled) (hearlier : ReadsEarlier requests)
    (houtput : ∀ id ∈ output.reads, id < requests.length)
    (hresolves : ∀ request ∈ requests, request.Resolves layers) (hlimit : requests.length < limit)
    (hapart : ∀ position request, requests[position]? = some request →
      request.testsEquality layers = true → ∀ a b,
        (requestGraph Builder.append (requests.take position) (.tuple request.operands)).evaluate
          limit layers
          assignment = .ok (.tuple [a, b]) → a.Apart (answer requests) b) :
    (requestGraph Builder.record requests output).evaluate limit layers assignment =
      ((requestGraph Builder.append requests output).evaluate limit layers assignment).map
        (Value.rename (answer requests)) := by
  have hshares : Shares layers assignment (answer requests) requests
      (replay Builder.record requests).1.nodes.toList := by
    refine .replay hlayers hassignment hearlier hresolves (replay_eq_map_answer requests) ?_
    intro position request hrequest htests values a b hvalues hargs
    refine hapart position request hrequest htests a b ?_
    have hlt := (List.getElem?_eq_some_iff.1 hrequest).1
    have hlength : (requests.take position).length = position := List.length_take_of_le hlt.le
    have hreads : ∀ id ∈ (Operand.tuple request.operands).reads,
        id < (requests.take position).length := by
      rw [hlength]
      exact hearlier position request hrequest
    rw [requestGraph_append (hearlier.take position) hreads, Wired.evaluate
      ((hearlier.take position).wired fun other hother =>
        hresolves other (List.mem_of_mem_take hother))
      (length_requestNodes ▸ hreads) (by rw [length_requestNodes, hlength]; omega),
        hvalues, ok_bind, length_requestNodes, hlength, Operand.evaluate, hargs]
    rfl
  have hreads : ∀ id ∈ (output.relabel (answer requests)).reads,
      id < (replay Builder.record requests).1.nodes.toList.length := by
    intro id hid
    rw [Operand.reads_relabel] at hid
    obtain ⟨position, hposition, rfl⟩ := List.mem_map.1 hid
    exact hshares.answered position (houtput position hposition)
  have hrecord : requestGraph Builder.record requests output = outputGraph
      (replay Builder.record requests).1.nodes.toList (output.relabel (answer requests)) := rfl
  rw [hrecord, hshares.wired.evaluate hreads (hshares.length_le.trans_lt hlimit),
    requestGraph_append hearlier houtput, (hearlier.wired hresolves).evaluate
      (length_requestNodes ▸ houtput)
      (length_requestNodes ▸ hlimit)]
  have hanswered := hshares.values
  generalize hvalues : evaluateNodes layers assignment (requestNodes requests) [] =
    before at hanswered ⊢
  generalize evaluateNodes layers assignment
    (replay Builder.record requests).1.nodes.toList [] = after
    at hanswered ⊢
  cases hanswered with
  | error error => rfl
  | @ok values shared hshared =>
    refine Operand.evaluate_relabel _ _ fun id hid => hshared.get ?_
    rw [length_of_requests hvalues]
    exact houtput id hid

end

end

/-- Two reads of a method of one array, and a comparison of two answers. -/
def methodRequests (left right : Nat) : List NodeRequest :=
  [.placeholder "x", .readAttr 0 "sum", .readAttr 0 "sum",
    .callPrimitive .eq [.node left, .node right]]

/-- An array with one element. -/
def single : Value := .array (.contiguous .float64 .cpu [1] [⟨0⟩])

lemma resolves_methodRequests (left right : Nat) :
    ∀ request ∈ methodRequests left right, request.Resolves [] := by
  simp [methodRequests, NodeRequest.Resolves]

/-- The comparison of a method with itself finds them equal, shared or not. -/
theorem evaluate_shared_method :
    (requestGraph Builder.append (methodRequests 2 2) (.tuple [.node 2, .node 3])).evaluate 10 []
        (fun _ => single) = .ok (.tuple [.boundPrimitive (.created 2) single .sum, .bool true]) ∧
      (requestGraph Builder.record (methodRequests 2 2) (.tuple [.node 2, .node 3])).evaluate 10 []
        (fun _ => single) = .ok (.tuple
          [.boundPrimitive (.created 1) single .sum, .bool true]) := by
  have happend : (requestGraph Builder.append (methodRequests 2 2)
      (.tuple [.node 2, .node 3])).evaluate 10 []
      (fun _ => single) = .ok (.tuple [.boundPrimitive (.created 2) single .sum, .bool true]) := rfl
  have hanswer : answer (methodRequests 2 2) 2 = 1 := by decide +kernel
  have hapart : ∀ position request, (methodRequests 2 2)[position]? = some request →
      request.testsEquality [] = true → ∀ a b,
        (requestGraph Builder.append ((methodRequests 2 2).take position)
          (.tuple request.operands)).evaluate 10 []
          (fun _ => single) = .ok (.tuple [a, b]) → a.Apart (answer (methodRequests 2 2)) b := by
    intro position request hrequest htests a b heval
    match position, hrequest with
    | 0, hrequest | 1, hrequest | 2, hrequest =>
      cases hrequest
      cases htests
    | 3, hrequest =>
      cases hrequest
      cases heval
      intro pair hpair _
      obtain rfl := List.mem_singleton.1 hpair
      rfl
  refine ⟨happend, ?_⟩
  have hlayers : ∀ entry ∈ ([] : LayerTable), entry.2.Settled := fun _ h => by simp at h
  rw [evaluate_shared hlayers (fun _ _ => rfl) (readsEarlier_of_forall (by decide)) (by decide)
    (resolves_methodRequests 2 2) (by decide) hapart, happend]
  simp only [Except.map, Value.rename, Value.renameItems, Identity.rename, hanswer, single]

/-- Two methods that are read one after the other are not equal, but with a shared node they are
one. -/
theorem not_evaluate_shared_methods :
    ReadsEarlier (methodRequests 1 2) ∧ (∀ request ∈ methodRequests 1 2, request.Resolves []) ∧
      single.Settled ∧
      (requestGraph Builder.append (methodRequests 1 2) (.node 3)).evaluate
        10 [] (fun _ => single) =
        .ok (.bool false) ∧
      (requestGraph Builder.record (methodRequests 1 2) (.node 3)).evaluate
        10 [] (fun _ => single) =
        .ok (.bool true) := by
  have hgraph : requestGraph Builder.record (methodRequests 1 2) (.node 3) = outputGraph
      [⟨0, .placeholder "x", []⟩, ⟨1, .readAttr "sum", [.node 0]⟩,
        ⟨2, .callPrimitive .eq, [.node 1, .node 1]⟩] (.node 2) := by decide +kernel
  refine ⟨readsEarlier_of_forall (by decide), resolves_methodRequests 1 2, fun _ => rfl, rfl, ?_⟩
  rw [hgraph]
  rfl

end GuardedTrace
