/-
Graphs from requests.

A builder answers requests for nodes one after the other.  `requestGraph` is the graph that comes
out, for any way to answer a request; when every request gets a node of its own, the nodes are the
requests.  A graph whose nodes are numbered, read what is before them and name what there is can be
compiled, and its evaluation computes the values of the nodes one by one.
-/
import GuardedTrace.Proofs.GraphRuns

namespace GuardedTrace

/-! ### Operands with other nodes -/

namespace Operand

mutual

/-- The operand with other numbers for the nodes that it reads. -/
def relabel (g : Nat → Nat) : Operand → Operand
  | node id => node (g id)
  | literal value => literal value
  | tuple items => tuple (relabelItems g items)
  | list items => list (relabelItems g items)
  | dict entries => dict (relabelEntries g entries)
  | slice start stop step => slice (relabel g start) (relabel g stop) (relabel g step)
termination_by structural operand => operand

def relabelItems (g : Nat → Nat) : List Operand → List Operand
  | [] => []
  | item :: rest => relabel g item :: relabelItems g rest
termination_by structural items => items

def relabelEntries (g : Nat → Nat) : List (Key × Operand) → List (Key × Operand)
  | [] => []
  | (key, item) :: rest => (key, relabel g item) :: relabelEntries g rest
termination_by structural entries => entries

end

lemma length_relabelItems (g : Nat → Nat) (items : List Operand) :
    (relabelItems g items).length = items.length := by
  induction items with
  | nil => rfl
  | cons item rest ih => rw [relabelItems, List.length_cons, ih, List.length_cons]

mutual

lemma reads_relabel (g : Nat → Nat) :
    ∀ operand : Operand, (operand.relabel g).reads = operand.reads.map g
  | node _ => rfl
  | literal _ => rfl
  | tuple items => readsItems_relabel g items
  | list items => readsItems_relabel g items
  | dict entries => readsEntries_relabel g entries
  | slice start stop step => by
    simp only [relabel, reads, List.map_append, reads_relabel g start, reads_relabel g stop,
      reads_relabel g step]
termination_by structural operand => operand

lemma readsItems_relabel (g : Nat → Nat) : ∀ items : List Operand,
    readsItems (relabelItems g items) = (readsItems items).map g
  | [] => rfl
  | item :: rest => by
    simp only [relabelItems, readsItems, List.map_append, reads_relabel g item,
      readsItems_relabel g rest]
termination_by structural items => items

lemma readsEntries_relabel (g : Nat → Nat) : ∀ entries : List (Key × Operand),
    readsEntries (relabelEntries g entries) = (readsEntries entries).map g
  | [] => rfl
  | (key, item) :: rest => by
    simp only [relabelEntries, readsEntries, List.map_append, reads_relabel g item,
      readsEntries_relabel g rest]
termination_by structural entries => entries

end

mutual

/-- Only the numbers of the nodes that are read matter. -/
lemma relabel_congr {g h : Nat → Nat} : ∀ {operand : Operand}, (∀ id ∈ operand.reads, g id = h id) →
    operand.relabel g = operand.relabel h
  | node id, hreads => congrArg node (hreads id (List.mem_singleton_self id))
  | literal _, _ => rfl
  | tuple _, hreads => congrArg tuple (relabelItems_congr hreads)
  | list _, hreads => congrArg list (relabelItems_congr hreads)
  | dict _, hreads => congrArg dict (relabelEntries_congr hreads)
  | slice start stop step, hreads => by
    simp only [reads, List.forall_mem_append] at hreads
    simp only [relabel, relabel_congr hreads.1.1, relabel_congr hreads.1.2, relabel_congr hreads.2]
termination_by structural operand => operand

lemma relabelItems_congr {g h : Nat → Nat} : ∀ {items : List Operand},
    (∀ id ∈ readsItems items, g id = h id) → relabelItems g items = relabelItems h items
  | [], _ => rfl
  | item :: rest, hreads => by
    obtain ⟨hitem, hrest⟩ := List.forall_mem_append.1 hreads
    exact congrArg₂ List.cons (relabel_congr hitem) (relabelItems_congr hrest)
termination_by structural items => items

lemma relabelEntries_congr {g h : Nat → Nat} : ∀ {entries : List (Key × Operand)},
    (∀ id ∈ readsEntries entries, g id = h id) → relabelEntries g entries = relabelEntries h entries
  | [], _ => rfl
  | (key, item) :: rest, hreads => by
    obtain ⟨hitem, hrest⟩ := List.forall_mem_append.1 hreads
    exact congrArg₂ List.cons (congrArg (Prod.mk key) (relabel_congr hitem))
      (relabelEntries_congr hrest)
termination_by structural entries => entries

end

mutual

lemma relabel_id : ∀ operand : Operand, operand.relabel id = operand
  | node _ | literal _ => rfl
  | tuple items => congrArg tuple (relabelItems_id items)
  | list items => congrArg list (relabelItems_id items)
  | dict entries => congrArg dict (relabelEntries_id entries)
  | slice start stop step => by
    simp only [relabel, relabel_id start, relabel_id stop, relabel_id step]
termination_by structural operand => operand

lemma relabelItems_id : ∀ items : List Operand, relabelItems id items = items
  | [] => rfl
  | item :: rest => congrArg₂ List.cons (relabel_id item) (relabelItems_id rest)
termination_by structural items => items

lemma relabelEntries_id : ∀ entries : List (Key × Operand), relabelEntries id entries = entries
  | [] => rfl
  | (key, item) :: rest =>
    congrArg₂ List.cons (congrArg (Prod.mk key) (relabel_id item)) (relabelEntries_id rest)
termination_by structural entries => entries

end

end Operand

/-! ### Requests -/

/-- A request for a node.  What it reads are the answers to earlier requests, given by their
positions. -/
inductive NodeRequest where
  | placeholder (name : String)
  | parameter (target : String)
  | callPrimitive (function : Primitive) (args : List Operand)
  | callMethod (function : Primitive) (receiver : Nat) (args : List Operand)
  | callLayer (target : String) (args : List Operand)
  | readAttr (base : Nat) (name : String)

namespace NodeRequest

def operation : NodeRequest → Operation
  | placeholder name => .placeholder name
  | parameter target => .parameter target
  | callPrimitive function _ => .callPrimitive function
  | callMethod function _ _ => .callMethod function
  | callLayer target _ => .callLayer target
  | readAttr _ name => .readAttr name

def operands : NodeRequest → List Operand
  | placeholder _ | parameter _ => []
  | callPrimitive _ args | callLayer _ args => args
  | callMethod _ receiver args => .node receiver :: args
  | readAttr base _ => [.node base]

/-- The table has what the request names. -/
def Resolves (layers : LayerTable) : NodeRequest → Prop
  | parameter target => (layers.resolve? target).isSome
  | callLayer target _ => (layers.lookup target).isSome
  | _ => True

end NodeRequest

/-- The builder after requests that `insert` answers, and the nodes that answer them. -/
def replay (insert : Builder → Operation → List Operand → Nat × Builder)
    (requests : List NodeRequest) :
    Builder × List Nat :=
  requests.foldl (fun state request =>
    let answer := insert state.1 request.operation
      (Operand.relabelItems (state.2.getD · 0) request.operands)
    (answer.2, state.2 ++ [answer.1])) ({}, [])

/-- The graph of requests with an output, whose nodes are positions of requests too. -/
def requestGraph (insert : Builder → Operation → List Operand → Nat × Builder)
    (requests : List NodeRequest) (output : Operand) : Graph :=
  (replay insert requests).1.finish (output.relabel ((replay insert requests).2.getD · 0))

/-- Compiles a graph and evaluates it on the values that belong to the names of its placeholders. -/
def Graph.evaluate (limit : Nat) (layers : LayerTable)
    (assignment : String → Value) (graph : Graph) :
    Evaluation Value := do
  let compiled ← graph.compile limit layers
  compiled.execute (graph.placeholders.map assignment)

/-! ### Node by node -/

section

variable {layers : LayerTable} {assignment : String → Value}

/-- The value of a node, from the values of the nodes before it. -/
def Node.value (layers : LayerTable) (assignment : String → Value)
    (values : List Value) (node : Node) :
    Evaluation Value :=
  match node.name? with
  | some name => .ok (assignment name)
  | none => CompiledGraph.compute ⟨[], layers, (node.parameter? layers).toList, 0⟩ values node

/-- The values of nodes, behind the values of the nodes before them. -/
def evaluateNodes (layers : LayerTable) (assignment : String → Value) :
    List Node → List Value → Evaluation (List Value)
  | [], values => .ok values
  | node :: rest, values => do
    let value ← node.value layers assignment values
    evaluateNodes layers assignment rest (values ++ [value])

/-- A graph that can be compiled: the nodes are numbered, read what is before them and name what
there is. -/
structure Wired (layers : LayerTable) (nodes : List Node) : Prop where
  numbered : ∀ (position : Nat) (node : Node), nodes[position]? = some node → node.id = position
  behind : ∀ node ∈ nodes, ∀ id ∈ node.reads, id < node.id
  requested : ∀ node ∈ nodes, ∃ request : NodeRequest, request.Resolves layers ∧
    node.operation = request.operation ∧ node.operands.length = request.operands.length

lemma Wired.operation_ne_output {nodes : List Node} (h : Wired layers nodes) :
    ∀ node ∈ nodes, node.operation ≠ .output := by
  intro node hnode
  obtain ⟨request, -, hoperation, -⟩ := h.requested node hnode
  rw [hoperation]
  cases request <;> nofun

lemma Wired.append_one {nodes : List Node} (h : Wired layers nodes) {g : Nat → Nat} {id : Nat}
    (hid : id = nodes.length) {request : NodeRequest} (hresolves : request.Resolves layers)
    (hreads : ∀ read ∈ Operand.readsItems request.operands, g read < nodes.length) :
    Wired layers (nodes ++ [⟨id, request.operation, Operand.relabelItems g request.operands⟩]) := by
  subst hid
  refine ⟨fun position node hnode => ?_, List.forall_mem_append.2 ⟨h.behind, ?_⟩,
    List.forall_mem_append.2 ⟨h.requested, ?_⟩⟩
  · rcases getElem?_append_one hnode with hnode | ⟨rfl, rfl⟩
    · exact h.numbered position node hnode
    · rfl
  · intro node hnode read hread
    obtain rfl := List.mem_singleton.1 hnode
    rw [Node.reads, Operand.readsItems_relabel] at hread
    obtain ⟨read, hmem, rfl⟩ := List.mem_map.1 hread
    exact hreads read hmem
  · intro node hnode
    obtain rfl := List.mem_singleton.1 hnode
    exact ⟨request, hresolves, rfl, Operand.length_relabelItems g _⟩

lemma check_of_behind {node : Node} (hbehind : ∀ id ∈ node.reads, id < node.id)
    {request : NodeRequest}
    (hresolves : request.Resolves layers) (hoperation : node.operation = request.operation)
    (hlength : node.operands.length = request.operands.length) (parameters : Table Nat Value) :
    node.check layers parameters = .ok (parameters ++ (node.parameter? layers).toList) := by
  have hfind : node.reads.find? (node.id ≤ ·) = none := by
    rw [List.find?_eq_none]
    intro id hid
    simpa using hbehind id hid
  unfold Node.check Node.parameter?
  rw [hfind, hoperation]
  cases request with
  | parameter target =>
    obtain ⟨value, hvalue⟩ := Option.isSome_iff_exists.1 hresolves
    simp [NodeRequest.operation, hvalue]
  | callLayer target args =>
    have hsome : (layers.lookup target).isSome = true := hresolves
    simp [NodeRequest.operation, hsome]
  | readAttr base name =>
    have hone : node.operands.length = 1 := hlength
    simp [NodeRequest.operation, hone]
  | _ => simp [NodeRequest.operation]

lemma foldlM_check {nodes : List Node} (h : ∀ node ∈ nodes, ∀ parameters,
    node.check layers parameters = .ok (parameters ++ (node.parameter? layers).toList))
    (parameters : Table Nat Value) : nodes.foldlM (Node.check layers) parameters =
      .ok (parameters ++ nodes.filterMap (Node.parameter? layers)) := by
  induction nodes generalizing parameters with
  | nil => exact congrArg Except.ok (List.append_nil _).symm
  | cons node rest ih =>
    obtain ⟨hnode, hrest⟩ := List.forall_mem_cons.1 h
    rw [List.foldlM_cons, hnode, ok_bind, ih hrest]
    cases hparameter : node.parameter? layers <;> simp [hparameter]

/-- The graph of nodes with an output behind them. -/
def outputGraph (nodes : List Node) (output : Operand) : Graph :=
  ⟨nodes ++ [⟨nodes.length, .output, [output]⟩]⟩

section

variable {nodes : List Node} {output : Operand} {limit : Nat}

lemma placeholders_outputGraph :
    (outputGraph nodes output).placeholders = (⟨nodes⟩ : Graph).placeholders := by
  rw [Graph.placeholders_eq, Graph.placeholders_eq, outputGraph, List.filterMap_append]
  exact List.append_nil _

lemma Wired.compile (h : Wired layers nodes) (houtput : ∀ id ∈ output.reads, id < nodes.length)
    (hlimit : nodes.length < limit) :
    (outputGraph nodes output).compile limit layers = .ok
      ⟨(outputGraph nodes output).nodes, layers, nodes.filterMap (Node.parameter? layers),
        (⟨nodes⟩ : Graph).placeholders.length⟩ := by
  have hsize : ¬ limit < (outputGraph nodes output).nodes.length := by
    simp [outputGraph]
    omega
  have hfinal : (outputGraph nodes output).output? = some output := by
    simp [outputGraph, Graph.output?]
  have hlast (parameters : Table Nat Value) :
      Node.check layers parameters ⟨nodes.length, .output, [output]⟩ = .ok parameters := by
    have hfind : (Operand.readsItems [output]).find? (nodes.length ≤ ·) = none := by
      rw [List.find?_eq_none]
      intro id hid
      rw [Operand.readsItems, Operand.readsItems, List.append_nil] at hid
      simpa using houtput id hid
    simp [Node.check, Node.reads, hfind]
  have hchecks : ∀ node ∈ nodes, ∀ parameters,
      node.check layers parameters = .ok (parameters ++ (node.parameter? layers).toList) := by
    intro node hnode
    obtain ⟨request, hresolves, hoperation, hlength⟩ := h.requested node hnode
    exact check_of_behind (h.behind node hnode) hresolves hoperation hlength
  unfold Graph.compile
  rw [if_neg hsize, hfinal, placeholders_outputGraph]
  simp only [Option.isNone_some, Bool.false_eq_true, if_false, outputGraph, List.foldlM_append]
  rw [foldlM_check hchecks, ok_bind, List.nil_append, List.foldlM_cons, hlast, ok_bind]
  rfl

/-- A numbered node finds its parameter. -/
lemma Wired.lookup_parameters (h : Wired layers nodes) {node : Node}
    (hnode : node ∈ nodes) {target : String}
    (hoperation : node.operation = .parameter target) :
    (nodes.filterMap (Node.parameter? layers)).lookup node.id =
      (node.parameter? layers).toList.lookup node.id := by
  obtain ⟨position, hposition⟩ := List.getElem?_of_mem hnode
  obtain ⟨request, hresolves, hrequest, -⟩ := h.requested node hnode
  have hsome : (layers.resolve? target).isSome = true := by
    rw [hoperation] at hrequest
    cases request <;> cases hrequest
    exact hresolves
  obtain ⟨value, hvalue⟩ := Option.isSome_iff_exists.1 hsome
  have hown : node.parameter? layers = some (node.id, value) := by
    simp [Node.parameter?, hoperation, hvalue]
  rw [hown]
  cases hfound : (nodes.filterMap (Node.parameter? layers)).lookup node.id with
  | none =>
    have hmem : (node.id, value) ∈ nodes.filterMap (Node.parameter? layers) :=
      List.mem_filterMap.2 ⟨node, hnode, hown⟩
    have := List.lookup_eq_none_iff.1 hfound _ hmem
    simp at this
  | some found =>
    have hsame := resolve?_of_lookup h.numbered hposition hoperation hfound
    rw [hvalue] at hsame
    simp [hsame]

/-- A compiled graph computes the value of a node. -/
lemma Wired.compute_eq (h : Wired layers nodes) {node : Node} (hnode : node ∈ nodes)
    {compiled : CompiledGraph}
    (hlayers : compiled.layers = layers)
    (hparameters : compiled.parameters = nodes.filterMap (Node.parameter? layers))
    (hname : node.name? = none) (values : List Value) :
    compiled.compute values node = node.value layers assignment values := by
  unfold Node.value CompiledGraph.compute
  rw [hname]
  cases hoperation : node.operation with
  | parameter target => simp only [hparameters, h.lookup_parameters hnode hoperation]
  | callLayer target => simp only [hlayers]
  | _ => rfl

/-- A run computes the values of the nodes one by one, and then the output. -/
lemma run_eq_evaluateNodes {compiled : CompiledGraph} {id : Nat} (values : List Value)
    (hopen : ∀ node ∈ nodes, node.operation ≠ .output)
    (hcompute : ∀ node ∈ nodes, node.name? = none → ∀ values,
      compiled.compute values node = node.value layers assignment values) :
    compiled.run (nodes ++ [⟨id, .output, [output]⟩])
    ((⟨nodes⟩ : Graph).placeholders.map assignment) values =
      evaluateNodes layers assignment nodes values >>= output.evaluate id := by
  induction nodes generalizing values with
  | nil =>
    simp only [List.nil_append, CompiledGraph.run, Operand.evaluateItems, evaluateNodes, ok_bind]
    cases output.evaluate id values <;> rfl
  | cons node rest ih =>
    obtain ⟨hnode, hrest⟩ := List.forall_mem_cons.1 hopen
    obtain ⟨hvalue, hvalues⟩ := List.forall_mem_cons.1 hcompute
    rw [Graph.placeholders_eq]
    -- a placeholder takes the first input that is left, and any other node takes none
    cases hname : node.name? with
    | some name =>
      have hoperation := Node.name?_eq_some.1 hname
      simp only [List.cons_append, CompiledGraph.run, hoperation, evaluateNodes,
        Node.value, hname, ok_bind, List.filterMap_cons, List.map_cons]
      exact ih _ hrest hvalues
    | none =>
      have hplaceholder : ∀ name, node.operation ≠ .placeholder name := by
        intro name h
        rw [Node.name?_eq_some.2 h] at hname
        cases hname
      have hrun : compiled.run (node :: (rest ++ [⟨id, .output, [output]⟩]))
          ((⟨rest⟩ : Graph).placeholders.map assignment) values =
            (compiled.compute values node >>= fun value =>
            compiled.run (rest ++ [⟨id, .output, [output]⟩])
              ((⟨rest⟩ : Graph).placeholders.map assignment)
              (values ++ [value])) := by
        cases hoperation : node.operation with
        | placeholder name => exact absurd hoperation (hplaceholder name)
        | output => exact absurd hoperation hnode
        | _ => simp only [CompiledGraph.run, hoperation]
      simp only [List.cons_append, List.filterMap_cons, hname, evaluateNodes]
      refine hrun.trans ?_
      rw [hvalue hname]
      cases node.value layers assignment values with
      | error error => rfl
      | ok value => exact ih _ hrest hvalues

/-- A graph that can be compiled evaluates its nodes one by one, and then the output. -/
lemma Wired.evaluate (h : Wired layers nodes) (houtput : ∀ id ∈ output.reads, id < nodes.length)
    (hlimit : nodes.length < limit) :
    (outputGraph nodes output).evaluate limit layers assignment =
      evaluateNodes layers assignment nodes [] >>= output.evaluate nodes.length := by
  unfold Graph.evaluate
  rw [h.compile houtput hlimit, ok_bind, placeholders_outputGraph]
  unfold CompiledGraph.execute
  rw [if_pos (List.length_map _)]
  exact run_eq_evaluateNodes [] h.operation_ne_output fun node hnode hname values =>
    h.compute_eq hnode rfl rfl hname values

end

/-! ### Values of nodes -/

lemma evaluateNodes_append_one (nodes : List Node) (node : Node) (values : List Value) :
    evaluateNodes layers assignment (nodes ++ [node]) values =
      evaluateNodes layers assignment nodes values >>= fun values =>
        (node.value layers assignment values).map (values ++ [·]) := by
  induction nodes generalizing values with
  | nil =>
    simp only [List.nil_append, evaluateNodes, ok_bind]
    cases node.value layers assignment values <;> rfl
  | cons first rest ih =>
    simp only [List.cons_append, evaluateNodes]
    cases first.value layers assignment values with
    | error error => rfl
    | ok value => exact ih _

/-- A node keeps its value when more nodes have values. -/
lemma Node.value_mono {node : Node} {values more : List Value} {value : Value}
    (hmore : ∀ (id : Nat) value, values[id]? = some value → more[id]? = some value)
    (h : node.value layers assignment values = .ok value) :
    node.value layers assignment more = .ok value := by
  unfold Node.value at h ⊢
  cases hname : node.name? with
  | some name => simpa only [hname] using h
  | none =>
    simp only [hname] at h ⊢
    exact CompiledGraph.compute_mono hmore h

/-- Each node has the value that belongs to the values of all nodes. -/
lemma evaluateNodes_eq_ok {nodes : List Node} {values : List Value}
    (h : evaluateNodes layers assignment nodes [] = .ok values) : values.length = nodes.length ∧
      ∀ (position : Nat) node, nodes[position]? = some node →
        ∃ value, values[position]? = some value ∧
          node.value layers assignment values = .ok value := by
  -- values are added behind, so the last node is taken off
  induction nodes using List.reverseRecOn generalizing values with
  | nil =>
    cases h
    simp
  | append_singleton nodes last ih =>
    rw [evaluateNodes_append_one, except_bind_eq_ok] at h
    obtain ⟨before, hbefore, hlast⟩ := h
    obtain ⟨value, hvalue, rfl⟩ := except_map_eq_ok.1 hlast
    obtain ⟨hlength, hvalues⟩ := ih hbefore
    have hmore : ∀ (id : Nat) found, before[id]? = some found →
        (before ++ [value])[id]? = some found := by
      intro id found hfound
      rw [List.getElem?_append_left (List.getElem?_eq_some_iff.1 hfound).1, hfound]
    refine ⟨by simp [hlength], fun position node hnode => ?_⟩
    rcases getElem?_append_one hnode with hnode | ⟨rfl, rfl⟩
    · obtain ⟨found, hfound, hsolves⟩ := hvalues position node hnode
      exact ⟨found, hmore position found hfound, Node.value_mono hmore hsolves⟩
    · exact ⟨value, by simp [hlength], Node.value_mono hmore hvalue⟩

/-- The nodes of requests when every request has a node of its own. -/
def requestNodes (requests : List NodeRequest) : List Node :=
  requests.mapIdx fun position request => ⟨position, request.operation, request.operands⟩

/-- Every request reads the answers to earlier requests only. -/
def ReadsEarlier (requests : List NodeRequest) : Prop :=
  ∀ (position : Nat) request, requests[position]? = some request →
    ∀ id ∈ Operand.readsItems request.operands, id < position

/-! ### Sequences of requests -/

section

variable {requests : List NodeRequest} {request : NodeRequest} {output : Operand}

lemma replay_append_one (insert : Builder → Operation → List Operand → Nat × Builder) :
    replay insert (requests ++ [request]) =
      ((insert (replay insert requests).1 request.operation
          (Operand.relabelItems ((replay insert requests).2.getD · 0) request.operands)).2,
        (replay insert requests).2 ++ [(insert (replay insert requests).1 request.operation
          (Operand.relabelItems ((replay insert requests).2.getD · 0) request.operands)).1]) := by
  simp only [replay, List.foldl_append, List.foldl_cons, List.foldl_nil]

lemma requestNodes_append_one : requestNodes (requests ++ [request]) =
    requestNodes requests ++ [⟨requests.length, request.operation, request.operands⟩] := by
  simp [requestNodes, List.mapIdx_append]

lemma length_requestNodes : (requestNodes requests).length = requests.length := by
  simp [requestNodes]

lemma length_of_requests {values : List Value}
    (h : evaluateNodes layers assignment (requestNodes requests) [] = .ok values) :
    values.length = requests.length := by
  rw [(evaluateNodes_eq_ok h).1, length_requestNodes]

lemma ReadsEarlier.init (h : ReadsEarlier (requests ++ [request])) : ReadsEarlier requests := by
  intro position other hother
  refine h position other ?_
  rw [List.getElem?_append_left (List.getElem?_eq_some_iff.1 hother).1, hother]

lemma ReadsEarlier.last (h : ReadsEarlier (requests ++ [request])) :
    ∀ id ∈ Operand.readsItems request.operands, id < requests.length :=
  h requests.length request (by simp)

lemma ReadsEarlier.wired (h : ReadsEarlier requests)
    (hresolves : ∀ request ∈ requests, request.Resolves layers) :
    Wired layers (requestNodes requests) := by
  have hnode : ∀ (position : Nat) (node : Node), (requestNodes requests)[position]? = some node →
      ∃ request, requests[position]? = some request ∧
        node = ⟨position, request.operation, request.operands⟩ := by
    intro position node hnode
    simp only [requestNodes, List.getElem?_mapIdx, Option.map_eq_some_iff] at hnode
    obtain ⟨request, hrequest, rfl⟩ := hnode
    exact ⟨request, hrequest, rfl⟩
  refine ⟨fun position node hfound => ?_, fun node hmem => ?_, fun node hmem => ?_⟩
  · obtain ⟨request, -, rfl⟩ := hnode position node hfound
    rfl
  · obtain ⟨position, hposition⟩ := List.getElem?_of_mem hmem
    obtain ⟨request, hrequest, rfl⟩ := hnode position node hposition
    exact h position request hrequest
  · obtain ⟨position, hposition⟩ := List.getElem?_of_mem hmem
    obtain ⟨request, hrequest, rfl⟩ := hnode position node hposition
    exact ⟨request, hresolves request (List.mem_of_getElem? hrequest), rfl, rfl⟩

/-- The builder that always appends has the nodes of the requests, in order. -/
lemma replay_append (h : ReadsEarlier requests) :
    (replay Builder.append requests).1.nodes.toList = requestNodes requests ∧
      (replay Builder.append requests).2 = List.range requests.length := by
  induction requests using List.reverseRecOn with
  | nil => exact ⟨rfl, rfl⟩
  | append_singleton requests request ih =>
    obtain ⟨hnodes, hids⟩ := ih h.init
    have hsize : (replay Builder.append requests).1.nodes.size = requests.length := by
      rw [← Array.length_toList, hnodes, length_requestNodes]
    have hsame : Operand.relabelItems ((List.range requests.length).getD · 0) request.operands =
        request.operands := by
      refine (Operand.relabelItems_congr fun id hid => ?_).trans (Operand.relabelItems_id _)
      simp [List.getD_eq_getElem?_getD, List.getElem?_range (h.last id hid)]
    rw [replay_append_one, hids, hsame, requestNodes_append_one, List.length_append,
      List.length_singleton, List.range_succ]
    simp only [Builder.append, Array.toList_push, hnodes, hsize]
    exact ⟨trivial, trivial⟩

lemma requestGraph_append (h : ReadsEarlier requests)
    (houtput : ∀ id ∈ output.reads, id < requests.length) :
    requestGraph Builder.append requests output = outputGraph (requestNodes requests) output := by
  obtain ⟨hnodes, hids⟩ := replay_append h
  have hsame : output.relabel ((List.range requests.length).getD · 0) = output := by
    refine (Operand.relabel_congr fun id hid => ?_).trans (Operand.relabel_id _)
    simp [List.getD_eq_getElem?_getD, List.getElem?_range (houtput id hid)]
  unfold requestGraph outputGraph Builder.finish
  rw [hids, hsame, ← Array.length_toList, hnodes]

/-- Requests of which each, paired with its position, reads only what is before it. -/
lemma readsEarlier_of_forall
    (h : ∀ entry ∈ requests.zipIdx, ∀ id ∈ Operand.readsItems entry.1.operands, id < entry.2) :
    ReadsEarlier requests := by
  intro position request hrequest
  exact h (request, position) (List.mem_zipIdx_iff_getElem?.2 hrequest)

lemma ReadsEarlier.take (h : ReadsEarlier requests) (count : Nat) :
    ReadsEarlier (requests.take count) := by
  intro position other hother
  rw [List.getElem?_take] at hother
  split at hother
  · exact h position other hother
  · cases hother

lemma length_replay (insert : Builder → Operation → List Operand → Nat × Builder)
    (requests : List NodeRequest) :
    (replay insert requests).2.length = requests.length := by
  induction requests using List.reverseRecOn with
  | nil => rfl
  | append_singleton requests request ih => simp [replay_append_one, ih]

end

end

end GuardedTrace
