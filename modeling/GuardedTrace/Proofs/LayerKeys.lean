/-
The layers of a trace and their keys.

A trace uses a layer in two ways: it calls the layer, or it reads an array from its members.  Each
use records a node that names the layer by its key, and registers the layer under that key; a key
that is taken keeps its layer.  So the table of layers is true to the uses exactly when no two
layers are used under one key.  A member whose name contains a point is looked for under another
key, and needs a condition of its own.

Keys are paths without the scope of their root.  A local and a global layer of one name are two
layers with one key, and the one that is used first stands for both.
-/
import GuardedTrace.Proofs.Growth

namespace GuardedTrace

/-! ### Uses of layers -/

/-- A use of a layer by a trace. -/
structure LayerUse where
  key : String
  layer : Layer
  /-- The name and the value of the member that is read; nothing for a call. -/
  parameter : Option (String × NumArray)

namespace LayerUse

/-- The operation of the node that a use records. -/
def operation (use : LayerUse) : Operation :=
  match use.parameter with
  | none => .callLayer use.key
  | some (name, _) => .parameter (use.key ++ "." ++ name)

/-- The use that calling a value makes. -/
def ofCall? (callee : Symbolic) : Option LayerUse :=
  match callee.kind with
  | .layer key layer => some ⟨key, layer, none⟩
  | _ => none

/-- The use that reading an attribute makes. -/
def ofAttr? (name : String) (holder : Symbolic) : Option LayerUse :=
  match holder.kind with
  | .layer key layer =>
    match layer.member? name with
    | some (.array numbers) => some ⟨key, layer, some (name, numbers)⟩
    | _ => none
  | _ => none

/-- The use that an instruction makes of the values on the stack. -/
def of? (code : Code) (instruction : Instruction) (stack : List Symbolic) : Option LayerUse :=
  match instruction.opcode with
  | .callFunction | .callMethod => (stack[instruction.operand.toNat]?).bind ofCall?
  | .loadAttr | .loadMethod =>
    (code.name? instruction.operand).bind fun name => stack.head?.bind (ofAttr? name)
  | _ => none

end LayerUse

/-- The uses of layers from a state on, in at most `fuel` instructions. -/
def usesFrom (context : TraceContext) : Nat → Tracer → List LayerUse
  | 0, _ => []
  | fuel + 1, state =>
    match context.code.instruction? state.pc with
    | none => []
    | some instruction =>
      (LayerUse.of? context.code instruction state.stack).toList ++
        match TraceM.step context instruction state with
        | .error _ => []
        | .ok (flow, after) =>
          match flow.target? state.pc with
          | none => []
          | some pc => usesFrom context fuel { after with pc }

/-- The uses of layers by the trace of a program. -/
def layerUses (code : Code) (frame : Frame) (config : Config) : List LayerUse :=
  usesFrom ⟨code, frame, config⟩ maxTraceSteps {}

/-- The output is true to a use: it has the node of the use, the layer of the use under the key, and
the value of the member that is read under the name that the node gives it. -/
structure TraceOutput.Serves (output : TraceOutput) (use : LayerUse) : Prop where
  node : ∃ node ∈ output.graph.nodes, node.operation = use.operation
  layer : output.layers.lookup use.key = some use.layer
  parameter : ∀ name numbers, use.parameter = some (name, numbers) →
    output.layers.resolve? (use.key ++ "." ++ name) = some (.array numbers)

/-! ### The table -/

namespace LayerTable

variable {layers : LayerTable} {key other : String} {layer found : Layer}

lemma exists_lookup_register (layers : LayerTable) (key : String) (layer : Layer) :
    ∃ found, (layers.register key layer).lookup key = some found := by
  unfold register Table.putIfNew
  split
  · next h => exact Option.isSome_iff_exists.1 h
  · next h =>
    rw [Option.not_isSome_iff_eq_none] at h
    exact ⟨layer, by simp [List.lookup_append, h]⟩

lemma lookup_register (h : (layers.register key layer).lookup other = some found) :
    layers.lookup other = some found ∨ (other = key ∧ found = layer) := by
  unfold register Table.putIfNew at h
  split at h
  · exact Or.inl h
  · rw [List.lookup_append, Option.or_eq_some_iff] at h
    rcases h with h | ⟨-, h⟩
    · exact Or.inl h
    · by_cases hkey : other = key
      · subst hkey
        simp only [List.lookup_cons, beq_self_eq_true, Option.some.injEq] at h
        exact Or.inr ⟨rfl, h.symm⟩
      · rw [List.lookup_cons, beq_eq_false_iff_ne.2 hkey] at h
        cases h

/-- The table after an instruction that makes a use, or none. -/
def noting (layers : LayerTable) : Option LayerUse → LayerTable
  | none => layers
  | some use => layers.register use.key use.layer

/-- A target is split in front of a name without a point. -/
lemma splitLast_append {key name : String} (hname : '.' ∉ name.toList) :
    splitLast (key ++ "." ++ name) = some (key, name) := by
  have hreverse : (key ++ "." ++ name).toList.reverse =
      name.toList.reverse ++ '.' :: key.toList.reverse := by simp
  have hall : ∀ c ∈ name.toList.reverse, (c != '.') = true := by
    intro c hc
    simp only [bne_iff_ne, ne_eq]
    rintro rfl
    exact hname (List.mem_reverse.1 hc)
  simp only [splitLast, hreverse]
  rw [List.dropWhile_append_of_pos hall, List.takeWhile_append_of_pos hall]
  simp

lemma resolve?_eq_some {layers : LayerTable} {target : String} {value : Value} :
    layers.resolve? target = some value ↔
      ∃ key member layer, splitLast target = some (key, member) ∧
        layers.lookup key = some layer ∧ layer.member? member = some value := by
  simp [resolve?, Option.bind_eq_some_iff]

end LayerTable

/-! ### Steps -/

namespace TraceM

variable {state after : Tracer}

/-- What a part of a trace that makes a use, or none, does to layers and graph. -/
structure Notes (use : Option LayerUse) (state after : Tracer) : Prop where
  layers : after.layers = state.layers.noting use
  node : ∀ made, use = some made →
    ∃ node ∈ after.builder.nodes.toList, node.operation = made.operation

lemma Notes.of_eq (h : after.layers = state.layers) : Notes none state after :=
  ⟨h, fun _ hmade => nomatch hmade⟩

lemma mem_of_record {builder after : Builder} {operation : Operation} {operands : List Operand}
    {id : Nat} (h : builder.record operation operands = (id, after)) :
    ∃ node ∈ after.nodes.toList, node.operation = operation := by
  obtain ⟨node, hnode, hoperation, -⟩ := Builder.exists_of_record h
  exact ⟨node, List.mem_of_getElem? hnode, hoperation⟩

lemma notes_layerAttr {config : Config} {holder value : Symbolic}
    {key name : String} {layer : Layer}
    (hkind : holder.kind = .layer key layer)
    (h : layerAttr config holder key layer name state = .ok (value, after)) :
    Notes (LayerUse.ofAttr? name holder) state after := by
  rcases layerAttr_eq_ok h with ⟨numbers, id, builder, hmember, hrecord, -, rfl⟩ |
    ⟨member, hmember, harray, -, rfl⟩
  · have huse : LayerUse.ofAttr? name holder = some ⟨key, layer, some (name, numbers)⟩ := by
      simp [LayerUse.ofAttr?, hkind, hmember]
    refine huse ▸ ⟨rfl, ?_⟩
    rintro _ ⟨⟩
    exact mem_of_record hrecord
  · have huse : LayerUse.ofAttr? name holder = none := by
      simp only [LayerUse.ofAttr?, hkind, hmember]
      cases member with
      | array numbers => exact absurd rfl (harray numbers)
      | _ => rfl
    exact huse ▸ Notes.of_eq rfl

lemma notes_getAttr {config : Config} {holder value : Symbolic} {name : String}
    (h : getAttr config holder name state = .ok (value, after)) :
    Notes (LayerUse.ofAttr? name holder) state after := by
  by_cases hlayer : ∃ key layer, holder.kind = .layer key layer
  · obtain ⟨key, layer, hkind⟩ := hlayer
    unfold getAttr at h
    rw [hkind] at h
    exact notes_layerAttr hkind h
  · push Not at hlayer
    have huse : LayerUse.ofAttr? name holder = none := by
      unfold LayerUse.ofAttr?
      split
      · next hkind => exact absurd hkind (hlayer _ _)
      · rfl
    exact huse ▸ Notes.of_eq (Computes.getAttr config name hlayer _ _ _ h).layers_eq

lemma notes_callValue {config : Config} {callee value : Symbolic} {args : List Symbolic}
    (h : callValue config callee args state = .ok (value, after)) :
    Notes (LayerUse.ofCall? callee) state after := by
  by_cases hlayer : ∃ key layer, callee.kind = .layer key layer
  · obtain ⟨key, layer, hkind⟩ := hlayer
    have huse : LayerUse.ofCall? callee = some ⟨key, layer, none⟩ := by
      simp [LayerUse.ofCall?, hkind]
    unfold callValue at h
    simp only [hkind] at h
    obtain ⟨-, -, operands, builder, id, builder', -, hrecord, -, rfl⟩ := callLayer_eq_ok h
    refine huse ▸ ⟨rfl, ?_⟩
    rintro _ ⟨⟩
    exact mem_of_record hrecord
  · push Not at hlayer
    have huse : LayerUse.ofCall? callee = none := by
      unfold LayerUse.ofCall?
      split
      · next hkind => exact absurd hkind (hlayer _ _)
      · rfl
    exact huse ▸ Notes.of_eq (Computes.callValue config args hlayer _ _ _ h).layers_eq

lemma carried_sameLayers : Carried fun state after => after.layers = state.layers where
  refl _ := rfl
  trans h h' := h'.trans h
  of_nodes h := h.layers_eq
  of_eq _ _ _ h := h

/-- A step makes the use that its instruction makes of the stack, and no other. -/
lemma notes_step {context : TraceContext} {instruction : Instruction} {flow : Flow}
    (h : step context instruction state = .ok (flow, after)) :
    Notes (LayerUse.of? context.code instruction state.stack) state after := by
  have hsame (hattr : ¬ (instruction.opcode = .loadAttr ∨ instruction.opcode = .loadMethod))
      (hcall : ¬ (instruction.opcode = .callFunction ∨ instruction.opcode = .callMethod)) :
      after.layers = state.layers :=
    Leads.step carried_sameLayers context instruction (fun hop => absurd hop hattr)
      (fun hop => absurd hop hcall) _ _ _ h
  cases hop : instruction.opcode with
  | loadAttr | loadMethod =>
    simp only [step, hop] at h
    simp only [pushing_eq_ok, bind_eq_ok, ofOption_eq_ok, pop_eq_ok] at h
    obtain ⟨-, value, middle,
        ⟨name, _, ⟨hname, rfl⟩, holder, _, ⟨rest, hstack, rfl⟩, hattr⟩, rfl⟩ := h
    have hnotes := notes_getAttr hattr
    simpa [LayerUse.of?, hop, hname, hstack] using ⟨hnotes.layers, hnotes.node⟩
  | callFunction | callMethod =>
    simp only [step, hop] at h
    simp only [pushing_eq_ok, bind_eq_ok, popMany_eq_ok, pop_eq_ok] at h
    obtain ⟨-, value, middle,
        ⟨args, _, ⟨below, hstack, hcount, rfl⟩, callee, _, ⟨rest, hbelow, rfl⟩, hcall⟩, rfl⟩ := h
    have hnotes := notes_callValue hcall
    have hcallee : state.stack[instruction.operand.toNat]? = some callee := by
      simp only at hbelow
      rw [hstack, hbelow, ← hcount, List.getElem?_append_right (by simp)]
      simp
    simpa [LayerUse.of?, hop, hcallee] using ⟨hnotes.layers, hnotes.node⟩
  | _ =>
    have huse : LayerUse.of? context.code instruction state.stack = none := by
      simp [LayerUse.of?, hop]
    exact huse ▸ Notes.of_eq (hsame (by simp [hop]) (by simp [hop]))

end TraceM

/-! ### Runs -/

section

variable {context : TraceContext} {fuel : Nat} {state last : Tracer} {output : TraceOutput}

lemma usesFrom_of_step {instruction : Instruction} {flow : Flow} {after : Tracer}
    (hinstruction : context.code.instruction? state.pc = some instruction)
    (hstep : TraceM.step context instruction state = .ok (flow, after)) :
    usesFrom context (fuel + 1) state =
      (LayerUse.of? context.code instruction state.stack).toList ++
        match flow.target? state.pc with
        | none => []
        | some pc => usesFrom context fuel { after with pc } := by
  rw [usesFrom]
  simp only [hinstruction, hstep]

/-- Every use has its node, and some layer under its key. -/
lemma exists_of_mem_usesFrom (h : traceFrom context fuel state = (.ok output, last))
    {use : LayerUse}
    (huse : use ∈ usesFrom context fuel state) :
    (∃ node ∈ last.builder.nodes.toList, node.operation = use.operation) ∧
      ∃ found, last.layers.lookup use.key = some found := by
  induction fuel generalizing state with
  | zero => simp [traceFrom] at h
  | succ fuel ih =>
    obtain ⟨instruction, flow, after, hinstruction, hstep, hflow⟩ := traceFrom_cases h
    rw [usesFrom_of_step hinstruction hstep, List.mem_append] at huse
    rcases huse with huse | huse
    · -- the use is made now, and what it records stays
      have hextends : after.Extends last := by
        rcases hflow with ⟨pc, -, hrest⟩ | ⟨operand, -, -, rfl⟩
        · exact (Tracer.Extends.of_pc after pc).trans (traceFrom_extends hrest).1
        · exact .refl _
      obtain ⟨hlayers, hnode⟩ := TraceM.notes_step hstep
      rw [Option.mem_toList] at huse
      obtain ⟨node, hmem, hoperation⟩ := hnode use huse
      obtain ⟨found, hfound⟩ :=
        LayerTable.exists_lookup_register state.layers use.key use.layer
      rw [huse, LayerTable.noting] at hlayers
      exact ⟨⟨node, hextends.nodes.subset hmem, hoperation⟩, found,
        hextends.layers _ _ (hlayers ▸ hfound)⟩
    · rcases hflow with ⟨pc, hpc, hrest⟩ | ⟨operand, rfl, -, -⟩
      · simp only [hpc] at huse
        exact ih hrest huse
      · simp [Flow.target?] at huse

/-- A layer is in the table because it was there, or because it is used. -/
lemma exists_use_of_lookup (h : traceFrom context fuel state = (.ok output, last)) {key : String}
    {layer : Layer} (hlayer : last.layers.lookup key = some layer) :
    state.layers.lookup key = some layer ∨
      ∃ use ∈ usesFrom context fuel state, use.key = key ∧ use.layer = layer := by
  induction fuel generalizing state with
  | zero => simp [traceFrom] at h
  | succ fuel ih =>
    obtain ⟨instruction, flow, after, hinstruction, hstep, hflow⟩ := traceFrom_cases h
    rw [usesFrom_of_step hinstruction hstep]
    have hafter : after.layers.lookup key = some layer ∨
        ∃ pc, flow.target? state.pc = some pc ∧
          ∃ use ∈ usesFrom context fuel { after with pc }, use.key = key ∧ use.layer = layer := by
      rcases hflow with ⟨pc, hpc, hrest⟩ | ⟨operand, -, -, rfl⟩
      · exact (ih hrest).imp id fun huse => ⟨pc, hpc, huse⟩
      · exact Or.inl hlayer
    rcases hafter with hafter | ⟨pc, hpc, use, huse, hsame⟩
    · rw [(TraceM.notes_step hstep).layers] at hafter
      cases huse : LayerUse.of? context.code instruction state.stack with
      | none =>
        rw [huse] at hafter
        exact Or.inl hafter
      | some use =>
        rw [huse] at hafter
        rcases LayerTable.lookup_register hafter with hold | ⟨rfl, rfl⟩
        · exact Or.inl hold
        · exact Or.inr ⟨use, by simp, rfl, rfl⟩
    · exact Or.inr ⟨use, by simp [hpc, huse], hsame⟩

end

/-! ### Faithful tables -/

/-- Keys tell the used layers apart. -/
structure KeysClear (uses : List LayerUse) : Prop where
  /-- No two layers are used under one key. -/
  layer_eq : ∀ use ∈ uses, ∀ other ∈ uses, use.key = other.key → use.layer = other.layer
  /-- A member whose name contains a point is also a member of a layer that is used under the longer
  key, under the last part of its name. -/
  dotted : ∀ use ∈ uses, ∀ name numbers, use.parameter = some (name, numbers) → '.' ∈ name.toList →
    ∃ other ∈ uses, ∃ member, LayerTable.splitLast (use.key ++ "." ++ name) =
      some (other.key, member) ∧
      other.layer.member? member = some (.array numbers)

/-- A member that is read is the array that the use names. -/
lemma LayerUse.member?_eq {code : Code} {instruction : Instruction} {stack : List Symbolic}
    {use : LayerUse} (h : of? code instruction stack = some use) {name : String}
    {numbers : NumArray} (hparameter : use.parameter = some (name, numbers)) :
    use.layer.member? name = some (.array numbers) := by
  have hcall {callee : Symbolic} (h : ofCall? callee = some use) :
      use.layer.member? name = some (.array numbers) := by
    unfold ofCall? at h
    split at h
    · cases h
      cases hparameter
    · cases h
  have hattr {asked : String} {holder : Symbolic} (h : ofAttr? asked holder = some use) :
      use.layer.member? name = some (.array numbers) := by
    unfold ofAttr? at h
    split at h
    · split at h
      · next hmember =>
        cases h
        cases hparameter
        exact hmember
      · cases h
    · cases h
  unfold of? at h
  split at h
  · obtain ⟨callee, -, h⟩ := Option.bind_eq_some_iff.1 h
    exact hcall h
  · obtain ⟨callee, -, h⟩ := Option.bind_eq_some_iff.1 h
    exact hcall h
  · obtain ⟨asked, -, h⟩ := Option.bind_eq_some_iff.1 h
    obtain ⟨holder, -, h⟩ := Option.bind_eq_some_iff.1 h
    exact hattr h
  · obtain ⟨asked, -, h⟩ := Option.bind_eq_some_iff.1 h
    obtain ⟨holder, -, h⟩ := Option.bind_eq_some_iff.1 h
    exact hattr h
  · cases h

lemma member?_of_mem_usesFrom {context : TraceContext} {fuel : Nat}
    {state : Tracer} {use : LayerUse}
    (huse : use ∈ usesFrom context fuel state) {name : String} {numbers : NumArray}
    (hparameter : use.parameter = some (name, numbers)) :
    use.layer.member? name = some (.array numbers) := by
  induction fuel generalizing state with
  | zero => simp [usesFrom] at huse
  | succ fuel ih =>
    rw [usesFrom] at huse
    split at huse
    · cases huse
    · rcases List.mem_append.1 huse with huse | huse
      · exact LayerUse.member?_eq (Option.mem_toList.1 huse) hparameter
      · split at huse
        · cases huse
        · split at huse
          · cases huse
          · exact ih huse

/-- Whatever layer a completed trace has under a key is the layer of a use under the key. -/
lemma exists_use_of_layer {code : Code} {frame : Frame} {config : Config} {output : TraceOutput}
    {last : Tracer}
    (hfrom : traceFrom ⟨code, frame, config⟩ maxTraceSteps {} = (.ok output, last))
    {key : String} {layer : Layer} (hlayer : last.layers.lookup key = some layer) :
    ∃ use ∈ layerUses code frame config, use.key = key ∧ use.layer = layer :=
  (exists_use_of_lookup hfrom hlayer).resolve_left nofun

/-- Where keys tell the used layers apart, the table of layers is true to the trace. -/
lemma serves_of_keysClear {code : Code} {frame : Frame} {config : Config} {output : TraceOutput}
    (htrace : trace code frame config = .ok output)
    (hclear : KeysClear (layerUses code frame config)) :
    ∀ use ∈ layerUses code frame config, output.Serves use := by
  obtain ⟨last, hfrom⟩ := exists_traceFrom htrace
  obtain ⟨-, operand, rfl⟩ := traceFrom_extends hfrom
  intro use huse
  -- whatever layer stands under the key of a use is the layer of the use
  have hlookup : ∀ use ∈ layerUses code frame config,
      last.layers.lookup use.key = some use.layer := by
    intro use huse
    obtain ⟨-, found, hfound⟩ := exists_of_mem_usesFrom hfrom huse
    obtain ⟨other, hother, hkey, hlayer⟩ := exists_use_of_layer hfrom hfound
    rw [hfound, ← hlayer, hclear.layer_eq other hother use huse hkey]
  obtain ⟨⟨node, hnode, hoperation⟩, -⟩ := exists_of_mem_usesFrom hfrom huse
  refine ⟨⟨node, ?_, hoperation⟩, hlookup use huse, ?_⟩
  · exact List.mem_append_left _ hnode
  · intro name numbers hparameter
    refine LayerTable.resolve?_eq_some.2 ?_
    by_cases hpoint : '.' ∈ name.toList
    · obtain ⟨other, hother, member, hsplit, hmember⟩ :=
        hclear.dotted use huse name numbers hparameter hpoint
      exact ⟨other.key, member, other.layer, hsplit, hlookup other hother, hmember⟩
    · exact ⟨use.key, name, use.layer, LayerTable.splitLast_append hpoint, hlookup use huse,
        member?_of_mem_usesFrom huse hparameter⟩

/-- **When the table of layers is true to the trace.**  The output of a completed trace has every
layer that the trace uses under the key of the use, and every array that it reads from a layer under
the name that the graph gives it, exactly when keys tell the used layers apart. -/
theorem layers_faithful_iff {code : Code} {frame : Frame} {config : Config} {output : TraceOutput}
    (htrace : trace code frame config = .ok output) :
    (∀ use ∈ layerUses code frame config, output.Serves use) ↔
      KeysClear (layerUses code frame config) := by
  refine ⟨fun hserves => ?_, serves_of_keysClear htrace⟩
  obtain ⟨last, hfrom⟩ := exists_traceFrom htrace
  obtain ⟨-, operand, rfl⟩ := traceFrom_extends hfrom
  refine ⟨?_, ?_⟩
  · intro use huse other hother hkey
    have h := (hserves use huse).layer
    rw [hkey, (hserves other hother).layer] at h
    exact (Option.some.inj h).symm
  · intro use huse name numbers hparameter _
    obtain ⟨key, member, layer, hsplit, hlayer, hmember⟩ :=
      LayerTable.resolve?_eq_some.1 ((hserves use huse).parameter name numbers hparameter)
    obtain ⟨other, hother, rfl, rfl⟩ := exists_use_of_layer hfrom hlayer
    exact ⟨other, hother, member, hsplit, hmember⟩

/-- `m(x)` for the local `m`, then `m(x)` for the global `m`, which is returned. -/
def namesakes : Code :=
  { id := 0, name := "namesakes", argCount := 2, varNames := ["m", "x"], names := ["m"]
    constants := []
    instructions := [⟨.loadFast, 0⟩, ⟨.loadFast, 1⟩, ⟨.callFunction, 1⟩, ⟨.popTop, 0⟩,
      ⟨.loadGlobal, 0⟩, ⟨.loadFast, 1⟩, ⟨.callFunction, 1⟩, ⟨.returnValue, 0⟩] }

/-- A local layer `m` that negates, an array, and a global `m`. -/
def namesakesFrame (namesake : Value) : Frame :=
  { locals := [("m", .layer ⟨.declared 1, "Neg", .leaf .neg, []⟩),
      ("x", .array (.contiguous .float64 .cpu [1] [⟨0⟩]))]
    globals := [("m", namesake)] }

/-- With a primitive as the global `m` there is one layer, and the table is true to it. -/
theorem servesAll_namesakes : ∃ output,
    trace namesakes (namesakesFrame (.primitive .abs)) {} = .ok output ∧
      ∀ use ∈ layerUses namesakes (namesakesFrame (.primitive .abs)) {}, output.Serves use := by
  have huses : ((layerUses namesakes (namesakesFrame (.primitive .abs)) {}).map
      fun use => use.parameter.isNone) = [true] := by decide +kernel
  have hok : (trace namesakes (namesakesFrame (.primitive .abs)) {}).isOk = true := by
    decide +kernel
  cases htrace : trace namesakes (namesakesFrame (.primitive .abs)) {} with
  | error stop => simp [htrace, Except.isOk, Except.toBool] at hok
  | ok output =>
    refine ⟨output, rfl, (layers_faithful_iff htrace).2 ?_⟩
    obtain ⟨use, huse⟩ := List.length_eq_one_iff.1 (by simpa using congrArg List.length huses)
    rw [huse] at huses ⊢
    simp only [List.map_cons, List.map_nil, List.cons.injEq, Option.isNone_iff_eq_none, and_true]
      at huses
    exact ⟨by simp, by simp [huses]⟩

/-- Two layers of one name: the table has the local one under the key, and the call of the global
one is a call of the local one. -/
theorem not_servesAll_namesakes : ∃ output,
    trace namesakes (namesakesFrame (.layer ⟨.declared 2, "Abs", .leaf .abs, []⟩)) {} = .ok output ∧
      ¬ ∀ use ∈ layerUses namesakes
        (namesakesFrame (.layer ⟨.declared 2, "Abs", .leaf .abs, []⟩)) {}, output.Serves use := by
  have huses : ((layerUses namesakes
      (namesakesFrame (.layer ⟨.declared 2, "Abs", .leaf .abs, []⟩)) {}).map
      fun use => (use.key, use.layer.id)) = [("m", .declared 1), ("m", .declared 2)] := by
    decide +kernel
  have hlayers : ((trace namesakes
      (namesakesFrame (.layer ⟨.declared 2, "Abs", .leaf .abs, []⟩)) {}).toOption.map
      fun output => (output.layers.lookup "m").map Layer.id) = some (some (.declared 1)) := by
    decide +kernel
  cases htrace : trace namesakes
    (namesakesFrame (.layer ⟨.declared 2, "Abs", .leaf .abs, []⟩)) {} with
  | error stop => simp [htrace, Except.toOption] at hlayers
  | ok output =>
    refine ⟨output, rfl, fun hserves => ?_⟩
    obtain ⟨use, huse, hsecond⟩ : ∃ use ∈ layerUses namesakes
        (namesakesFrame (.layer ⟨.declared 2, "Abs", .leaf .abs, []⟩)) {},
        (use.key, use.layer.id) = ("m", .declared 2) := by
      rw [← List.mem_map, huses]
      simp
    obtain ⟨hkey, hid⟩ := Prod.mk.inj hsecond
    have hlayer := (hserves use huse).layer
    simp only [htrace, Except.toOption, Option.map_some, Option.some.injEq, ← hkey, hlayer, hid]
      at hlayers
    cases hlayers

end GuardedTrace
