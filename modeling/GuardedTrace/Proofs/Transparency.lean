/-
Artifacts answer as the programs do.

A gate may answer a call with an artifact that was traced on another frame.  On plain frames the
guards of an artifact determine the trace, so an artifact whose guards hold is the one that a trace
of this very call would give; and what the artifact of a trace answers is what a direct run returns.
The cache needs one invariant only: what it has for a program was traced from that program.
-/
import GuardedTrace.Proofs.Artifacts
import GuardedTrace.Proofs.TwoRuns

namespace GuardedTrace

/-- A call of a program that reads no attributes on a frame of plain values. -/
structure Call.Plain (call : Call) : Prop where
  varNames : ∀ name ∈ call.code.varNames, Text.isIdentifier name.toList = true
  names : ∀ name ∈ call.code.names, Text.isIdentifier name.toList = true
  attrs : ∀ instruction ∈ call.code.instructions, instruction.opcode ≠ .loadAttr ∧
    instruction.opcode ≠ .loadMethod
  frame : call.frame.Plain

/-- The artifact that a call gives when it is traced now. -/
def Call.Yields (config : Config) (limit : Nat) (call : Call) (artifact : Artifact) : Prop :=
  ∃ output execute, trace call.code call.frame config = .ok output ∧
    evaluator limit output.graph output.layers = .ok execute ∧ artifact = output.artifact execute

section

variable {config : Config} {limit : Nat} {call : Call} {artifact : Artifact}

/-- An artifact whose guards hold is the one that a trace of the call would give. -/
lemma Call.Yields.of_guards {frame : Frame} (h : Yields config limit ⟨call.code, frame⟩ artifact)
    (hframe : frame.Plain) (hcall : call.Plain)
    (hguards : ∀ guard ∈ artifact.guards, guard.Holds call.frame) :
    call.Yields config limit artifact := by
  obtain ⟨output, execute, htrace, hcompile, rfl⟩ := h
  obtain ⟨last, hfrom⟩ := exists_traceFrom htrace
  have hcomparable : TraceM.Comparable ⟨call.code, frame, config⟩ ⟨call.code, call.frame, config⟩ :=
    ⟨rfl, rfl, hcall.varNames, hcall.names, hframe.regular, hcall.frame.regular,
      hframe.coherent hcall.frame⟩
  refine ⟨output, execute, ?_, hcompile, rfl⟩
  exact traceFrom_follows hcomparable rfl hfrom
    fun guard hguard => ⟨hguards guard hguard, fun _ _ => hframe.sameKind hcall.frame _ _⟩

/-- The artifact of a call answers what a direct run returns. -/
lemma Call.Yields.eq_of_run (h : call.Yields config limit artifact) (hcall : call.Plain)
    {answer value : Value} (hanswer : artifact.run call.frame = .ok answer) {fuel : Nat}
    (hrun : call.code.run fuel call.frame = some (.ok value)) : answer = value := by
  obtain ⟨output, execute, htrace, hcompile, rfl⟩ := h
  have hattrs : ∀ instruction ∈ call.code.instructions,
      instruction.opcode.readsAttr = true → False := by
    intro instruction hinstruction hreads
    obtain ⟨hattr, hmethod⟩ := hcall.attrs instruction hinstruction
    cases hop : instruction.opcode <;> simp_all [Opcode.readsAttr]
  -- without attributes a trace infers nothing that could be wrong
  obtain ⟨hfalse, -⟩ | ⟨outcome, houtcome, hfollows⟩ := run_follows_answer False hcall.varNames
    hcall.names hattrs hcall.frame.orderly False.elim (Or.inr hcall.frame)
      htrace False.elim False.elim
    hcompile hanswer
  · exact hfalse.elim
  obtain rfl := Code.run_unique houtcome hrun
  rcases hfollows with ⟨error, herror, -⟩ | hvalue
  · cases herror
  · exact (Except.ok.inj hvalue).symm

end

namespace Gate

/-- What is cached for the programs of the calls was traced from them, on plain frames. -/
structure Sound (config : Config) (limit : Nat) (calls : List Call) (gate : Gate) : Prop where
  settings : gate.config = config
  compiler : gate.backend = some (evaluator limit)
  cache : ∀ call ∈ calls, ∀ artifact ∈ gate.cache.artifacts call.code.id,
    ∃ frame, frame.Plain ∧ Call.Yields config limit ⟨call.code, frame⟩ artifact

section

variable {config : Config} {limit : Nat} {calls : List Call} {gate after : Gate} {call : Call}
  {decision : Decision}

/-- A decision about a plain call keeps the cache sound. -/
lemma Sound.decide (hids : ∀ a ∈ calls, ∀ b ∈ calls, a.code.id = b.code.id → a.code = b.code)
    (hcall : call ∈ calls) (hplain : call.Plain) (hsound : gate.Sound config limit calls)
    (h : Decided gate call decision after) : after.Sound config limit calls := by
  obtain ⟨hconfig, hbackend⟩ := h.settings
  refine ⟨hconfig.trans hsound.settings, hbackend.trans hsound.compiler,
    fun other hother artifact hartifact => ?_⟩
  cases h with
  | kept _ hmemory | hit _ _ _ hmemory | refused _ _ _ hmemory =>
    have hcache : after.cache = gate.cache := congrArg Memory.cache hmemory
    exact hsound.cache other hother artifact (hcache ▸ hartifact)
  | full _ hmemory =>
    have hcache : after.cache = gate.cache.erase call.code.id := congrArg Memory.cache hmemory
    rw [hcache, Cache.artifacts_erase] at hartifact
    split at hartifact
    · cases hartifact
    · exact hsound.cache other hother artifact hartifact
  | @compiled backend output execute _ _ _ hsome htrace hcompile _ hmemory =>
    have hcache : after.cache = (gate.cache.append call.code.id (output.artifact execute)).2 :=
      congrArg Memory.cache hmemory
    rw [hcache] at hartifact
    rcases Cache.append_cases gate.cache call.code.id (output.artifact execute) with
        ⟨hsame, -⟩ | hnew
    · exact hsound.cache other hother artifact (hsame ▸ hartifact)
    rw [hnew] at hartifact
    split at hartifact
    · next hid =>
      rcases List.mem_append.1 hartifact with hold | hartifact
      · exact hsound.cache other hother artifact (hid ▸ hold)
      · obtain rfl := List.mem_singleton.1 hartifact
        obtain rfl : backend = evaluator limit := Option.some.inj (hsome.symm.trans hsound.compiler)
        refine ⟨call.frame, hplain.frame, ?_⟩
        rw [hids other hother call hcall hid]
        exact ⟨output, execute, hsound.settings ▸ htrace, hcompile, rfl⟩
    · exact hsound.cache other hother artifact hartifact

/-- What serves a call is the artifact that a trace of the call would give. -/
lemma Sound.yields (hcall : call ∈ calls) (hplain : call.Plain)
    (hsound : gate.Sound config limit calls)
    {outcome : Outcome} (h : Decided gate call (.served outcome) after) :
    ∃ artifact, call.Yields config limit artifact ∧
      artifact.run call.frame = .ok outcome.value := by
  cases h with
  | kept hdecision | full hdecision | refused hdecision => cases hdecision
  | @hit artifact hartifact hguards hanswers =>
    obtain ⟨frame, hframe, hyields⟩ := hsound.cache call hcall artifact hartifact
    exact ⟨artifact, hyields.of_guards hframe hplain hguards, hanswers outcome rfl⟩
  | @compiled backend output execute _ _ _ hsome htrace hcompile hanswers =>
    obtain rfl : backend = evaluator limit := Option.some.inj (hsome.symm.trans hsound.compiler)
    exact ⟨output.artifact execute, ⟨output, execute, hsound.settings ▸ htrace, hcompile, rfl⟩,
      hanswers outcome rfl⟩

end

/-- Makes calls one after the other; nothing when a direct run uses up its fuel. -/
def callAll (fuel : Nat) : Gate → List Call → Option (List (Run Outcome) × Gate)
  | gate, [] => some ([], gate)
  | gate, call :: rest => do
    let (outcome, after) ← gate.callThrough fuel call.code call.frame
    let (outcomes, last) ← callAll fuel after rest
    return (outcome :: outcomes, last)

/-- A call through a gate changes it by its decision only, and an answer that is no fallback is the
decision's. -/
lemma callThrough_eq_some {fuel : Nat} {gate after : Gate} {call : Call} {outcome : Run Outcome}
    (h : gate.callThrough fuel call.code call.frame = some (outcome, after)) :
    ∃ decision, Decided gate call decision after ∧ ∀ answer, outcome = .ok answer →
      answer.path.isFallback = false → decision = .served answer := by
  unfold callThrough at h
  split at h
  · next served decided hdecide =>
    cases h
    exact ⟨_, decided hdecide, by rintro _ ⟨⟩ _; rfl⟩
  · next reason decided hdecide =>
    obtain ⟨result, -, hresult⟩ := Option.map_eq_some_iff.1 h
    cases result with
    | error error =>
      cases hresult
      exact ⟨_, decided hdecide, nofun⟩
    | ok value =>
      cases hresult
      exact ⟨_, decided hdecide, by rintro _ ⟨⟩ ⟨⟩⟩

/-- The answer to a call, if an artifact gives it, is what a direct run returns, if it returns. -/
def Transparent (call : Call) (outcome : Run Outcome) : Prop :=
  ∀ answer, outcome = .ok answer → answer.path.isFallback = false →
    ∀ fuel value, call.code.run fuel call.frame = some (.ok value) → answer.value = value

lemma Sound.transparent {config : Config} {limit fuel : Nat} {calls : List Call}
    (hcalls : ∀ call ∈ calls, call.Plain)
    (hids : ∀ a ∈ calls, ∀ b ∈ calls, a.code.id = b.code.id → a.code = b.code)
    {made : List Call} (hmade : ∀ call ∈ made, call ∈ calls) {gate last : Gate}
    (hsound : gate.Sound config limit calls) {outcomes : List (Run Outcome)}
    (h : gate.callAll fuel made = some (outcomes, last)) :
    List.Forall₂ Transparent made outcomes := by
  induction made generalizing gate outcomes with
  | nil =>
    cases h
    exact .nil
  | cons call rest ih =>
    simp only [callAll, Option.bind_eq_bind, Option.bind_eq_some_iff] at h
    obtain ⟨⟨outcome, after⟩, hcall, ⟨others, last'⟩, hrest, heq⟩ := h
    cases heq
    obtain ⟨hmem, hmem'⟩ := List.forall_mem_cons.1 hmade
    obtain ⟨decision, hdecided, hserved⟩ := callThrough_eq_some hcall
    refine .cons ?_ (ih hmem' (hsound.decide hids hmem (hcalls call hmem) hdecided) hrest)
    intro answer hanswer hpath fuel' value hrun
    obtain rfl := hserved answer hanswer hpath
    obtain ⟨artifact, hyields, hrun'⟩ := hsound.yields hmem (hcalls call hmem) hdecided
    exact hyields.eq_of_run (hcalls call hmem) hrun' hrun

/-- **A gate is transparent.**  Whatever plain calls were made before, an answer that an artifact
gives to a call is the value that a direct run of the call returns. -/
theorem callAll_transparent {config : Config} {limit fuel : Nat} {calls : List Call}
    (hcalls : ∀ call ∈ calls, call.Plain)
    (hids : ∀ a ∈ calls, ∀ b ∈ calls, a.code.id = b.code.id → a.code = b.code)
    {outcomes : List (Run Outcome)} {last : Gate}
    (h : callAll fuel { config, backend := some (evaluator limit) } calls = some (outcomes, last)) :
    List.Forall₂ Transparent calls outcomes := by
  have hsound : Sound config limit calls { config, backend := some (evaluator limit) } :=
    ⟨rfl, rfl, fun _ _ _ hartifact => nomatch hartifact⟩
  exact hsound.transparent hcalls hids (fun _ => id) h

/-- Two calls of one program on lists with different arrays. -/
def itemSumCalls : List Call := [⟨itemSum, itemSumFrame ⟨0⟩⟩, ⟨itemSum, itemSumFrame ⟨1⟩⟩]

lemma plain_itemSumCalls : ∀ call ∈ itemSumCalls, call.Plain := by
  have hvarNames : ∀ name ∈ itemSum.varNames, Text.isIdentifier name.toList = true := by decide
  have hattrs : ∀ instruction ∈ itemSum.instructions,
      instruction.opcode ≠ .loadAttr ∧ instruction.opcode ≠ .loadMethod := by decide
  have hplain (element : Double) : Call.Plain ⟨itemSum, itemSumFrame element⟩ :=
    ⟨hvarNames, nofun, hattrs, plain_itemSumFrame element⟩
  simp [itemSumCalls, hplain]

/-- The artifact of the first call answers the second one, with the value of a direct run. -/
theorem callAll_itemSumCalls : ∃ first second last,
    callAll 20 { backend := some (evaluator 100) } itemSumCalls =
      some ([.ok first, .ok second], last) ∧
      first.path = .fresh 0 ∧ second.path = .cached 0 ∧
      itemSum.run 20 (itemSumFrame ⟨1⟩) = some (.ok second.value) := by
  have hpaths : ((callAll 20 { backend := some (evaluator 100) } itemSumCalls).map fun result =>
      result.1.map fun outcome => outcome.toOption.map Outcome.path) =
      some [some (.fresh 0), some (.cached 0)] := by decide +kernel
  have hreturns : ((itemSum.run 20 (itemSumFrame ⟨1⟩)).map Except.isOk) = some true := by
    decide +kernel
  obtain ⟨⟨outcomes, last⟩, hall, hpaths⟩ := Option.map_eq_some_iff.1 hpaths
  have htransparent := callAll_transparent plain_itemSumCalls (by simp [itemSumCalls]) hall
  obtain ⟨result, hrun, hok⟩ := Option.map_eq_some_iff.1 hreturns
  rcases outcomes with _ | ⟨_ | first, _ | ⟨_ | second, _ | ⟨third, rest⟩⟩⟩ <;>
    simp only [List.map_cons, List.map_nil, Except.toOption, Option.map_some, Option.map_none,
      List.cons.injEq, Option.some.injEq, reduceCtorEq, and_false, false_and, and_true] at hpaths
  obtain ⟨hfirst, hsecond⟩ := hpaths
  cases result with
  | error error => cases hok
  | ok value =>
    have hlast := (List.forall₂_cons.1 (List.forall₂_cons.1 htransparent).2).1
    have hvalue := hlast second rfl (by rw [hsecond]; rfl) 20 value hrun
    exact ⟨first, second, last, hall, hfirst, hsecond, hvalue ▸ hrun⟩

end Gate

end GuardedTrace
