/-
Sequences of calls through a gate.

All that a gate does at a call is decided before the program runs directly, if it does.  The
settings, the compiler, the cache, the programs that are retired and the number of traces are the
*memory* of the gate; `Gate.decided` says once what a decision can do to it.  A program that runs
directly may make calls of its own.  A *history* lists all calls in the order in which they are
decided, the inner ones behind the call that makes them, so that the gate after a history is the
gate after its decisions.
-/
import GuardedTrace.Gate.Basic
import GuardedTrace.Proofs.Results

namespace GuardedTrace

/-- A call of a program on the bindings of a frame. -/
structure Call where
  code : Code
  frame : Frame

/-- The artifact of a completed trace. -/
def TraceOutput.artifact (output : TraceOutput) (execute : Executable) : Artifact :=
  { guards := output.guards
    inputs := output.inputs
    graph := output.graph
    layers := output.layers
    execute }

/-- The decision serves a call by the artifact, if it serves the call at all. -/
def Artifact.Answers (artifact : Artifact) (frame : Frame) (decision : Decision) : Prop :=
  ∀ outcome, decision = .served outcome → artifact.run frame = .ok outcome.value

/-! ### Looking artifacts up -/

section

variable {frame : Frame} {artifacts : List Artifact} {artifact : Artifact} {position found : Nat}
  {rejected : List Guard}

lemma firstMatch_eq_some (h : firstMatch frame position artifacts =
    (some (found, artifact), rejected)) :
    artifact ∈ artifacts ∧ ∀ guard ∈ artifact.guards, guard.Holds frame := by
  induction artifacts generalizing position rejected with
  | nil => simp [firstMatch] at h
  | cons first rest ih =>
    rw [firstMatch] at h
    split at h
    · next hfirst =>
      cases h
      exact ⟨List.mem_cons_self .., GuardSet.failure?_eq_none_iff.1 hfirst⟩
    · obtain ⟨hmem, hguards⟩ := ih (Prod.ext (Prod.mk.inj h).1 rfl)
      exact ⟨List.mem_cons_of_mem _ hmem, hguards⟩

lemma firstMatch_eq_none (h : firstMatch frame position artifacts = (none, rejected)) :
    ∀ artifact ∈ artifacts, ¬ ∀ guard ∈ artifact.guards, guard.Holds frame := by
  induction artifacts generalizing position rejected with
  | nil => simp
  | cons first rest ih =>
    rw [firstMatch] at h
    split at h
    · cases h
    · next failure hfirst =>
      refine List.forall_mem_cons.2 ⟨fun hguards => ?_, ih (Prod.ext (Prod.mk.inj h).1 rfl)⟩
      rw [GuardSet.failure?_eq_none_iff.2 hguards] at hfirst
      cases hfirst

lemma length_of_firstMatch_eq_none (h : firstMatch frame position artifacts = (none, rejected)) :
    rejected.length = artifacts.length := by
  induction artifacts generalizing position rejected with
  | nil =>
    cases h
    rfl
  | cons first rest ih =>
    rw [firstMatch] at h
    split at h
    · cases h
    · obtain ⟨hfound, rfl⟩ := Prod.mk.inj h
      rw [List.length_cons, List.length_cons, ih (Prod.ext hfound rfl)]

end

/-! ### The cache -/

lemma Table.lookup_erase {κ α : Type} [BEq κ] [LawfulBEq κ] [DecidableEq κ] (table : Table κ α)
    (key other : κ) : (table.erase key).lookup other = if other =
      key then none else table.lookup other := by
  induction table with
  | nil => simp [Table.erase]
  | cons entry rest ih =>
    obtain ⟨found, value⟩ := entry
    unfold Table.erase at ih ⊢
    by_cases hfound : found = key
    · subst hfound
      rw [List.filter_cons_of_neg (by simp), ih, List.lookup_cons]
      split
      · rfl
      · next hother => rw [beq_eq_false_iff_ne.2 hother]
    · rw [List.filter_cons_of_pos (by simpa using hfound), List.lookup_cons, List.lookup_cons, ih]
      split
      · next hother => rw [if_neg (by rintro rfl; exact hfound (eq_of_beq hother).symm)]
      · rfl

namespace Cache

variable {cache : Cache} {code other : Nat} {artifact : Artifact}

lemma artifacts_erase :
    artifacts (cache.erase code) other = if other = code then [] else cache.artifacts other := by
  unfold artifacts
  rw [Table.lookup_erase]
  split <;> rfl

/-- An artifact is either there already, or it is the new last one. -/
lemma append_cases (cache : Cache) (code : Nat) (artifact : Artifact) :
    ((cache.append code artifact).2 = cache ∧
      ∃ old ∈ cache.artifacts code, old.isEquivalent artifact) ∨
      ∀ other, (cache.append code artifact).2.artifacts other =
        if other = code then cache.artifacts code ++ [artifact] else cache.artifacts other := by
  unfold append
  cases hfound : (cache.artifacts code).findIdx? (·.isEquivalent artifact) with
  | some position =>
    obtain ⟨hposition, hequivalent, -⟩ := List.findIdx?_eq_some_iff_getElem.1 hfound
    refine Or.inl ⟨?_, _, List.getElem_mem hposition, hequivalent⟩
    simp only [hfound]
  | none =>
    refine Or.inr fun other => ?_
    simp only [hfound]
    by_cases h : other = code
    · subst h
      rw [artifacts, Table.lookup_put_self, if_pos rfl]
      rfl
    · rw [artifacts, Table.lookup_put_of_ne _ _ h, if_neg h, artifacts]

end Cache

namespace Gate

/-! ### One decision -/

/-- What later traces depend on. -/
structure Memory where
  config : Config
  backend : Option Backend
  cache : Cache
  retired : List Nat
  /-- The number of traces so far. -/
  traces : Nat

def memory (gate : Gate) : Memory :=
  ⟨gate.config, gate.backend, gate.cache, gate.retired, gate.metrics.traceAttempts⟩

/-- What a decision about a call can do. -/
inductive Decided (gate : Gate) (call : Call) (decision : Decision) (after : Gate) : Prop where
  /-- The call runs directly without a trace, and nothing is forgotten. -/
  | kept {reason : FallbackReason} (hdecision : decision = .direct reason)
    (hmemory : after.memory = gate.memory)
  /-- A cached artifact fits. -/
  | hit {artifact : Artifact} (hartifact : artifact ∈ gate.cache.artifacts call.code.id)
    (hguards : ∀ guard ∈ artifact.guards, guard.Holds call.frame)
    (hanswers : artifact.Answers call.frame decision) (hmemory : after.memory = gate.memory)
  /-- No artifact fits and the cache is full. -/
  | full {reason : FallbackReason} (hdecision : decision = .direct reason)
    (hmemory : after.memory = { gate.memory with
      cache := gate.cache.erase call.code.id
      retired := gate.retired ++ [call.code.id] })
  /-- The trace breaks off, or its graph is refused. -/
  | refused {reason : FallbackReason} (hdecision : decision = .direct reason)
    (hopen : call.code.id ∉ gate.retired)
    (hroom : (gate.cache.artifacts call.code.id).length < gate.config.cacheSizeCeiling)
    (hmemory : after.memory = { gate.memory with
      retired := gate.retired ++ [call.code.id]
      traces := gate.memory.traces + 1 })
  /-- No artifact fits, and the trace gives a new one. -/
  | compiled {backend : Backend} {output : TraceOutput} {execute : Executable}
    (hopen : call.code.id ∉ gate.retired)
    (hroom : (gate.cache.artifacts call.code.id).length < gate.config.cacheSizeCeiling)
    (hmiss : ∀ artifact ∈ gate.cache.artifacts call.code.id,
      ¬ ∀ guard ∈ artifact.guards, guard.Holds call.frame)
    (hbackend : gate.backend = some backend)
    (htrace : trace call.code call.frame gate.config = .ok output)
    (hcompile : backend output.graph output.layers = .ok execute)
    (hanswers : (output.artifact execute).Answers call.frame decision)
    (hmemory : after.memory = { gate.memory with
      cache := (gate.cache.append call.code.id (output.artifact execute)).2
      traces := gate.memory.traces + 1 })

/-- The artifacts are gone through once: after a miss none is left to be looked at again. -/
lemma route_eq {gate : Gate} {code : Code} {frame : Frame}
    (hopen : gate.isRetired code.id = false) :
    gate.route code frame =
      match firstMatch frame 0 (gate.cache.artifacts code.id) with
      | (some (position, artifact), rejected) =>
        (.artifact artifact (.cached position), gate.recordRejections code.id rejected)
      | (none, rejected) => (gate.recordRejections code.id rejected).routeAnew code frame := by
  unfold route lookup
  rw [List.drop_zero]
  rcases hfound : firstMatch frame 0 (gate.cache.artifacts code.id) with
      ⟨_ | ⟨position, artifact⟩, rejected⟩
  · have hopen' : (gate.recordRejections code.id rejected).isRetired code.id ≠ true := by
      rw [isRetired] at hopen ⊢
      exact Bool.eq_false_iff.1 hopen
    have hrest : ((gate.recordRejections code.id rejected).cache.artifacts code.id).drop
        (0 + rejected.length) = [] := by
      rw [Nat.zero_add, length_of_firstMatch_eq_none hfound]
      exact List.drop_length
    simp only [resolveMiss, if_neg hopen', lookup, hrest, firstMatch]
    rfl
  · rfl

lemma serve_eq {gate after : Gate} {code : Code} {frame : Frame}
    {artifact : Artifact} {path : CallPath}
    {decision : Decision} (h : gate.serve code frame artifact path = (decision, after)) :
    artifact.Answers frame decision ∧ after.memory = gate.memory := by
  unfold serve at h
  split at h
  · next value hvalue =>
    cases h
    refine ⟨?_, rfl⟩
    rintro _ ⟨⟩
    exact hvalue
  · cases h
    exact ⟨nofun, rfl⟩

lemma fallBack_memory {gate after : Gate} {reason : FallbackReason} {decision : Decision}
    (h : gate.fallBack reason = (decision, after)) :
    decision = .direct reason ∧ after.memory = gate.memory := by
  cases h
  exact ⟨rfl, rfl⟩

lemma retire_memory {gate : Gate} {code : Nat} (hopen : code ∉ gate.retired) :
    (gate.retire code).memory = { gate.memory with retired := gate.retired ++ [code] } := by
  simp [retire, isRetired, hopen, memory]

/-- A decision does one of the things listed. -/
theorem decided {gate after : Gate} {call : Call} {decision : Decision}
    (h : gate.decide call.code call.frame = (decision, after)) :
    Decided gate call decision after := by
  unfold decide at h
  simp only at h
  split at h
  · cases h
    exact .kept rfl rfl
  next hretired =>
  have hopen : call.code.id ∉ gate.retired := by simpa [isRetired] using hretired
  split at h
  · cases h
    exact .kept rfl rfl
  have hcounted : { gate with log := gate.log.recordCall call.code.id }.isRetired
      call.code.id = false :=
    Bool.eq_false_iff.2 hretired
  simp only [route_eq hcounted] at h
  rcases hfound : firstMatch call.frame 0 (gate.cache.artifacts call.code.id) with
    ⟨_ | ⟨position, artifact⟩, rejected⟩
  · have hmiss := firstMatch_eq_none hfound
    simp only [hfound, routeAnew] at h
    -- Counting the call and the rejections leaves alone what is looked at next.
    let recorded := { gate with log := gate.log.recordCall call.code.id }.recordRejections
      call.code.id rejected
    by_cases hroom : gate.config.cacheSizeCeiling ≤ (gate.cache.artifacts call.code.id).length
    · have hfull : recorded.config.cacheSizeCeiling ≤
          (recorded.cache.artifacts call.code.id).length := hroom
      rw [if_pos hfull] at h
      obtain ⟨hdecision, hmemory⟩ := fallBack_memory h
      exact .full hdecision (hmemory.trans (retire_memory hopen))
    have hfull : ¬ recorded.config.cacheSizeCeiling ≤
        (recorded.cache.artifacts call.code.id).length := hroom
    rw [if_neg hfull] at h
    obtain ⟨config, _ | backend, cache, log, metrics, retired⟩ := gate
    · cases h
      exact .kept rfl rfl
    · simp only [recordRejections, compileFresh] at h
      cases htrace : trace call.code call.frame config with
      | error error =>
        simp only [htrace] at h
        obtain ⟨hdecision, hmemory⟩ := fallBack_memory h
        exact .refused hdecision hopen (not_le.1 hroom) (hmemory.trans (retire_memory hopen))
      | ok output =>
        cases hcompile : backend output.graph output.layers with
        | error report =>
          simp only [htrace, hcompile] at h
          obtain ⟨hdecision, hmemory⟩ := fallBack_memory h
          exact .refused hdecision hopen (not_le.1 hroom) (hmemory.trans (retire_memory hopen))
        | ok execute =>
          simp only [htrace, hcompile] at h
          obtain ⟨hanswers, hmemory⟩ := serve_eq h
          exact .compiled hopen (not_le.1 hroom) hmiss rfl htrace hcompile hanswers hmemory
  · obtain ⟨hartifact, hguards⟩ := firstMatch_eq_some hfound
    simp only [hfound, recordRejections] at h
    obtain ⟨hanswers, hmemory⟩ := serve_eq h
    exact .hit hartifact hguards hanswers hmemory

lemma Decided.settings {gate after : Gate} {call : Call} {decision : Decision}
    (h : Decided gate call decision after) :
    after.config = gate.config ∧ after.backend = gate.backend := by
  have hsettings : after.memory.config = gate.memory.config ∧
      after.memory.backend = gate.memory.backend := by
    cases h <;> simp [*]
  exact hsettings

/-! ### Many calls -/

/-- The gate after decisions about calls. -/
def after (gate : Gate) (calls : List Call) : Gate :=
  calls.foldl (fun gate call => (gate.decide call.code call.frame).2) gate

/-- Calls of a gate, in the order of the decisions about them, and the gate at the end. -/
inductive History : Gate → List Call → Gate → Prop where
  | done {gate : Gate} : History gate [] gate
  /-- A call that an artifact serves. -/
  | served {gate after last : Gate} {call : Call} {directly : Gate →
    Run Value × Gate} {outcome : Outcome}
    {rest : List Call} (hdecide : gate.decide call.code call.frame = (.served outcome, after))
    (hrest : History (gate.call call.code call.frame directly).2 rest last) :
    History gate (call :: rest) last
  /-- A call that runs directly; `inner` are the calls that the direct run makes. -/
  | direct {gate after last : Gate} {call : Call} {directly : Gate → Run Value × Gate}
    {reason : FallbackReason}
    {inner rest : List Call} (hdecide : gate.decide call.code call.frame = (.direct reason, after))
    (hinner : History after inner (directly after).2)
    (hrest : History (gate.call call.code call.frame directly).2 rest last) :
    History gate (call :: (inner ++ rest)) last

lemma call_of_served {gate after : Gate} {code : Code} {frame : Frame} {outcome : Outcome}
    {directly : Gate → Run Value × Gate} (h : gate.decide code frame = (.served outcome, after)) :
    (gate.call code frame directly).2 = after := by
  rw [call, h]
  rfl

lemma call_of_direct {gate after : Gate} {code : Code} {frame : Frame} {reason : FallbackReason}
    {directly : Gate → Run Value × Gate} (h : gate.decide code frame = (.direct reason, after)) :
    (gate.call code frame directly).2 = (directly after).2 := by
  rw [call, h, complete]
  rcases directly after with ⟨_ | _, _⟩ <;> rfl

/-- Only decisions change a gate. -/
theorem History.last_eq {gate last : Gate} {calls : List Call} (h : History gate calls last) :
    last = gate.after calls := by
  induction h with
  | done => rfl
  | served hdecide hrest ih =>
    rw [ih, call_of_served hdecide, after, after, List.foldl_cons, hdecide]
  | direct hdecide hinner hrest ihinner ih =>
    rw [ih, call_of_direct hdecide, ihinner, after, after, after, List.foldl_cons,
      List.foldl_append, hdecide]

end Gate

end GuardedTrace
