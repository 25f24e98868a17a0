/-
How often a gate traces a program.

A trace either adds an artifact to the cache or retires the program: the guards of a new artifact
hold on the frame of its trace, while those of all cached artifacts failed there, so no cached
artifact is equivalent to it.  A program that is not retired has therefore as many artifacts as it
had traces, and the gate never traces it when it has as many as the cache may hold.
-/
import GuardedTrace.Proofs.Histories
import GuardedTrace.Proofs.TracedGuards

namespace GuardedTrace

/-- A call of a program whose names are identifiers, on a frame whose paths can be told apart. -/
structure Call.Legible (call : Call) : Prop where
  varNames : ∀ name ∈ call.code.varNames, Text.isIdentifier name.toList = true
  names : ∀ name ∈ call.code.names, Text.isIdentifier name.toList = true
  regular : call.frame.Regular
  short : call.frame.ShortSequences

namespace Gate

/-- The traces in the decision about a call. -/
def tracesOf (gate : Gate) (call : Call) : Nat :=
  (gate.decide call.code call.frame).2.metrics.traceAttempts - gate.metrics.traceAttempts

/-- The traces of one program in the decisions about calls. -/
def traceCount (id : Nat) : Gate → List Call → Nat
  | _, [] => 0
  | gate, call :: rest =>
    (if call.code.id = id then gate.tracesOf call else 0) +
      traceCount id (gate.decide call.code call.frame).2 rest

/-- The number of traces of a program stays within the ceiling, and a program that is not retired
has an artifact for each of its traces. -/
structure Allows (gate : Gate) (id count : Nat) : Prop where
  ceiling : count ≤ gate.config.cacheSizeCeiling
  cached : id ∉ gate.retired → count ≤ (gate.cache.artifacts id).length

section

variable {gate after : Gate} {call : Call} {decision : Decision} {id count : Nat}

/-- A trace of a program with room for one more artifact stays within the ceiling. -/
lemma Allows.count_le (h : gate.Allows id count) (hopen : call.code.id ∉ gate.retired)
    (hroom : (gate.cache.artifacts call.code.id).length < gate.config.cacheSizeCeiling) :
    (count + if call.code.id = id then 1 else 0) ≤ gate.config.cacheSizeCeiling := by
  split
  · next hid =>
    subst hid
    exact Nat.lt_of_le_of_lt (h.cached hopen) hroom
  · exact h.ceiling

/-- No cached artifact is equivalent to the artifact of a trace that no cached one fits. -/
lemma length_append_of_miss {output : TraceOutput} {execute : Executable}
    {cache : Cache} {config : Config}
    (hcall : call.Legible) (htrace : trace call.code call.frame config = .ok output)
    (hmiss : ∀ artifact ∈ cache.artifacts call.code.id,
      ¬ ∀ guard ∈ artifact.guards, guard.Holds call.frame) (id : Nat) :
    ((cache.append call.code.id (output.artifact execute)).2.artifacts id).length =
      (cache.artifacts id).length + if call.code.id = id then 1 else 0 := by
  have hguards := holds_of_trace hcall.varNames hcall.names hcall.regular hcall.short htrace
  rcases cache.append_cases call.code.id (output.artifact execute) with
      ⟨-, old, hold, hequivalent⟩ | happend
  · -- equivalent artifacts have the same guards, and these hold
    have hsame : old.guards = output.guards := by
      simp only [Artifact.isEquivalent, Bool.and_eq_true, decide_eq_true_eq] at hequivalent
      exact hequivalent.1.1
    exact absurd (hsame ▸ hguards) (hmiss old hold)
  · rw [happend id]
    split
    · next h => simp [h]
    · next h => rw [if_neg (Ne.symm h), Nat.add_zero]

/-- A decision keeps to the ceiling, its own trace included. -/
lemma Allows.step (h : gate.Allows id count) (hcall : call.Legible)
    (hdecided : Decided gate call decision after) :
    ∃ traced, after.metrics.traceAttempts = gate.metrics.traceAttempts + traced ∧
      after.Allows id (count + if call.code.id = id then traced else 0) := by
  have huntraced : (count + if call.code.id = id then 0 else 0) = count := by
    rw [ite_self, Nat.add_zero]
  cases hdecided with
  | kept _ hmemory | hit _ _ _ hmemory =>
    simp only [memory, Memory.mk.injEq] at hmemory
    obtain ⟨hconfig, -, hcache, hretired, htraces⟩ := hmemory
    refine ⟨0, htraces, ?_⟩
    rw [huntraced]
    exact ⟨hconfig ▸ h.ceiling, fun hopen => hcache ▸ h.cached (hretired ▸ hopen)⟩
  | full _ hmemory =>
    simp only [memory, Memory.mk.injEq] at hmemory
    obtain ⟨hconfig, -, hcache, hretired, htraces⟩ := hmemory
    refine ⟨0, htraces, ?_⟩
    rw [huntraced]
    refine ⟨hconfig ▸ h.ceiling, fun hopen => ?_⟩
    simp only [hretired, List.mem_append, List.mem_singleton, not_or] at hopen
    rw [hcache, Cache.artifacts_erase, if_neg hopen.2]
    exact h.cached hopen.1
  | refused _ hopen hroom hmemory =>
    simp only [memory, Memory.mk.injEq] at hmemory
    obtain ⟨hconfig, -, hcache, hretired, htraces⟩ := hmemory
    refine ⟨1, htraces, hconfig ▸ h.count_le hopen hroom, fun hopen' => ?_⟩
    -- the program that was traced is retired now
    simp only [hretired, List.mem_append, List.mem_singleton, not_or] at hopen'
    rw [hcache, if_neg (Ne.symm hopen'.2)]
    exact h.cached hopen'.1
  | compiled hopen hroom hmiss _ htrace _ _ hmemory =>
    simp only [memory, Memory.mk.injEq] at hmemory
    obtain ⟨hconfig, -, hcache, hretired, htraces⟩ := hmemory
    refine ⟨1, htraces, hconfig ▸ h.count_le hopen hroom, fun hopen' => ?_⟩
    rw [hcache, length_append_of_miss hcall htrace hmiss]
    exact Nat.add_le_add_right (h.cached (hretired ▸ hopen')) _

/-- Any number of decisions keep to the ceiling. -/
lemma Allows.after_calls {calls : List Call} (h : gate.Allows id count)
    (hcalls : ∀ call ∈ calls, call.Legible) :
    (gate.after calls).Allows id (count + traceCount id gate calls) := by
  induction calls generalizing gate count with
  | nil => exact h
  | cons call rest ih =>
    obtain ⟨hcall, hrest⟩ := List.forall_mem_cons.1 hcalls
    obtain ⟨traced, htraced, hnext⟩ := h.step hcall (decided (Prod.eta _).symm)
    have hcount : gate.tracesOf call = traced := by
      unfold tracesOf
      rw [htraced, Nat.add_sub_cancel_left]
    rw [traceCount, hcount, ← Nat.add_assoc]
    exact ih hnext hrest

lemma after_config (gate : Gate) (calls : List Call) : (gate.after calls).config = gate.config := by
  induction calls generalizing gate with
  | nil => rfl
  | cons call rest ih =>
    have hsettings := (decided (Prod.eta (gate.decide call.code call.frame)).symm).settings
    exact (ih _).trans hsettings.1

lemma Decided.traces_le (h : Decided gate call decision after) :
    gate.metrics.traceAttempts ≤ after.metrics.traceAttempts := by
  cases h with
  | kept _ hmemory | hit _ _ _ hmemory | full _ hmemory => exact (congrArg Memory.traces hmemory).ge
  | refused _ _ _ hmemory | compiled _ _ _ _ _ _ _ hmemory =>
    exact Nat.le_of_lt (Nat.lt_of_succ_le (congrArg Memory.traces hmemory).ge)

/-- The traces of all programs that are called are the traces that the gate counts. -/
lemma traceAttempts_after (gate : Gate) {calls : List Call} {ids : Finset Nat}
    (hids : ∀ call ∈ calls, call.code.id ∈ ids) : (gate.after calls).metrics.traceAttempts =
      gate.metrics.traceAttempts + ∑ id ∈ ids, traceCount id gate calls := by
  induction calls generalizing gate with
  | nil => simp [after, traceCount]
  | cons call rest ih =>
    obtain ⟨hid, hrest⟩ := List.forall_mem_cons.1 hids
    have hle := (decided (Prod.eta (gate.decide call.code call.frame)).symm).traces_le
    calc (gate.after (call :: rest)).metrics.traceAttempts
        = (gate.decide call.code call.frame).2.metrics.traceAttempts +
            ∑ id ∈ ids, traceCount id (gate.decide call.code call.frame).2 rest := ih _ hrest
      _ = gate.metrics.traceAttempts + (gate.tracesOf call +
            ∑ id ∈ ids, traceCount id (gate.decide call.code call.frame).2 rest) := by
          rw [← Nat.add_assoc, tracesOf, Nat.add_sub_cancel' hle]
      _ = gate.metrics.traceAttempts + ∑ id ∈ ids, traceCount id gate (call :: rest) := by
          simp only [traceCount, Finset.sum_add_distrib, Finset.sum_ite_eq, if_pos hid]

end

/-- **The ceiling bounds re-tracing.**  Whatever calls of a new gate are made, each program is
traced at most as often as the cache may hold artifacts of it; and there are no other traces. -/
theorem traceCount_le_ceiling {config : Config} {backend : Option Backend}
    {calls : List Call} {last : Gate}
    (h : History { config, backend } calls last) (hcalls : ∀ call ∈ calls, call.Legible) :
    (∀ id, traceCount id { config, backend } calls ≤ config.cacheSizeCeiling) ∧
      last.metrics.traceAttempts =
        ∑ id ∈ (calls.map fun call => call.code.id).toFinset,
          traceCount id { config, backend } calls := by
  constructor
  · intro id
    have hstart : Allows { config, backend } id 0 := ⟨Nat.zero_le _, fun _ => Nat.zero_le _⟩
    have hlast := (hstart.after_calls hcalls).ceiling
    rwa [after_config, Nat.zero_add] at hlast
  · have hids : ∀ call ∈ calls, call.code.id ∈ (calls.map fun call => call.code.id).toFinset :=
      fun call hcall => List.mem_toFinset.2 (List.mem_map_of_mem hcall)
    rw [h.last_eq, traceAttempts_after _ hids]
    exact Nat.zero_add _

/-- Calls whose direct runs make no calls of their own. -/
lemma exists_history (gate : Gate) (calls : List Call) : ∃ last, History gate calls last := by
  induction calls generalizing gate with
  | nil => exact ⟨gate, .done⟩
  | cons call rest ih =>
    let directly : Gate → Run Value × Gate := fun gate => (.ok .none, gate)
    obtain ⟨last, hrest⟩ := ih (gate.call call.code call.frame directly).2
    cases hdecide : gate.decide call.code call.frame with
    | mk decision after =>
      cases decision with
      | served outcome => exact ⟨last, .served hdecide hrest⟩
      | direct reason =>
        have hinner : History after [] (directly after).2 := .done
        have hall := History.direct hdecide hinner hrest
        exact ⟨last, hall⟩

/-- Calls of one program on four frames, none of which fits an artifact of another. -/
def heldCalls : List Call := [7, 8, 9, 10].map fun number => ⟨heldSum, heldFrame number⟩

/-- With room for two artifacts the program is traced twice. -/
theorem traceCount_heldCalls : ∃ last,
    History { config := { cacheSizeCeiling := 2 }, backend := some (evaluator 100) }
      heldCalls last ∧
      last.metrics.traceAttempts = 2 ∧
      traceCount 0 { config := { cacheSizeCeiling := 2 }, backend := some (evaluator 100) }
        heldCalls ≤ 2 := by
  have hvarNames : ∀ name ∈ heldSum.varNames, Text.isIdentifier name.toList = true := by decide
  have hnames : ∀ name ∈ heldSum.names, Text.isIdentifier name.toList = true := by decide
  have hcalls : ∀ call ∈ heldCalls, call.Legible := by
    intro call hcall
    obtain ⟨number, -, rfl⟩ := List.mem_map.1 hcall
    exact ⟨hvarNames, hnames, regular_heldFrame number, shortSequences_heldFrame number⟩
  have hcount : traceCount 0
      { config := { cacheSizeCeiling := 2 }, backend := some (evaluator 100) }
      heldCalls = 2 := by decide +kernel
  obtain ⟨last, hlast⟩ := exists_history
    { config := { cacheSizeCeiling := 2 }, backend := some (evaluator 100) } heldCalls
  obtain ⟨hle, hsum⟩ := traceCount_le_ceiling hlast hcalls
  refine ⟨last, hlast, ?_, hle 0⟩
  have hids : (heldCalls.map fun call => call.code.id).toFinset = {0} := by decide
  rw [hsum, hids, Finset.sum_singleton, hcount]

end Gate

end GuardedTrace
