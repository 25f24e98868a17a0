/-
The first artifact that fits.

A call goes through the artifacts of its program from the oldest on and is served by the first whose
guards all hold.  Each artifact that it passes over is counted once, under the least of its guards
that fails: the guards of a cached artifact are those of a completed trace, which are in order, so
the first that fails is the least.  A miss looks at the list again, but only at what stands behind
the artifacts that were checked.
-/
import GuardedTrace.Proofs.ArtifactLists
import GuardedTrace.Proofs.CallCounts
import GuardedTrace.Proofs.OrderedGuards

namespace GuardedTrace

/-- All guards of an artifact hold on a frame. -/
def Artifact.Fits (artifact : Artifact) (frame : Frame) : Prop :=
  ∀ guard ∈ artifact.guards, guard.Holds frame

/-- Artifacts are rejected on a frame, each by the least of its guards that fails there. -/
def RejectedBy (frame : Frame) (artifacts : List Artifact) (guards : List Guard) : Prop :=
  List.Forall₂ (fun artifact guard => artifact.guards.LeastFailing frame guard) artifacts guards

instance (artifact : Artifact) (frame : Frame) : Decidable (artifact.Fits frame) :=
  decidable_of_iff ((artifact.guards.failure? frame).isNone = true)
    (Option.isNone_iff_eq_none.trans GuardSet.failure?_eq_none_iff)

/-! ### Going through artifacts -/

section

variable {frame : Frame} {passed : List Artifact} {artifact : Artifact}

/-- Artifacts that do not fit are rejected one after the other, whatever stands behind them. -/
lemma firstMatch_passed (hordered : ∀ artifact ∈ passed, artifact.guards.InOrder)
    (hmiss : ∀ artifact ∈ passed, ¬ artifact.Fits frame) :
    ∃ rejected, RejectedBy frame passed rejected ∧ ∀ position rest,
      firstMatch frame position (passed ++ rest) =
        ((firstMatch frame (position + passed.length) rest).1,
          rejected ++ (firstMatch frame (position + passed.length) rest).2) := by
  induction passed with
  | nil => exact ⟨[], .nil, fun _ _ => rfl⟩
  | cons first later ih =>
    obtain ⟨hfirst, hlater⟩ := List.forall_mem_cons.1 hmiss
    obtain ⟨hguards, hrest⟩ := List.forall_mem_cons.1 hordered
    obtain ⟨rejected, hrejected, hscan⟩ := ih hrest hlater
    cases hfailure : first.guards.failure? frame with
    | none => exact absurd (GuardSet.failure?_eq_none_iff.1 hfailure) hfirst
    | some failure =>
      refine ⟨failure.guard :: rejected, .cons (hguards.leastFailing hfailure) hrejected, ?_⟩
      intro position rest
      have hposition : position + 1 + later.length = position + (later.length + 1) := by omega
      rw [List.cons_append, firstMatch, hfailure]
      simp only [hscan, hposition, List.length_cons, List.cons_append]

lemma firstMatch_of_fits (hfits : artifact.Fits frame) (position : Nat) (rest : List Artifact) :
    firstMatch frame position (artifact :: rest) = (some (position, artifact), []) := by
  have hfailure : artifact.guards.failure? frame = none := GuardSet.failure?_eq_none_iff.2 hfits
  rw [firstMatch, hfailure]

/-- When an artifact fits, one of them is the first that does. -/
lemma exists_first {artifacts : List Artifact} (h : ∃ artifact ∈ artifacts, artifact.Fits frame) :
    ∃ passed artifact rest, artifacts = passed ++ artifact :: rest ∧ artifact.Fits frame ∧
      ∀ earlier ∈ passed, ¬ earlier.Fits frame := by
  obtain ⟨fitting, hmem, hfits⟩ := h
  have hsome : (artifacts.find? fun artifact => decide (artifact.Fits frame)).isSome :=
    List.find?_isSome.2 ⟨fitting, hmem, decide_eq_true hfits⟩
  obtain ⟨first, hfirst⟩ := Option.isSome_iff_exists.1 hsome
  obtain ⟨hfits, passed, rest, hsplit, hpassed⟩ := List.find?_eq_some_iff_append.1 hfirst
  exact ⟨passed, first, rest, hsplit, of_decide_eq_true hfits, fun earlier hearlier => by
    simpa using hpassed earlier hearlier⟩

end

/-- **A lookup goes on where the last one stopped.**  After a lookup that found nothing, and with
artifacts that others have added since, a lookup from the position behind those that were checked
finds what a lookup from the start would find, and the two record together what that one would
record. -/
theorem Gate.lookup_resumed {gate recorded later : Gate} {code scanned : Nat} {frame : Frame}
    {more : List Artifact} (hordered : ∀ artifact ∈ gate.cache.artifacts code,
      artifact.guards.InOrder)
    (hmiss : gate.lookup code frame 0 = (none, scanned, recorded))
    (hlater : later.cache.artifacts code = gate.cache.artifacts code ++ more) :
    ∃ rejected added found checked, RejectedBy frame (gate.cache.artifacts code) rejected ∧
      recorded = gate.recordRejections code rejected ∧
      later.lookup code frame scanned = (found, checked, later.recordRejections code added) ∧
      later.lookup code frame 0 =
        (found, checked, later.recordRejections code (rejected ++ added)) := by
  rw [lookup, List.drop_zero] at hmiss
  rcases hfirst : firstMatch frame 0 (gate.cache.artifacts code) with ⟨found, rejections⟩
  rw [hfirst] at hmiss
  obtain ⟨rfl, rfl, rfl⟩ : found = none ∧ _ ∧ gate.recordRejections code rejections = recorded := by
    simpa only [Prod.mk.injEq] using hmiss
  obtain ⟨rejected, hrejected, hscan⟩ := firstMatch_passed hordered (firstMatch_eq_none hfirst)
  obtain rfl : rejections = rejected := by
    have hall := hscan 0 []
    rw [List.append_nil, hfirst, firstMatch, List.append_nil] at hall
    exact (Prod.mk.inj hall).2
  have hlength : (gate.cache.artifacts code).length = rejections.length := hrejected.length_eq
  -- What is left to check are the artifacts that were added.
  have hrest : (later.cache.artifacts code).drop (0 + rejections.length) = more := by
    rw [hlater, Nat.zero_add, ← hlength, List.drop_left]
  have hall := hscan 0 more
  rw [← hlater, hlength] at hall
  rcases hadded : firstMatch frame (0 + rejections.length) more with ⟨found, added⟩
  rw [hadded] at hall
  cases found with
  | none =>
    refine ⟨rejections, added, none, 0 + rejections.length + added.length, hrejected, rfl, ?_, ?_⟩
    · simp only [lookup, hrest, hadded]
    · simp only [lookup, List.drop_zero, hall, List.length_append, Nat.add_assoc]
  | some hit =>
    refine ⟨rejections, added, some hit, hit.1 + 1, hrejected, rfl, ?_, ?_⟩
    · simp only [lookup, hrest, hadded]
    · simp only [lookup, List.drop_zero, hall]

/-! ### Counting rejections -/

/-- The rejections of artifacts of a program that are counted under a text. -/
def CallStats.rejectionsBy (stats : CallStats) (text : String) : Nat :=
  (stats.guardFailures.lookup text).getD 0

lemma CallStats.rejectionsBy_reject (stats : CallStats) (text other : String) :
    (stats.reject text).rejectionsBy other = stats.rejectionsBy other + if text =
      other then 1 else 0 := by
  rw [rejectionsBy, reject, Table.lookup_putOrdered Table.linear_compare]
  by_cases hother : other = text
  · subst hother
    rw [if_pos rfl, if_pos rfl]
    rfl
  · rw [if_neg hother, if_neg (Ne.symm hother)]
    rfl

lemma CallStats.rejectionsBy_rejections (stats : CallStats) (guards : List Guard) (text : String) :
    (guards.foldl (fun stats guard => stats.reject guard.written) stats).rejectionsBy text =
      stats.rejectionsBy text + guards.countP (·.written = text) := by
  induction guards generalizing stats with
  | nil => rfl
  | cons guard rest ih =>
    rw [List.foldl_cons, ih, rejectionsBy_reject, List.countP_cons]
    simp only [decide_eq_true_eq]
    omega

namespace Gate

/-- Between two gates the rejections by these guards are counted, all of artifacts of one program,
and no others. -/
structure Rejects (gate : Gate) (code : Nat) (rejected : List Guard) (after : Gate) : Prop where
  metrics : after.metrics.guardFailures = gate.metrics.guardFailures + rejected.length
  log : ∀ id text, (after.log.stats id).rejectionsBy text =
    (gate.log.stats id).rejectionsBy text + if id = code then rejected.countP
      (·.written = text) else 0

variable {gate routed after : Gate} {code : Code} {frame : Frame} {rejected : List Guard}

lemma rejects_recordRejections (gate : Gate) (code : Nat) (rejected : List Guard) :
    Rejects gate code rejected (gate.recordRejections code rejected) := by
  refine ⟨rfl, fun id text => ?_⟩
  have hstats := CallLog.stats_rejections gate.log code id rejected
  rw [recordRejections, hstats]
  by_cases hid : id = code
  · rw [if_pos hid, if_pos hid, CallStats.rejectionsBy_rejections, hid]
  · rw [if_neg hid, if_neg hid, Nat.add_zero]

/-- Calls that are counted, and calls that are counted as served, are no rejections. -/
lemma rejectionsBy_update {log : CallLog} {code : Nat} {change : CallStats → CallStats}
    (hchange : (change (log.stats code)).guardFailures = (log.stats code).guardFailures) (id : Nat)
    (text : String) :
    ((log.update code change).stats id).rejectionsBy text = (log.stats id).rejectionsBy text := by
  rw [CallLog.stats_update]
  by_cases hid : id = code
  · rw [if_pos hid, CallStats.rejectionsBy, hchange, hid]
    rfl
  · rw [if_neg hid]

lemma Rejects.of_eq (h : Rejects gate code.id rejected routed)
    (hmetrics : after.metrics.guardFailures = routed.metrics.guardFailures)
    (hlog : ∀ id text, (after.log.stats id).rejectionsBy text =
      (routed.log.stats id).rejectionsBy text) :
    Rejects gate code.id rejected after :=
  ⟨hmetrics.trans h.metrics, fun id text => (hlog id text).trans (h.log id text)⟩

lemma Rejects.retire (h : Rejects gate code.id rejected routed) :
    Rejects gate code.id rejected (routed.retire code.id) := by
  rw [retire_eq]
  exact h.of_eq rfl fun _ _ => rfl

/-- That the call is counted first does not matter. -/
lemma Rejects.of_countCall (h : Rejects (gate.countCall code.id) code.id rejected after) :
    Rejects gate code.id rejected after := by
  refine ⟨h.metrics, fun id text => ?_⟩
  have hcounted : ((gate.countCall code.id).log.stats id).rejectionsBy text =
      (gate.log.stats id).rejectionsBy text := by
    rw [countCall, CallLog.recordCall, rejectionsBy_update]
    rfl
  rw [h.log, hcounted]

lemma Rejects.serve (h : Rejects gate code.id rejected routed)
    (artifact : Artifact) (path : CallPath) :
    Rejects gate code.id rejected (routed.serve code frame artifact path).2 := by
  unfold Gate.serve
  split
  · have hlog : ∀ id text, ((routed.log.recordOk code.id).stats id).rejectionsBy text =
        (routed.log.stats id).rejectionsBy text := fun id text => rejectionsBy_update rfl id text
    exact h.of_eq rfl hlog
  · exact h.of_eq rfl fun _ _ => rfl

/-- Whatever going through the artifacts comes to, it counts the rejections of one look at them. -/
lemma Routed.rejects {route : Route} (h : Routed gate code frame route routed) :
    Rejects gate code.id (firstMatch frame 0 (gate.cache.artifacts code.id)).2 routed := by
  have hlook := rejects_recordRejections gate code.id
    (firstMatch frame 0 (gate.cache.artifacts code.id)).2
  cases h with
  | hit hfound =>
    rwa [hfound] at hlook ⊢
  | noBackend hmiss _ _ =>
    rwa [hmiss] at hlook ⊢
  | full hmiss _ =>
    rw [hmiss] at hlook ⊢
    exact Rejects.retire (hlook.of_eq rfl fun _ _ => rfl)
  | graphBreak hmiss _ _ _ | refused hmiss _ _ _ _ =>
    rw [hmiss] at hlook ⊢
    exact Rejects.retire (hlook.of_eq rfl fun _ _ => rfl)
  | compiled hmiss _ _ _ _ =>
    rw [hmiss] at hlook ⊢
    exact hlook.of_eq rfl fun _ _ => rfl

section

variable (hopen : gate.isRetired code.id = false)
  (hdue : gate.config.minimumCallCount ≤ (gate.log.stats code.id).total + 1)

include hopen hdue

/-- A call that is due goes through the artifacts. -/
lemma decide_of_due : gate.decide code frame =
    match (gate.countCall code.id).route code frame with
    | (.artifact artifact path, routed) => routed.serve code frame artifact path
    | (.direct reason, routed) => routed.fallBack reason := by
  have htotal : ((gate.countCall code.id).log.stats code.id).total =
      (gate.log.stats code.id).total + 1 := by
    rw [countCall, CallLog.recordCall, CallLog.stats_update, if_pos rfl]
  have hopen' : ¬ gate.isRetired code.id = true := by rw [hopen]; exact Bool.false_ne_true
  rw [decide_eq, if_neg hopen', htotal]
  exact if_neg (not_lt.2 hdue)

/-- A call that is due counts the rejections of one look at the artifacts. -/
lemma rejects_decide (frame : Frame) :
    Rejects gate code.id (firstMatch frame 0 (gate.cache.artifacts code.id)).2
    (gate.decide code frame).2 := by
  have hcounted : (gate.countCall code.id).isRetired code.id = false := hopen
  have hrouted := (routed hcounted frame).rejects
  rw [decide_of_due hopen hdue]
  apply Rejects.of_countCall
  split
  · next artifact path routed hroute =>
    rw [hroute] at hrouted
    exact hrouted.serve artifact path
  · next reason routed hroute =>
    rw [hroute] at hrouted
    exact hrouted.of_eq rfl fun _ _ => rfl

/-- A call that is due is served by the artifact that is found. -/
lemma decide_of_found {index : Nat} {artifact : Artifact}
    (hfound : firstMatch frame 0 (gate.cache.artifacts code.id) =
      (some (index, artifact), rejected)) :
    gate.decide code frame =
      ((gate.countCall code.id).recordRejections code.id rejected).serve code frame artifact
      (.cached index) := by
  have hcounted : (gate.countCall code.id).isRetired code.id = false := hopen
  have hfound' : firstMatch frame 0 ((gate.countCall code.id).cache.artifacts code.id) =
      (some (index, artifact), rejected) := hfound
  rw [decide_of_due hopen hdue, route_eq hcounted, hfound']

end

/-- Running an artifact starts no trace, and gives its value or leaves the call to a direct run. -/
lemma serve_runs (gate : Gate) (code : Code) (frame : Frame)
    (artifact : Artifact) (path : CallPath) :
    (gate.serve code frame artifact path).2.metrics.traceAttempts = gate.metrics.traceAttempts ∧
      ((∃ value, artifact.run frame = .ok value ∧
          (gate.serve code frame artifact path).1 = .served ⟨value, path⟩) ∨
        (∃ report, artifact.run frame = .error report ∧
          (gate.serve code frame artifact path).1 = .direct .executionFailed)) := by
  unfold serve
  split
  · next value hvalue => exact ⟨rfl, Or.inl ⟨value, hvalue, rfl⟩⟩
  · next report hreport => exact ⟨rfl, Or.inr ⟨report, hreport, rfl⟩⟩

/-! ### Sessions -/

/-- Guards come from traces, so they are in order, whatever is cached and whatever it answers. -/
lemma lasting_inOrder (config : Config) :
    Lasting config fun artifacts => ∀ artifact ∈ artifacts, artifact.guards.InOrder where
  none := by simp
  added {artifacts _ _ output} execute h _ htrace := by
    intro artifact hartifact
    rcases Cache.added_cases artifacts (output.artifact execute) with hadded | hadded
    · exact h artifact (hadded ▸ hartifact)
    · rw [hadded] at hartifact
      rcases List.mem_append.1 hartifact with hold | hnew
      · exact h artifact hold
      · obtain rfl := List.mem_singleton.1 hnew
        exact inOrder_of_trace htrace
  drift behave h := by
    intro artifact hartifact
    obtain ⟨old, hold, rfl⟩ := List.mem_map.1 hartifact
    exact h old hold

/-- **The first match wins, and each rejection is counted once.**  After any session of a new gate,
let a call of a program that is not retired reach the number of calls from which artifacts are used.
If an artifact of the program fits, the call runs the first that does, at its position, and starts
no trace; the rejections that are counted are one for each artifact before it, under the least guard
of that artifact that fails.  If none fits, they are one for each artifact of the program, although
the list is looked at twice. -/
theorem first_match_wins {config : Config} {backend : Option Backend}
    {entries : List Entry} {gate : Gate}
    (h : Session { config, backend } entries gate) {call : Call}
    {original : Run Value} {path : CallPath}
    {outcome : Run Outcome} {after : Gate} (hopen : gate.isRetired call.code.id = false)
    (hdue : gate.config.minimumCallCount ≤ (gate.log.stats call.code.id).total + 1)
    (hperform : gate.perform (.call call original) = (.answered path outcome, after)) :
    ((∃ artifact ∈ gate.cache.artifacts call.code.id, artifact.Fits call.frame) →
      ∃ index artifact rejected, (gate.cache.artifacts call.code.id)[index]? = some artifact ∧
        artifact.Fits call.frame ∧
        (∀ earlier ∈ (gate.cache.artifacts call.code.id).take index, ¬ earlier.Fits call.frame) ∧
        ((∃ value, artifact.run call.frame = .ok value ∧ path = .cached index ∧
            outcome = .ok ⟨value, .cached index⟩) ∨
          (∃ report, artifact.run call.frame = .error report ∧ path = .fallback .executionFailed ∧
            outcome = original.map fun value => ⟨value, .fallback .executionFailed⟩)) ∧
        after.metrics.traceAttempts = gate.metrics.traceAttempts ∧
        RejectedBy call.frame ((gate.cache.artifacts call.code.id).take index) rejected ∧
        Rejects gate call.code.id rejected after) ∧
    ((∀ artifact ∈ gate.cache.artifacts call.code.id, ¬ artifact.Fits call.frame) →
      ∃ rejected, RejectedBy call.frame (gate.cache.artifacts call.code.id) rejected ∧
        Rejects gate call.code.id rejected after) := by
  have hordered := (h.kempt (lasting_inOrder config)).artifacts call.code.id
  have hrejects := rejects_decide hopen hdue call.frame
  rw [perform_call] at hperform
  simp only [Prod.mk.injEq, Reply.answered.injEq] at hperform
  obtain ⟨⟨rfl, rfl⟩, rfl⟩ := hperform
  constructor
  · intro hfitting
    obtain ⟨passed, artifact, rest, hsplit, hfits, hpassed⟩ := exists_first hfitting
    have hbefore : ∀ earlier ∈ passed, earlier.guards.InOrder := by
      intro earlier hearlier
      exact hordered earlier (hsplit ▸ List.mem_append_left _ hearlier)
    obtain ⟨rejected, hrejected, hscan⟩ := firstMatch_passed hbefore hpassed
    have hfound : firstMatch call.frame 0 (gate.cache.artifacts call.code.id) =
        (some (passed.length, artifact), rejected) := by
      rw [hsplit, hscan, firstMatch_of_fits hfits, Nat.zero_add, List.append_nil]
    have hdecide := decide_of_found hopen hdue hfound
    obtain ⟨htraces, hruns⟩ := serve_runs
      ((gate.countCall call.code.id).recordRejections call.code.id rejected)
        call.code call.frame artifact
      (.cached passed.length)
    have htake : (gate.cache.artifacts call.code.id).take passed.length = passed := by
      rw [hsplit, List.take_left]
    have hat : (gate.cache.artifacts call.code.id)[passed.length]? = some artifact := by
      rw [hsplit, List.getElem?_append_right (Nat.le_refl _), Nat.sub_self, List.getElem?_cons_zero]
    rw [← hdecide] at htraces hruns
    rw [hfound] at hrejects
    refine ⟨passed.length, artifact, rejected, hat, hfits, htake.symm ▸ hpassed, ?_, htraces,
      htake.symm ▸ hrejected, hrejects⟩
    rcases hruns with ⟨value, hvalue, hserved⟩ | ⟨report, hreport, hdirect⟩
    · rw [hserved]
      exact Or.inl ⟨value, hvalue, rfl, rfl⟩
    · rw [hdirect]
      exact Or.inr ⟨report, hreport, rfl, rfl⟩
  · intro hmiss
    obtain ⟨rejected, hrejected, hscan⟩ := firstMatch_passed hordered hmiss
    have hnone := hscan 0 []
    rw [List.append_nil, firstMatch, List.append_nil] at hnone
    rw [hnone] at hrejects
    exact ⟨rejected, hrejected, hrejects⟩

/-- A gate that has an artifact for each of two frames. -/
def twiceServedGate : Gate :=
  (performAll { backend := some (evaluator 100) } [.call ⟨heldSum, heldFrame 7⟩ (.ok .none),
    .call ⟨heldSum, heldFrame 8⟩ (.ok .none)]).2

/-- A call on the second frame passes over the first artifact, which is counted once, and runs the
second. -/
theorem twiceServedGate_passes_first : ∃ entries outcome after artifact rejected,
    Session { backend := some (evaluator 100) } entries twiceServedGate ∧
    twiceServedGate.perform (.call ⟨heldSum, heldFrame 8⟩ (.ok .none)) =
      (.answered (.cached 1) outcome, after) ∧
    (twiceServedGate.cache.artifacts 0)[1]? = some artifact ∧ artifact.Fits (heldFrame 8) ∧
    RejectedBy (heldFrame 8) ((twiceServedGate.cache.artifacts 0).take 1) rejected ∧
    Rejects twiceServedGate 0 rejected after ∧
    after.metrics.guardFailures = twiceServedGate.metrics.guardFailures + 1 := by
  have hlength : (twiceServedGate.cache.artifacts heldSum.id).length = 2 := by decide +kernel
  have hopen : twiceServedGate.isRetired heldSum.id = false := by decide +kernel
  have hdue : twiceServedGate.config.minimumCallCount ≤
      (twiceServedGate.log.stats heldSum.id).total + 1 := by
    decide +kernel
  have hfitting : ∃ artifact ∈ twiceServedGate.cache.artifacts heldSum.id,
      artifact.Fits (heldFrame 8) := by
    decide +kernel
  have hpath : (twiceServedGate.decide heldSum (heldFrame 8)).1.path = .cached 1 := by
    decide +kernel
  obtain ⟨entries, hsession⟩ : ∃ entries, Session { backend := some (evaluator 100) }
      entries twiceServedGate :=
    ⟨_, session_performAll _ _⟩
  generalize twiceServedGate = gate at *
  have hperform := perform_call gate ⟨heldSum, heldFrame 8⟩ (.ok .none)
  rw [hpath] at hperform
  obtain ⟨index, artifact, rejected, hat, hfits, -, hruns, -, hrejected, hrejects⟩ :=
    (first_match_wins hsession hopen hdue hperform).1 hfitting
  obtain rfl : index = 1 := by
    rcases hruns with ⟨value, -, hcached, -⟩ | ⟨report, -, hfailed, -⟩
    · exact (CallPath.cached.inj hcached).symm
    · cases hfailed
  have hone : rejected.length = 1 := by
    have hlengths := hrejected.length_eq
    rw [List.length_take, hlength] at hlengths
    exact hlengths.symm
  have hmetrics := hrejects.metrics
  rw [hone] at hmetrics
  exact ⟨entries, _, _, artifact, rejected, hsession, hperform, hat, hfits,
    hrejected, hrejects, hmetrics⟩

end Gate

end GuardedTrace
