/-
The books of a gate balance.

A call is counted in the log when it arrives and in the metrics when it is known how it goes.  In
between it is *pending*: one more call is in the log than is accounted for.  Each part of a decision
keeps the books balanced up to the pending call, and the end of a decision closes it, so the books
balance between any two requests.
-/
import Mathlib.Data.List.DropRight
import GuardedTrace.Proofs.CallCounts
import GuardedTrace.Proofs.Sessions
import GuardedTrace.Proofs.TracedGuards

namespace GuardedTrace

def CallPath.isFresh : CallPath → Bool
  | fresh _ => true
  | _ => false

/-- The graphs that are refused on the way to an artifact. -/
def Route.refusals : Route → Nat
  | .direct .compileFailed => 1
  | _ => 0

lemma CallStats.rejections_reject {stats : CallStats}
    (h : Table.Increasing compare stats.guardFailures)
    (text : String) : (stats.reject text).rejections = stats.rejections + 1 := by
  have hput := Table.total_putOrdered Table.linear_compare h id text
    ((stats.guardFailures.lookup text).getD 0 + 1)
  rw [Option.map_id] at hput
  simp only [rejections, reject, id_eq] at hput ⊢
  omega

namespace Gate

/-- The counts of a gate agree, with `pending` for a program whose call is in the log but not yet
accounted for, `fresh` calls served by an artifact that was made for them, and `refused` graphs. -/
structure Balanced (pending : Option Nat) (fresh refused : Nat) (gate : Gate) : Prop where
  arranged : gate.log.Arranged
  served : ∀ id, (gate.log.stats id).ok + (if pending = some id then 1 else 0) ≤
    (gate.log.stats id).total
  fallbacks : gate.metrics.fallbacks + pending.toList.length =
    Table.total CallStats.fallbacks gate.log
  rejections : gate.metrics.guardFailures = Table.total CallStats.rejections gate.log
  hits : gate.metrics.cacheHits + fresh = Table.total CallStats.ok gate.log
  traces : gate.metrics.traceAttempts = gate.metrics.compilations +
    gate.metrics.graphBreaks + refused
  failures : gate.metrics.executionFailures ≤ gate.metrics.fallbacks

namespace Balanced

variable {pending : Option Nat} {fresh refused id : Nat} {gate other : Gate}

lemma start (config : Config) (backend : Option Backend) : Balanced none 0 0 { config, backend } :=
  ⟨CallLog.arranged_nil, fun _ => Nat.le_refl _, rfl, rfl, rfl, rfl, Nat.le_refl _⟩

/-- Only the log and the metrics count. -/
lemma of_eq (h : Balanced pending fresh refused gate) (hlog : other.log = gate.log)
    (hmetrics : other.metrics = gate.metrics) : Balanced pending fresh refused other := by
  obtain ⟨harranged, hserved, hfallbacks, hrejections, hhits, htraces, hfailures⟩ := h
  rw [← hlog] at harranged hserved hfallbacks hrejections hhits
  rw [← hmetrics] at hfallbacks hrejections hhits htraces hfailures
  exact ⟨harranged, hserved, hfallbacks, hrejections, hhits, htraces, hfailures⟩

/-- The sums over all programs change by what the counts of one program change. -/
lemma totals_update (h : Balanced pending fresh refused gate) (id : Nat)
    (change : CallStats → CallStats) :
    Table.total CallStats.fallbacks (gate.log.update id change) + (gate.log.stats id).fallbacks =
        Table.total CallStats.fallbacks gate.log + (change (gate.log.stats id)).fallbacks ∧
      Table.total CallStats.rejections (gate.log.update id change) +
        (gate.log.stats id).rejections =
        Table.total CallStats.rejections gate.log + (change (gate.log.stats id)).rejections ∧
      Table.total CallStats.ok (gate.log.update id change) + (gate.log.stats id).ok =
        Table.total CallStats.ok gate.log + (change (gate.log.stats id)).ok :=
  ⟨h.arranged.total_update rfl id change, h.arranged.total_update rfl id change,
    h.arranged.total_update rfl id change⟩

/-- A call arrives. -/
lemma countCall (h : Balanced none fresh refused gate) (id : Nat) :
    Balanced (some id) fresh refused (gate.countCall id) := by
  have hid : (gate.log.stats id).ok ≤ (gate.log.stats id).total := h.served id
  let change (stats : CallStats) : CallStats := { stats with total := stats.total + 1 }
  obtain ⟨hfallbacks, hrejections, hok⟩ := h.totals_update id change
  refine ⟨h.arranged.recordCall id, fun other => ?_, ?_, ?_, ?_, h.traces, h.failures⟩
  · simp only [Gate.countCall, CallLog.recordCall, CallLog.stats_update, Option.some.injEq]
    split
    · next hother =>
      subst hother
      rw [if_pos rfl]
      exact Nat.succ_le_succ hid
    · next hother =>
      rw [if_neg (Ne.symm hother)]
      exact h.served other
  · -- The call is pending on one side and a fallback, so far, on the other.
    have hold := h.fallbacks
    simp only [CallStats.fallbacks, change] at hfallbacks
    simp only [Gate.countCall, CallLog.recordCall, Option.toList_none,
      List.length_nil, Option.toList_some, List.length_singleton] at hold ⊢
    omega
  · exact h.rejections.trans (Nat.add_right_cancel hrejections).symm
  · exact h.hits.trans (Nat.add_right_cancel hok).symm

/-- An artifact of a program is rejected. -/
lemma recordGuardFailure (h : Balanced pending fresh refused gate) (id : Nat) (text : String) :
    Balanced pending fresh refused { gate with
      log := gate.log.recordGuardFailure id text
      metrics := { gate.metrics with guardFailures := gate.metrics.guardFailures + 1 } } := by
  obtain ⟨hfallbacks, hrejections, hok⟩ := h.totals_update id fun stats => stats.reject text
  refine ⟨h.arranged.recordGuardFailure id text, fun other => ?_, ?_, ?_, ?_, h.traces, h.failures⟩
  · have hother := h.served other
    simp only [CallLog.recordGuardFailure, CallLog.stats_update]
    split
    · next heq => exact heq ▸ hother
    · exact hother
  · exact h.fallbacks.trans (Nat.add_right_cancel hfallbacks).symm
  · rw [CallStats.rejections_reject (h.arranged.texts id)] at hrejections
    have hold := h.rejections
    change gate.metrics.guardFailures + 1 =
      Table.total CallStats.rejections (gate.log.update id fun stats => stats.reject text)
    omega
  · exact h.hits.trans (Nat.add_right_cancel hok).symm

lemma recordRejections (h : Balanced pending fresh refused gate) (id : Nat) (guards : List Guard) :
    Balanced pending fresh refused (gate.recordRejections id guards) := by
  induction guards generalizing gate with
  | nil => exact h
  | cons guard rest ih =>
    refine (ih (h.recordGuardFailure id guard.written)).of_eq rfl ?_
    simp only [Gate.recordRejections, List.length_cons, Nat.add_comm, Nat.add_left_comm]

/-- An artifact serves the pending call. -/
lemma recordOk (h : Balanced (some id) fresh refused gate) (hits made : Nat)
    (hcount : hits + made = gate.metrics.cacheHits + fresh + 1) :
    Balanced none made refused { gate with
      log := gate.log.recordOk id
      metrics := { gate.metrics with cacheHits := hits } } := by
  have hid : (gate.log.stats id).ok + 1 ≤ (gate.log.stats id).total := by
    simpa using h.served id
  let change (stats : CallStats) : CallStats := { stats with ok := stats.ok + 1 }
  obtain ⟨hfallbacks, hrejections, hok⟩ := h.totals_update id change
  refine ⟨h.arranged.recordOk id, fun other => ?_, ?_, ?_, ?_, h.traces, h.failures⟩
  · have hother := h.served other
    simp only [CallLog.recordOk, CallLog.stats_update, reduceCtorEq, if_false]
    split
    · next heq =>
      subst heq
      exact hid
    · exact (Nat.le_add_right _ _).trans hother
  · have hold := h.fallbacks
    simp only [CallStats.fallbacks, change] at hfallbacks
    simp only [CallLog.recordOk, Option.toList_none, List.length_nil, Option.toList_some,
      List.length_singleton] at hold ⊢
    omega
  · exact h.rejections.trans (Nat.add_right_cancel hrejections).symm
  · have hold := h.hits
    simp only [change] at hok
    simp only [CallLog.recordOk]
    omega

/-- The pending call runs directly; `failures` counts an artifact that failed before. -/
lemma fallBack (h : Balanced (some id) fresh refused gate)
    (reason : FallbackReason) (failures : Nat)
    (hfailures : failures ≤ gate.metrics.executionFailures + 1) :
    Balanced none fresh refused
      ({ gate with metrics := { gate.metrics with executionFailures := failures } }.fallBack
        reason).2 := by
  refine ⟨h.arranged, fun other => ?_, h.fallbacks, h.rejections, h.hits, h.traces, ?_⟩
  · exact (Nat.le_add_right _ _).trans (h.served other)
  · exact hfailures.trans (Nat.succ_le_succ h.failures)

lemma retire (h : Balanced pending fresh refused gate) (id : Nat) :
    Balanced pending fresh refused (gate.retire id) := by
  rw [retire_eq]
  exact h.of_eq rfl rfl

/-- A trace is counted with its end. -/
lemma countTrace (h : Balanced pending fresh refused gate) (broken compiled more : Nat)
    (hend : broken + compiled + more = 1) :
    Balanced pending fresh (refused + more) (gate.countTrace broken compiled) := by
  refine ⟨h.arranged, h.served, h.fallbacks, h.rejections, h.hits, ?_, h.failures⟩
  have hold := h.traces
  simp only [Gate.countTrace]
  omega

end Balanced

variable {fresh refused : Nat} {gate routed : Gate} {code : Code} {frame : Frame}

/-- Going through the artifacts keeps the call pending. -/
lemma Routed.balanced {pending : Option Nat} {route : Route}
    (h : Routed gate code frame route routed)
    (hgate : Balanced pending fresh refused gate) :
    Balanced pending fresh (refused + route.refusals) routed := by
  cases h with
  | hit _ | noBackend _ _ _ => exact hgate.recordRejections code.id _
  | full _ _ =>
    refine Balanced.retire ?_ code.id
    exact (hgate.recordRejections code.id _).of_eq rfl rfl
  | graphBreak _ _ _ _ =>
    exact ((hgate.recordRejections code.id _).countTrace 1 0 0 rfl).retire code.id
  | refused _ _ _ _ _ =>
    exact ((hgate.recordRejections code.id _).countTrace 0 0 1 rfl).retire code.id
  | compiled _ _ _ _ _ =>
    exact ((hgate.recordRejections code.id _).countTrace 0 1 0 rfl).of_eq rfl rfl

/-- A call that is served by an artifact, or runs directly because the artifact fails. -/
lemma Balanced.serve (h : Balanced (some code.id) fresh refused gate)
    (frame : Frame) (artifact : Artifact)
    {path : CallPath} (hpath : path.isFallback = false) :
    (gate.serve code frame artifact path).1.path ≠ .fallback .compileFailed ∧
      Balanced none (fresh + if (gate.serve code frame artifact path).1.path.isFresh
        then 1 else 0) refused
        (gate.serve code frame artifact path).2 := by
  unfold Gate.serve
  split
  · cases path with
    | cached position =>
      exact ⟨nofun, h.recordOk _ _ (by simp [Decision.path, CallPath.isFresh]; omega)⟩
    | fresh position =>
      exact ⟨nofun, h.recordOk _ _ (by simp [Decision.path, CallPath.isFresh]; omega)⟩
    | fallback reason => cases hpath
  · exact ⟨nofun, h.fallBack _ _ (Nat.le_refl _)⟩

/-- **A decision keeps the books**, with its own call served by a new artifact, or with a graph
refused. -/
lemma Balanced.decide (h : Balanced none fresh refused gate) (code : Code) (frame : Frame) :
    Balanced none (fresh + if (gate.decide code frame).1.path.isFresh then 1 else 0)
      (refused + if (gate.decide code frame).1.path = .fallback .compileFailed then 1 else 0)
      (gate.decide code frame).2 := by
  have hcounted := h.countCall code.id
  have hdecides := decides gate code frame
  generalize gate.decide code frame = decided at hdecides
  cases hdecides with
  | retired _ | early _ _ => exact hcounted.fallBack _ _ (Nat.le_succ _)
  | @artifact _ _ artifact path routed hrouted =>
    have hbalanced := hrouted.balanced hcounted
    -- The way to an artifact is never a fallback, so its success is a hit or a fresh call.
    have hpath : path.isFallback = false := by cases hrouted <;> rfl
    obtain ⟨hne, hserved⟩ := hbalanced.serve frame artifact hpath
    rw [if_neg hne]
    exact hserved
  | @direct _ _ reason routed hrouted =>
    have hbalanced := hrouted.balanced hcounted
    have hrefusals : (Route.direct reason).refusals =
        if CallPath.fallback reason = .fallback .compileFailed then 1 else 0 := by
      cases reason <;> rfl
    rw [hrefusals] at hbalanced
    exact hbalanced.fallBack _ _ (Nat.le_succ _)

/-! ### Sessions -/

def Request.isReset : Request → Bool
  | reset => true
  | _ => false

/-- The way of a call; other requests have none. -/
def Entry.path? (entry : Entry) : Option CallPath :=
  match entry.reply with
  | .answered path _ => some path
  | .done => none

/-- The entries behind the last reset of the whole gate. -/
def sinceReset (entries : List Entry) : List Entry :=
  entries.rtakeWhile fun entry => !entry.request.isReset

/-- The calls that were served by an artifact that was made for them. -/
def freshCalls (entries : List Entry) : Nat :=
  entries.countP fun entry => entry.path?.any CallPath.isFresh

/-- The calls whose graph was refused. -/
def refusedCalls (entries : List Entry) : Nat :=
  entries.countP fun entry => entry.path? = some (.fallback .compileFailed)

/-- The books of a gate after these entries. -/
def Booked (entries : List Entry) (gate : Gate) : Prop :=
  Balanced none (freshCalls (sinceReset entries)) (refusedCalls (sinceReset entries)) gate

lemma sinceReset_quiet {request : Request} (hquiet : request.isReset = false)
    (entries : List Entry) (reply : Reply) :
    sinceReset (entries ++ [⟨request, reply⟩]) = sinceReset entries ++ [⟨request, reply⟩] := by
  rw [sinceReset, List.rtakeWhile_concat, if_pos (by simp [hquiet])]
  rfl

lemma sinceReset_reset (entries : List Entry) (reply : Reply) :
    sinceReset (entries ++ [⟨.reset, reply⟩]) = [] := by
  rw [sinceReset, List.rtakeWhile_concat, if_neg (by simp [Request.isReset])]

lemma freshCalls_answered (entries : List Entry) (request : Request) (path : CallPath)
    (outcome : Run Outcome) :
    freshCalls (entries ++ [⟨request, .answered path outcome⟩]) =
      freshCalls entries + if path.isFresh then 1 else 0 := by
  rw [freshCalls, List.countP_append, List.countP_singleton]
  rfl

lemma refusedCalls_answered (entries : List Entry) (request : Request) (path : CallPath)
    (outcome : Run Outcome) :
    refusedCalls (entries ++ [⟨request, .answered path outcome⟩]) =
      refusedCalls entries + if path = .fallback .compileFailed then 1 else 0 := by
  rw [refusedCalls, List.countP_append, List.countP_singleton]
  simp [Entry.path?, refusedCalls]

/-- A request that is no call leaves the counts of calls as they are. -/
lemma Booked.quiet {entries : List Entry} {other : Gate}
    (h : Booked entries gate) {request : Request}
    (hquiet : request.isReset = false) (hlog : other.log = gate.log)
    (hmetrics : other.metrics = gate.metrics) :
    Booked (entries ++ [⟨request, .done⟩]) other := by
  have hcounts : freshCalls (sinceReset entries ++ [⟨request, .done⟩]) =
      freshCalls (sinceReset entries) ∧
      refusedCalls (sinceReset entries ++ [⟨request, .done⟩]) =
        refusedCalls (sinceReset entries) := by
    simp [freshCalls, refusedCalls, Entry.path?]
  unfold Booked
  rw [sinceReset_quiet hquiet, hcounts.1, hcounts.2]
  exact h.of_eq hlog hmetrics

/-- A request keeps the books; a reset starts new ones. -/
lemma Booked.perform {entries : List Entry} (h : Booked entries gate) {request : Request}
    (hwhole : ∀ id, request ≠ .resetCode id) :
    Booked (entries ++ [⟨request, (gate.perform request).1⟩]) (gate.perform request).2 := by
  cases request with
  | call made original =>
    unfold Booked
    rw [perform_call, sinceReset_quiet rfl, freshCalls_answered, refusedCalls_answered]
    exact Balanced.decide h made.code made.frame
  | register _ | drift _ => exact h.quiet rfl rfl rfl
  | reset =>
    unfold Booked
    rw [sinceReset_reset]
    exact .start gate.config gate.backend
  | resetCode id => exact absurd rfl (hwhole id)

lemma booked_performAll (config : Config) {requests : List Request}
    (hwhole : ∀ id, .resetCode id ∉ requests) :
    Booked (performAll { config } requests).1 (performAll { config } requests).2 := by
  -- From the end: what stands behind the last reset grows by the entry of the last request.
  induction requests using List.reverseRecOn with
  | nil => exact .start config none
  | append_singleton rest request ih =>
    have hrest : ∀ id, .resetCode id ∉ rest := fun id hid => hwhole id (List.mem_append_left _ hid)
    have hlast : ∀ id, request ≠ .resetCode id := by
      rintro id rfl
      exact hwhole id (by simp)
    rw [performAll_append]
    exact (ih hrest).perform hlast

/-- **The books balance.**  After any calls, registrations and resets of a new gate, whatever
compilers, artifacts and direct runs give, and counted since the last reset: no program was served
more often than it was called; the fallbacks are the calls that no artifact served; the guard
failures are the rejections in the log; the hits and the calls served by a new artifact are the
calls that were served; every trace gave an artifact, broke off or had its graph refused; and an
artifact that failed is one of the fallbacks. -/
theorem accounts_balance {config : Config} {requests : List Request}
    {entries : List Entry} {last : Gate}
    (hwhole : ∀ id, .resetCode id ∉ requests)
    (h : performAll { config } requests = (entries, last)) :
    (∀ id, (last.log.stats id).ok ≤ (last.log.stats id).total) ∧
      last.metrics.fallbacks = Table.total CallStats.fallbacks last.log ∧
      last.metrics.guardFailures = Table.total CallStats.rejections last.log ∧
      last.metrics.cacheHits + freshCalls (sinceReset entries) = Table.total CallStats.ok last.log ∧
      last.metrics.traceAttempts =
        last.metrics.compilations + last.metrics.graphBreaks + refusedCalls (sinceReset entries) ∧
      last.metrics.executionFailures ≤ last.metrics.fallbacks := by
  have hbooked := booked_performAll config hwhole
  rw [h] at hbooked
  exact ⟨hbooked.served, hbooked.fallbacks, hbooked.rejections, hbooked.hits,
    hbooked.traces, hbooked.failures⟩

/-- A call without a compiler, a reset, and four calls with one, the last of which has its graph
refused. -/
def bookedRequests : List Request :=
  let call (number : Int64) : Request := .call ⟨heldSum, heldFrame number⟩ (.ok .none)
  [call 6, .reset, .register (evaluator 100), call 7, call 7, call 8, .register
    fun _ _ => .error "refused", call 9]

/-- Two artifacts are made and one is used again; three times an artifact is rejected; and one graph
is refused. -/
theorem bookedRequests_balance : ∃ entries last, performAll {} bookedRequests = (entries, last) ∧
    last.metrics =
      { traceAttempts := 3, compilations := 2, guardFailures := 3, cacheHits := 1,
        fallbacks := 1 } ∧
    1 + freshCalls (sinceReset entries) = Table.total CallStats.ok last.log ∧
    3 = 2 + 0 + refusedCalls (sinceReset entries) ∧
      3 = Table.total CallStats.rejections last.log := by
  have hmetrics : (performAll {} bookedRequests).2.metrics =
      { traceAttempts := 3, compilations := 2, guardFailures := 3, cacheHits := 1,
        fallbacks := 1 } := by
    decide +kernel
  have hwhole : ∀ id, .resetCode id ∉ bookedRequests := by
    intro id
    simp only [bookedRequests, List.mem_cons, List.not_mem_nil, reduceCtorEq,
      or_self, not_false_iff]
  rcases hperform : performAll {} bookedRequests with ⟨entries, last⟩
  rw [hperform] at hmetrics
  obtain ⟨-, -, hrejections, hhits, htraces, -⟩ := accounts_balance hwhole hperform
  rw [hmetrics] at hrejections hhits htraces
  exact ⟨entries, last, rfl, hmetrics, hhits, htraces, hrejections⟩

end Gate

end GuardedTrace
