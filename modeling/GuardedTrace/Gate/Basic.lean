/-
The gate in front of every call.

A gate decides how a call runs: by a cached artifact whose guards hold, by an artifact that it
traces and compiles now, or directly.  Nothing that goes wrong on the way to an artifact reaches the
caller; it only changes the way the call takes.  A program that cannot be traced or compiled, or
that misses its full cache, is *retired* and runs directly from then on.

`decide` takes the decision, and `call` runs the program directly when the decision says so.  The
counts in `Metrics` are natural numbers without a bound; counters of 64 bits agree with them below
2 ^ 64, where they would start again at 0.
-/
import GuardedTrace.Direct.Run
import GuardedTrace.Gate.Cache
import GuardedTrace.Gate.CallLog

namespace GuardedTrace

/-- Why a call runs directly. -/
inductive FallbackReason where
  /-- There were too few calls so far. -/
  | belowCallThreshold
  /-- The program was retired before. -/
  | fallbackOnly
  | noBackend
  /-- The trace broke off; the program is retired now. -/
  | graphBreak
  /-- No artifact fits and the cache is full; the program is retired now. -/
  | ceilingReached
  /-- The graph was refused; the program is retired now. -/
  | compileFailed
  /-- The artifact failed; this concerns only this call. -/
  | executionFailed
deriving DecidableEq

def FallbackReason.label : FallbackReason → String
  | belowCallThreshold => "BelowCallThreshold"
  | fallbackOnly => "FallbackOnly"
  | noBackend => "NoBackend"
  | graphBreak => "GraphBreak"
  | ceilingReached => "CeilingReached"
  | compileFailed => "CompileFailed"
  | executionFailed => "ExecutionFailed"

/-- How a call was served. -/
inductive CallPath where
  | cached (position : Nat)
  | fresh (position : Nat)
  | fallback (reason : FallbackReason)
deriving DecidableEq

def CallPath.isFallback : CallPath → Bool
  | fallback _ => true
  | _ => false

/-- The way of a call as it is written: its kind, and the position or the reason. -/
def CallPath.written : CallPath → String
  | cached position => "cached:" ++ Text.showNat position
  | fresh position => "fresh:" ++ Text.showNat position
  | fallback reason => "fallback:" ++ reason.label

/-- The value of a call and how it was served. -/
structure Outcome where
  value : Value
  path : CallPath

/-- Counts of what a gate did. -/
structure Metrics where
  traceAttempts : Nat := 0
  compilations : Nat := 0
  graphBreaks : Nat := 0
  guardFailures : Nat := 0
  cacheHits : Nat := 0
  fallbacks : Nat := 0
  executionFailures : Nat := 0
deriving DecidableEq

/-- A gate: its settings, its compiler if there is one, and what it remembers of earlier calls. -/
structure Gate where
  config : Config := {}
  backend : Option Backend := none
  cache : Cache := []
  log : CallLog := []
  metrics : Metrics := {}
  /-- The programs that always run directly. -/
  retired : List Nat := []

/-- How a call is to run: served by an artifact, or directly. -/
inductive Decision where
  | served (outcome : Outcome)
  | direct (reason : FallbackReason)

/-- An artifact for a call, or the reason why there is none. -/
inductive Route where
  | artifact (artifact : Artifact) (path : CallPath)
  | direct (reason : FallbackReason)

/-- The first artifact whose guards hold on a frame, with its position, and the guards that
rejected the artifacts before it.  `position` is the position of the first artifact of the list. -/
def firstMatch (frame : Frame) : Nat → List Artifact → Option (Nat × Artifact) × List Guard
  | _, [] => (none, [])
  | position, artifact :: rest =>
    match artifact.guards.failure? frame with
    | none => (some (position, artifact), [])
    | some failure =>
      let found := firstMatch frame (position + 1) rest
      (found.1, failure.guard :: found.2)

namespace Gate

def isRetired (gate : Gate) (code : Nat) : Bool := gate.retired.contains code

/-- Retires a program. -/
def retire (gate : Gate) (code : Nat) : Gate :=
  if gate.isRetired code then gate else { gate with retired := gate.retired ++ [code] }

/-- Records the rejections of artifacts of a program. -/
def recordRejections (gate : Gate) (code : Nat) (guards : List Guard) : Gate :=
  { gate with
    metrics := { gate.metrics with
      guardFailures := gate.metrics.guardFailures + guards.length }
    log := guards.foldl (fun log guard => log.recordGuardFailure code guard.written) gate.log }

/-- Traces and compiles a program for a frame, and caches the artifact. -/
def compileFresh (gate : Gate) (backend : Backend) (code : Code) (frame : Frame) : Route × Gate :=
  let tried := { gate with
    metrics := { gate.metrics with traceAttempts := gate.metrics.traceAttempts + 1 } }
  match trace code frame gate.config with
  | .error _ =>
    (.direct .graphBreak, retire { tried with
      metrics := { tried.metrics with graphBreaks := tried.metrics.graphBreaks + 1 } } code.id)
  | .ok output =>
    match backend output.graph output.layers with
    | .error _ => (.direct .compileFailed, tried.retire code.id)
    | .ok execute =>
      let artifact : Artifact :=
        { guards := output.guards
          inputs := output.inputs
          graph := output.graph
          layers := output.layers
          execute }
      let (position, cache) := tried.cache.append code.id artifact
      (.artifact artifact (.fresh position), { tried with
        cache
        metrics := { tried.metrics with compilations := tried.metrics.compilations + 1 } })

/-- The first artifact at or after the position `scanned` whose guards hold on a frame, and the
position behind the last artifact that was checked.  Every artifact that is passed over is recorded
under the guard that rejected it. -/
def lookup (gate : Gate) (code : Nat) (frame : Frame) (scanned : Nat) :
    Option (Nat × Artifact) × Nat × Gate :=
  let (found, rejected) := firstMatch frame scanned ((gate.cache.artifacts code).drop scanned)
  let checked := match found with
    | some (position, _) => position + 1
    | none => scanned + rejected.length
  (found, checked, gate.recordRejections code rejected)

/-- Decides about a call that no cached artifact fits: an artifact is made unless the cache is full
or there is no compiler. -/
def routeAnew (gate : Gate) (code : Code) (frame : Frame) : Route × Gate :=
  if gate.config.cacheSizeCeiling ≤ (gate.cache.artifacts code.id).length then
    (.direct .ceilingReached,
      retire { gate with cache := (gate.cache.invalidate code.id).2 } code.id)
  else
    match gate.backend with
    | none => (.direct .noBackend, gate)
    | some backend => gate.compileFresh backend code frame

/-- Decides about a call that missed the cache.  Since the miss another caller may have retired the
program or added artifacts to the `scanned` ones that were checked, so both are looked at again. -/
def resolveMiss (gate : Gate) (code : Code) (frame : Frame) (scanned : Nat) : Route × Gate :=
  if gate.isRetired code.id then (.direct .fallbackOnly, gate)
  else
    match gate.lookup code.id frame scanned with
    | (some (position, artifact), _, recorded) => (.artifact artifact (.cached position), recorded)
    | (none, _, recorded) => recorded.routeAnew code frame

/-- Finds an artifact for a call. -/
def route (gate : Gate) (code : Code) (frame : Frame) : Route × Gate :=
  match gate.lookup code.id frame 0 with
  | (some (position, artifact), _, recorded) => (.artifact artifact (.cached position), recorded)
  | (none, scanned, recorded) => recorded.resolveMiss code frame scanned

/-- Counts a call that runs directly. -/
def fallBack (gate : Gate) (reason : FallbackReason) : Decision × Gate :=
  (.direct reason,
    { gate with metrics := { gate.metrics with fallbacks := gate.metrics.fallbacks + 1 } })

/-- Runs an artifact; a failure makes this call run directly. -/
def serve (gate : Gate) (code : Code) (frame : Frame) (artifact : Artifact) (path : CallPath) :
    Decision × Gate :=
  match artifact.run frame with
  | .ok value =>
    let hits := match path with
      | .cached _ => gate.metrics.cacheHits + 1
      | _ => gate.metrics.cacheHits
    (.served ⟨value, path⟩,
      { gate with
        log := gate.log.recordOk code.id
        metrics := { gate.metrics with cacheHits := hits } })
  | .error _ =>
    fallBack { gate with metrics := { gate.metrics with
      executionFailures := gate.metrics.executionFailures + 1 } } .executionFailed

/-- Decides how a call runs.  The reasons to run directly are looked at in this order: the program
is retired, it was called too rarely, its cache is full, there is no compiler, its trace breaks
off, its graph is refused, the artifact fails. -/
def decide (gate : Gate) (code : Code) (frame : Frame) : Decision × Gate :=
  let counted := { gate with log := gate.log.recordCall code.id }
  if counted.isRetired code.id then counted.fallBack .fallbackOnly
  else if (counted.log.stats code.id).total < counted.config.minimumCallCount then
    counted.fallBack .belowCallThreshold
  else
    match counted.route code frame with
    | (.artifact artifact path, routed) => routed.serve code frame artifact path
    | (.direct reason, routed) => routed.fallBack reason

/-- Completes a decision: a call without an artifact is left to `directly`, which sees the gate and
may change it. -/
def complete (decision : Decision × Gate) (directly : Gate → Run Value × Gate) :
    Run Outcome × Gate :=
  match decision with
  | (.served outcome, gate) => (.ok outcome, gate)
  | (.direct reason, gate) =>
    match directly gate with
    | (.ok value, gate) => (.ok ⟨value, .fallback reason⟩, gate)
    | (.error error, gate) => (.error error, gate)

/-- Calls a program through the gate.  `directly` is the way to run it without an artifact; it is
used at most once. -/
def call (gate : Gate) (code : Code) (frame : Frame) (directly : Gate → Run Value × Gate) :
    Run Outcome × Gate :=
  complete (gate.decide code frame) directly

/-- Calls a program through the gate, with a direct run as the way to run it directly; nothing when
a direct run uses up its fuel. -/
def callThrough (fuel : Nat) (gate : Gate) (code : Code) (frame : Frame) :
    Option (Run Outcome × Gate) :=
  match gate.decide code frame with
  | (.served outcome, after) => some (.ok outcome, after)
  | (.direct reason, after) =>
    (code.run fuel frame).map fun result =>
      complete (.direct reason, after) fun gate => (result, gate)

/-- Calls a program whose direct run calls it through the gate once more, and also gives the outcome
of that inner call, if there was one.  An error of the inner call reaches the outer one as a
report. -/
def callReentrant (fuel : Nat) (gate : Gate) (code : Code) (frame : Frame) :
    Option ((Run Outcome × Gate) × Option (Run Outcome)) :=
  match gate.decide code frame with
  | (.served outcome, after) => some ((.ok outcome, after), none)
  | (.direct reason, after) =>
    (after.callThrough fuel code frame).map fun (inner, last) =>
      let result : Run Value := match inner with
        | .ok outcome => .ok outcome.value
        | .error error => .error (.system (.reported error.message))
      (complete (.direct reason, last) fun gate => (result, gate), some inner)

/-- Forgets everything but settings and compiler. -/
def reset (gate : Gate) : Gate := { config := gate.config, backend := gate.backend }

/-- Forgets everything about one program; the metrics stay. -/
def resetCode (gate : Gate) (code : Nat) : Gate :=
  { gate with
    cache := (gate.cache.invalidate code).2
    log := gate.log.resetCode code
    retired := gate.retired.filter (· != code) }

end Gate

end GuardedTrace
