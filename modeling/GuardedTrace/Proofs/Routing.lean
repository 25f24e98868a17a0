/-
The ways of a call through a gate.

A decision first counts the call.  Unless the program is retired or was called too rarely, the
artifacts are then gone through in order, which counts the rejections, and this comes to one of six
ends: an artifact fits; the cache is full; there is no compiler; the trace breaks off; its graph is
refused; or there is a new artifact.  `Gate.Routed` lists them with the gate that each leaves, and
`Gate.Decides` lists what a decision makes of them.
-/
import GuardedTrace.Proofs.Histories

namespace GuardedTrace

/-- The way of a call that is decided about. -/
def Decision.path : Decision → CallPath
  | .served outcome => outcome.path
  | .direct reason => .fallback reason

/-- What a call gives when its direct run, if there is one, gives `original`. -/
def Decision.outcome (original : Run Value) : Decision → Run Outcome
  | .served outcome => .ok outcome
  | .direct reason => original.map fun value => ⟨value, .fallback reason⟩

/-! ### Artifacts of a program -/

namespace Cache

/-- The artifacts of a program with one that is made for it. -/
def added (artifacts : List Artifact) (artifact : Artifact) : List Artifact :=
  if artifacts.any (·.isEquivalent artifact) then artifacts else artifacts ++ [artifact]

variable (cache : Cache) (code other : Nat) (artifact : Artifact)

/-- The position of an artifact is that of the first one equivalent to it, or the end. -/
lemma append_fst : (cache.append code artifact).1 = (cache.artifacts code).findIdx
    (·.isEquivalent artifact) := by
  unfold append
  dsimp only
  split
  · next position hfound => exact (List.findIdx?_eq_some_iff_findIdx_eq.1 hfound).2.symm
  · next hfound => exact (List.findIdx_eq_length.2 (List.findIdx?_eq_none_iff.1 hfound)).symm

lemma artifacts_append : (cache.append code artifact).2.artifacts other =
    if other = code then added (cache.artifacts code) artifact else cache.artifacts other := by
  unfold append added
  dsimp only
  split
  · next position hfound =>
    have hany : (cache.artifacts code).any (·.isEquivalent artifact) = true := by
      rw [← List.findIdx?_isSome, hfound]
      rfl
    rw [hany, if_pos rfl]
    split
    · next h => rw [h]
    · rfl
  · next hfound =>
    have hany : (cache.artifacts code).any (·.isEquivalent artifact) = false := by
      rw [← List.findIdx?_isSome, hfound]
      rfl
    rw [hany, if_neg Bool.false_ne_true]
    by_cases h : other = code
    · subst h
      rw [if_pos rfl, artifacts, Table.lookup_put_self, Option.getD_some]
    · rw [if_neg h, artifacts, Table.lookup_put_of_ne _ _ h, artifacts]

end Cache

/-! ### One call -/

namespace Gate

variable {gate after : Gate} {code : Code} {frame : Frame}

/-- Retiring a program changes nothing else. -/
lemma retire_eq (gate : Gate) (code : Nat) :
    gate.retire code = { gate with retired := (gate.retire code).retired } := by
  unfold retire
  split <;> rfl

/-- Counts a call of a program. -/
def countCall (gate : Gate) (code : Nat) : Gate := { gate with log := gate.log.recordCall code }

/-- Counts a trace, and whether it broke off or gave an artifact. -/
def countTrace (gate : Gate) (broken compiled : Nat) : Gate :=
  { gate with metrics := { gate.metrics with
      traceAttempts := gate.metrics.traceAttempts + 1
      graphBreaks := gate.metrics.graphBreaks + broken
      compilations := gate.metrics.compilations + compiled } }

/-- What going through the artifacts of a program comes to. -/
inductive Routed (gate : Gate) (code : Code) (frame : Frame) : Route → Gate → Prop where
  | hit {position : Nat} {artifact : Artifact} {rejected : List Guard}
    (hfound : firstMatch frame 0 (gate.cache.artifacts code.id) =
      (some (position, artifact), rejected)) :
    Routed gate code frame (.artifact artifact (.cached position))
      (gate.recordRejections code.id rejected)
  | full {rejected : List Guard}
    (hmiss : firstMatch frame 0 (gate.cache.artifacts code.id) = (none, rejected))
    (hfull : gate.config.cacheSizeCeiling ≤ (gate.cache.artifacts code.id).length) :
    Routed gate code frame (.direct .ceilingReached)
      (retire { gate.recordRejections code.id rejected with
        cache := gate.cache.erase code.id } code.id)
  | noBackend {rejected : List Guard}
    (hmiss : firstMatch frame 0 (gate.cache.artifacts code.id) = (none, rejected))
    (hroom : (gate.cache.artifacts code.id).length < gate.config.cacheSizeCeiling)
    (hbackend : gate.backend = none) :
    Routed gate code frame (.direct .noBackend) (gate.recordRejections code.id rejected)
  | graphBreak {rejected : List Guard} {backend : Backend} {stop : TraceBreak}
    (hmiss : firstMatch frame 0 (gate.cache.artifacts code.id) = (none, rejected))
    (hroom : (gate.cache.artifacts code.id).length < gate.config.cacheSizeCeiling)
    (hbackend : gate.backend = some backend) (htrace : trace code frame gate.config = .error stop) :
    Routed gate code frame (.direct .graphBreak)
      (retire ((gate.recordRejections code.id rejected).countTrace 1 0) code.id)
  | refused {rejected : List Guard} {backend : Backend} {output : TraceOutput} {report : String}
    (hmiss : firstMatch frame 0 (gate.cache.artifacts code.id) = (none, rejected))
    (hroom : (gate.cache.artifacts code.id).length < gate.config.cacheSizeCeiling)
    (hbackend : gate.backend = some backend) (htrace : trace code frame gate.config = .ok output)
    (hcompile : backend output.graph output.layers = .error report) :
    Routed gate code frame (.direct .compileFailed)
      (retire ((gate.recordRejections code.id rejected).countTrace 0 0) code.id)
  | compiled {rejected : List Guard} {backend : Backend} {output : TraceOutput}
    {execute : Executable}
    (hmiss : firstMatch frame 0 (gate.cache.artifacts code.id) = (none, rejected))
    (hroom : (gate.cache.artifacts code.id).length < gate.config.cacheSizeCeiling)
    (hbackend : gate.backend = some backend) (htrace : trace code frame gate.config = .ok output)
    (hcompile : backend output.graph output.layers = .ok execute) :
    Routed gate code frame
      (.artifact (output.artifact execute)
        (.fresh (gate.cache.append code.id (output.artifact execute)).1))
      { (gate.recordRejections code.id rejected).countTrace 0 1 with
        cache := (gate.cache.append code.id (output.artifact execute)).2 }

section

variable {backend : Backend} {output : TraceOutput}

lemma compileFresh_of_break {stop : TraceBreak}
    (htrace : trace code frame gate.config = .error stop) :
    gate.compileFresh backend code frame =
      (.direct .graphBreak, retire (gate.countTrace 1 0) code.id) := by
  unfold compileFresh
  rw [htrace]
  rfl

lemma compileFresh_of_refusal {report : String} (htrace : trace code frame gate.config = .ok output)
    (hcompile : backend output.graph output.layers = .error report) :
    gate.compileFresh backend code frame =
      (.direct .compileFailed, retire (gate.countTrace 0 0) code.id) := by
  unfold compileFresh
  simp only [htrace, hcompile]
  rfl

lemma compileFresh_of_artifact {execute : Executable}
    (htrace : trace code frame gate.config = .ok output)
    (hcompile : backend output.graph output.layers = .ok execute) :
    gate.compileFresh backend code frame =
      (.artifact (output.artifact execute)
        (.fresh (gate.cache.append code.id (output.artifact execute)).1),
        { gate.countTrace 0 1 with
          cache := (gate.cache.append code.id (output.artifact execute)).2 }) := by
  unfold compileFresh
  simp only [htrace, hcompile]
  rfl

end

/-- Going through the artifacts comes to one of the ends listed. -/
theorem routed {gate : Gate} {code : Code}
    (hopen : gate.isRetired code.id = false) (frame : Frame) :
    Routed gate code frame (gate.route code frame).1 (gate.route code frame).2 := by
  rw [route_eq hopen]
  rcases hfound : firstMatch frame 0 (gate.cache.artifacts code.id) with
      ⟨_ | ⟨position, artifact⟩, rejected⟩
  · -- Counting rejections leaves settings, compiler and artifacts alone, so what holds of them held
    -- before.
    let scanned := gate.recordRejections code.id rejected
    change Routed gate code frame (scanned.routeAnew code frame).1 (scanned.routeAnew code frame).2
    unfold routeAnew
    by_cases hfull : gate.config.cacheSizeCeiling ≤ (gate.cache.artifacts code.id).length
    · have hscanned : scanned.config.cacheSizeCeiling ≤ (scanned.cache.artifacts code.id).length :=
        hfull
      rw [if_pos hscanned]
      exact .full hfound hfull
    have hscanned : ¬ scanned.config.cacheSizeCeiling ≤ (scanned.cache.artifacts code.id).length :=
      hfull
    have hroom := not_le.1 hfull
    rw [if_neg hscanned]
    split
    · next hbackend => exact .noBackend hfound hroom hbackend
    next backend hbackend =>
    cases htrace : trace code frame scanned.config with
    | error stop =>
      rw [compileFresh_of_break htrace]
      exact .graphBreak hfound hroom hbackend htrace
    | ok output =>
      cases hcompile : backend output.graph output.layers with
      | error report =>
        rw [compileFresh_of_refusal htrace hcompile]
        exact .refused hfound hroom hbackend htrace hcompile
      | ok execute =>
        rw [compileFresh_of_artifact htrace hcompile]
        exact .compiled hfound hroom hbackend htrace hcompile
  · exact .hit hfound

/-- What a decision makes of a call. -/
inductive Decides (gate : Gate) (code : Code) (frame : Frame) : Decision × Gate → Prop where
  | retired (hretired : gate.isRetired code.id = true) :
    Decides gate code frame ((gate.countCall code.id).fallBack .fallbackOnly)
  | early (hopen : gate.isRetired code.id = false)
    (hearly : ((gate.countCall code.id).log.stats code.id).total < gate.config.minimumCallCount) :
    Decides gate code frame ((gate.countCall code.id).fallBack .belowCallThreshold)
  | artifact (hopen : gate.isRetired code.id = false)
    (hdue : gate.config.minimumCallCount ≤ ((gate.countCall code.id).log.stats code.id).total)
    {artifact : Artifact} {path : CallPath} {routed : Gate}
    (hrouted : Routed (gate.countCall code.id) code frame (.artifact artifact path) routed) :
    Decides gate code frame (routed.serve code frame artifact path)
  | direct (hopen : gate.isRetired code.id = false)
    (hdue : gate.config.minimumCallCount ≤ ((gate.countCall code.id).log.stats code.id).total)
    {reason : FallbackReason} {routed : Gate}
    (hrouted : Routed (gate.countCall code.id) code frame (.direct reason) routed) :
    Decides gate code frame (routed.fallBack reason)

lemma decide_eq (gate : Gate) (code : Code) (frame : Frame) : gate.decide code frame =
    if gate.isRetired code.id then (gate.countCall code.id).fallBack .fallbackOnly
    else if ((gate.countCall code.id).log.stats code.id).total < gate.config.minimumCallCount then
      (gate.countCall code.id).fallBack .belowCallThreshold
    else match (gate.countCall code.id).route code frame with
      | (.artifact artifact path, routed) => routed.serve code frame artifact path
      | (.direct reason, routed) => routed.fallBack reason := rfl

/-- A decision does one of the things listed. -/
theorem decides (gate : Gate) (code : Code) (frame : Frame) :
    Decides gate code frame (gate.decide code frame) := by
  rw [decide_eq]
  split
  · next hretired => exact .retired hretired
  next hopen =>
  have hopen' : gate.isRetired code.id = false := by simpa using hopen
  have hcounted : (gate.countCall code.id).isRetired code.id = false := hopen'
  have hrouted := routed hcounted frame
  split
  · next hearly => exact .early hopen' hearly
  next hdue =>
  split
  · next artifact path middle hroute =>
    rw [hroute] at hrouted
    exact .artifact hopen' (not_lt.1 hdue) hrouted
  · next reason middle hroute =>
    rw [hroute] at hrouted
    exact .direct hopen' (not_lt.1 hdue) hrouted

/-- What a call gives, by the decision about it and by what its direct run gives. -/
lemma call_eq (gate : Gate) (code : Code) (frame : Frame) (directly : Gate → Run Value × Gate) :
    (gate.call code frame directly).1 =
      (gate.decide code frame).1.outcome (directly (gate.decide code frame).2).1 := by
  unfold call
  rcases gate.decide code frame with ⟨outcome | reason, after⟩
  · rfl
  · simp only [complete, Decision.outcome]
    rcases directly after with ⟨_ | _, last⟩ <;> rfl

end Gate

end GuardedTrace
