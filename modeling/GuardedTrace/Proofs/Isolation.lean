/-
Programs do not interfere.

What a gate remembers of a program is its artifacts, its counts and whether it is retired.  A
request that concerns a program is answered by this memory and by the settings and the compiler
alone, and what it does to the memory is determined as well; a request that concerns only another
program leaves the memory as it is.  So a program is served as if nothing was ever asked about the
others.
-/
import GuardedTrace.Proofs.CallCounts
import GuardedTrace.Proofs.Sessions
import GuardedTrace.Proofs.TracedGuards

namespace GuardedTrace

namespace Gate

/-- Two gates that work alike and remember the same of one program. -/
structure Alike (id : Nat) (gate other : Gate) : Prop where
  config : gate.config = other.config
  backend : gate.backend = other.backend
  artifacts : gate.cache.artifacts id = other.cache.artifacts id
  stats : gate.log.stats id = other.log.stats id
  retired : gate.isRetired id = other.isRetired id

/-- Equal results, and gates that are alike for a program. -/
structure SameFor {α : Type} (id : Nat) (result other : α × Gate) : Prop where
  value : result.1 = other.1
  gates : Alike id result.2 other.2

/-- The request is about this program, or about all programs. -/
def Request.concerns (id : Nat) : Request → Bool
  | .call asked _ => asked.code.id = id
  | .resetCode code => code = id
  | .register _ | .drift _ | .reset => true

section

variable {id code : Nat} {gate middle other : Gate}

lemma isRetired_retire (gate : Gate) (code id : Nat) :
    (gate.retire code).isRetired id = (id == code || gate.isRetired id) := by
  unfold Gate.retire
  split
  · next hretired =>
    by_cases hid : id = code
    · simp [hid, hretired]
    · simp [hid]
  · simp only [Gate.isRetired, List.contains_append, List.contains_cons,
      List.contains_nil, Bool.or_false]
    exact Bool.or_comm _ _

/-- What is remembered of a program after one is forgotten. -/
lemma stats_resetCode (gate : Gate) (code id : Nat) :
    (gate.resetCode code).log.stats id = if id = code then {} else gate.log.stats id := by
  unfold CallLog.stats
  rw [show (gate.resetCode code).log = Table.erase code gate.log from rfl, Table.lookup_erase]
  split <;> rfl

lemma isRetired_resetCode (gate : Gate) (code id : Nat) :
    (gate.resetCode code).isRetired id = (id != code && gate.isRetired id) := by
  rw [Bool.eq_iff_iff]
  simp [isRetired, resetCode, and_comm]

namespace Alike

lemma refl (id : Nat) (gate : Gate) : Alike id gate gate := ⟨rfl, rfl, rfl, rfl, rfl⟩

lemma trans (h : Alike id gate middle) (h' : Alike id middle other) : Alike id gate other :=
  ⟨h.config.trans h'.config, h.backend.trans h'.backend, h.artifacts.trans h'.artifacts,
    h.stats.trans h'.stats, h.retired.trans h'.retired⟩

/-! ### Counts -/

/-- Metrics are of no account. -/
lemma metrics (h : Alike id gate other) (counts counts' : Metrics) :
    Alike id { gate with metrics := counts } { other with metrics := counts' } :=
  ⟨h.config, h.backend, h.artifacts, h.stats, h.retired⟩

/-- The counts of one program change. -/
lemma update (h : Alike id gate other) (code : Nat) (change : CallStats → CallStats) :
    Alike id { gate with log := gate.log.update code change }
      { other with log := other.log.update code change } := by
  refine ⟨h.config, h.backend, h.artifacts, ?_, h.retired⟩
  simp only [CallLog.stats_update]
  split
  · next hid => rw [← hid, h.stats]
  · exact h.stats

/-- The counts of another program are of no account. -/
lemma update_apart (gate : Gate) (hcode : id ≠ code) (change : CallStats → CallStats) :
    Alike id { gate with log := gate.log.update code change } gate := by
  refine ⟨rfl, rfl, rfl, ?_, rfl⟩
  rw [CallLog.stats_update, if_neg hcode]

lemma recordOk (h : Alike id gate other) (code : Nat) :
    Alike id { gate with log := gate.log.recordOk code }
      { other with log := other.log.recordOk code } :=
  h.update code _

lemma recordOk_apart (gate : Gate) (hcode : id ≠ code) :
    Alike id { gate with log := gate.log.recordOk code } gate := update_apart gate hcode _

lemma recordRejections (h : Alike id gate other) (code : Nat) (guards : List Guard) :
    Alike id (gate.recordRejections code guards) (other.recordRejections code guards) := by
  refine ⟨h.config, h.backend, h.artifacts, ?_, h.retired⟩
  simp only [Gate.recordRejections, CallLog.stats_rejections]
  split
  · next hid => rw [← hid, h.stats]
  · exact h.stats

lemma recordRejections_apart (gate : Gate) (hcode : id ≠ code) (guards : List Guard) :
    Alike id (gate.recordRejections code guards) gate := by
  refine ⟨rfl, rfl, rfl, ?_, rfl⟩
  rw [Gate.recordRejections, CallLog.stats_rejections, if_neg hcode]

/-! ### Artifacts and retirement -/

lemma cache {stored stored' : Cache} (h : Alike id gate other)
    (hartifacts : stored.artifacts id = stored'.artifacts id) :
    Alike id { gate with cache := stored } { other with cache := stored' } :=
  ⟨h.config, h.backend, hartifacts, h.stats, h.retired⟩

lemma append (h : Alike id gate other) (code : Nat) (artifact : Artifact) :
    Alike id { gate with cache := (gate.cache.append code artifact).2 }
      { other with cache := (other.cache.append code artifact).2 } := by
  refine h.cache ?_
  rw [Cache.artifacts_append, Cache.artifacts_append]
  split
  · next hid => rw [← hid, h.artifacts]
  · exact h.artifacts

lemma erase (h : Alike id gate other) (code : Nat) :
    Alike id { gate with cache := gate.cache.erase code }
      { other with cache := other.cache.erase code } := by
  refine h.cache ?_
  rw [Cache.artifacts_erase, Cache.artifacts_erase, h.artifacts]

lemma retire (h : Alike id gate other) (code : Nat) :
    Alike id (gate.retire code) (other.retire code) := by
  have hretired : (gate.retire code).isRetired id = (other.retire code).isRetired id := by
    rw [isRetired_retire, isRetired_retire, h.retired]
  rw [retire_eq gate, retire_eq other]
  exact ⟨h.config, h.backend, h.artifacts, h.stats, hretired⟩

lemma retire_apart (gate : Gate) (hcode : id ≠ code) : Alike id (gate.retire code) gate := by
  have hretired : (gate.retire code).isRetired id = gate.isRetired id := by
    rw [isRetired_retire, beq_eq_false_iff_ne.2 hcode, Bool.false_or]
  rw [retire_eq gate]
  exact ⟨rfl, rfl, rfl, rfl, hretired⟩

end Alike

/-! ### Calls of the program -/

variable {program : Code} {frame : Frame}

lemma compileFresh_sameFor (h : Alike id gate other) (backend : Backend)
    (program : Code) (frame : Frame)
    (hid : program.id = id) : SameFor id (gate.compileFresh backend program frame)
      (other.compileFresh backend program frame) := by
  subst hid
  cases htrace : trace program frame gate.config with
  | error stop =>
    rw [compileFresh_of_break htrace, compileFresh_of_break (h.config ▸ htrace)]
    exact ⟨rfl, (h.metrics _ _).retire _⟩
  | ok output =>
    cases hcompile : backend output.graph output.layers with
    | error report =>
      rw [compileFresh_of_refusal htrace hcompile,
        compileFresh_of_refusal (h.config ▸ htrace) hcompile]
      exact ⟨rfl, (h.metrics _ _).retire _⟩
    | ok execute =>
      rw [compileFresh_of_artifact htrace hcompile,
        compileFresh_of_artifact (h.config ▸ htrace) hcompile]
      refine ⟨?_, ?_⟩
      · simp only [Cache.append_fst, h.artifacts]
      · have happend := (h.append program.id (output.artifact execute)).artifacts
        exact ⟨h.config, h.backend, happend, h.stats, h.retired⟩

lemma routeAnew_sameFor (h : Alike id gate other) (program : Code) (frame : Frame)
    (hid : program.id = id) :
    SameFor id (gate.routeAnew program frame) (other.routeAnew program frame) := by
  subst hid
  unfold routeAnew
  by_cases hfull : gate.config.cacheSizeCeiling ≤ (gate.cache.artifacts program.id).length
  · have hfull' : other.config.cacheSizeCeiling ≤ (other.cache.artifacts program.id).length := by
      rwa [← h.config, ← h.artifacts]
    rw [if_pos hfull, if_pos hfull']
    exact ⟨rfl, (h.erase program.id).retire _⟩
  · have hfull' : ¬ other.config.cacheSizeCeiling ≤ (other.cache.artifacts program.id).length := by
      rwa [← h.config, ← h.artifacts]
    rw [if_neg hfull, if_neg hfull', ← h.backend]
    split
    · exact ⟨rfl, h⟩
    · exact compileFresh_sameFor h _ _ _ rfl

lemma route_sameFor (h : Alike id gate other) (program : Code) (frame : Frame)
    (hid : program.id = id)
    (hopen : gate.isRetired program.id = false) :
    SameFor id (gate.route program frame) (other.route program frame) := by
  subst hid
  rw [route_eq hopen, route_eq (h.retired ▸ hopen), ← h.artifacts]
  rcases firstMatch frame 0 (gate.cache.artifacts program.id) with
      ⟨_ | ⟨position, artifact⟩, rejected⟩
  · exact routeAnew_sameFor (h.recordRejections program.id rejected) program frame rfl
  · exact ⟨rfl, h.recordRejections program.id rejected⟩

lemma fallBack_sameFor (h : Alike id gate other) (reason : FallbackReason) :
    SameFor id (gate.fallBack reason) (other.fallBack reason) := ⟨rfl, h.metrics _ _⟩

lemma serve_sameFor (h : Alike id gate other) (program : Code) (frame : Frame) (artifact : Artifact)
    (path : CallPath) : SameFor id (gate.serve program frame artifact path)
      (other.serve program frame artifact path) := by
  unfold serve
  split
  · exact ⟨rfl, (h.recordOk program.id).metrics _ _⟩
  · exact fallBack_sameFor (h.metrics _ _) _

/-- What is decided about a call, and what is remembered of it, is determined by what is
remembered. -/
lemma decide_sameFor (h : Alike program.id gate other) (frame : Frame) :
    SameFor program.id (gate.decide program frame) (other.decide program frame) := by
  have hcounted : Alike program.id (gate.countCall program.id) (other.countCall program.id) :=
    h.update program.id _
  rw [decide_eq, decide_eq, ← h.retired, ← hcounted.stats, ← h.config]
  split
  · exact fallBack_sameFor hcounted _
  next hretired =>
  have hopen : (gate.countCall program.id).isRetired program.id = false :=
    Bool.eq_false_iff.2 hretired
  split
  · exact fallBack_sameFor hcounted _
  obtain ⟨hroute, hrouted⟩ := route_sameFor hcounted program frame rfl hopen
  rcases hleft : (gate.countCall program.id).route program frame with ⟨route, routed⟩
  rcases hright : (other.countCall program.id).route program frame with ⟨route', routed'⟩
  rw [hleft, hright] at hroute hrouted
  obtain rfl : route = route' := hroute
  cases route with
  | artifact artifact path => exact serve_sameFor hrouted _ _ _ _
  | direct reason => exact fallBack_sameFor hrouted _

/-! ### Calls of other programs -/

/-- Going through the artifacts of another program leaves what is remembered of this one as it
is. -/
lemma Routed.apart {route : Route} {routed : Gate} (h : Routed gate program frame route routed)
    (hid : id ≠ program.id) : Alike id routed gate := by
  have hscanned : ∀ rejected, Alike id (gate.recordRejections program.id rejected) gate :=
    Alike.recordRejections_apart gate hid
  have hcounted : ∀ rejected broken compiled,
      Alike id ((gate.recordRejections program.id rejected).countTrace broken compiled) gate := by
    exact fun rejected broken compiled => (hscanned rejected).metrics _ gate.metrics
  cases h with
  | hit _ | noBackend _ _ _ => exact hscanned _
  | full _ _ =>
    have herased : Cache.artifacts (gate.cache.erase program.id) id = gate.cache.artifacts id := by
      rw [Cache.artifacts_erase, if_neg hid]
    exact (Alike.retire_apart _ hid).trans ((hscanned _).cache herased)
  | graphBreak _ _ _ _ | refused _ _ _ _ _ =>
    exact (Alike.retire_apart _ hid).trans (hcounted _ _ _)
  | compiled _ _ _ _ _ =>
    have happended : ∀ artifact,
        (gate.cache.append program.id artifact).2.artifacts id = gate.cache.artifacts id := by
      intro artifact
      rw [Cache.artifacts_append, if_neg hid]
    exact (hcounted _ _ _).cache (happended _)

lemma fallBack_apart (h : Alike id gate other) (reason : FallbackReason) :
    Alike id (gate.fallBack reason).2 other := h.metrics _ other.metrics

lemma serve_apart (h : Alike id gate other) (hid : id ≠ program.id)
    (artifact : Artifact) (path : CallPath) :
    Alike id (gate.serve program frame artifact path).2 other := by
  unfold serve
  split
  · exact ((Alike.recordOk_apart gate hid).trans h).metrics _ other.metrics
  · exact fallBack_apart (h.metrics _ other.metrics) _

/-- A call of another program leaves what is remembered of this one as it is. -/
lemma decide_apart (gate : Gate) (hid : id ≠ program.id) (frame : Frame) :
    Alike id (gate.decide program frame).2 gate := by
  have hcounted : Alike id (gate.countCall program.id) gate := Alike.update_apart gate hid _
  have hdecides := decides gate program frame
  generalize gate.decide program frame = decided at hdecides
  cases hdecides with
  | retired _ | early _ _ => exact fallBack_apart hcounted _
  | artifact _ _ hrouted => exact serve_apart ((hrouted.apart hid).trans hcounted) hid _ _
  | direct _ _ hrouted => exact fallBack_apart ((hrouted.apart hid).trans hcounted) _

/-! ### Sessions -/

/-- A request that concerns a program is answered by what is remembered of the program. -/
lemma perform_sameFor (h : Alike id gate other) {request : Request}
    (hconcerns : request.concerns id = true) :
    SameFor id (gate.perform request) (other.perform request) := by
  cases request with
  | call made original =>
    obtain rfl : made.code.id = id := of_decide_eq_true hconcerns
    obtain ⟨hdecision, hafter⟩ := decide_sameFor h made.frame
    rw [perform_call, perform_call, hdecision]
    exact ⟨rfl, hafter⟩
  | register backend => exact ⟨rfl, h.config, rfl, h.artifacts, h.stats, h.retired⟩
  | drift behave =>
    refine ⟨rfl, h.config, h.backend, ?_, h.stats, h.retired⟩
    rw [perform, perform, artifacts_drift, artifacts_drift, h.artifacts]
  | reset => exact ⟨rfl, h.config, h.backend, rfl, rfl, rfl⟩
  | resetCode code =>
    refine ⟨rfl, h.config, h.backend, ?_, ?_, ?_⟩
    · exact (h.erase code).artifacts
    · rw [perform, perform, stats_resetCode, stats_resetCode, h.stats]
    · rw [perform, perform, isRetired_resetCode, isRetired_resetCode, h.retired]

/-- A request that concerns another program leaves what is remembered of this one as it is. -/
lemma perform_apart (gate : Gate) {request : Request} (hconcerns : request.concerns id = false) :
    Alike id (gate.perform request).2 gate := by
  cases request with
  | call made original =>
    rw [perform_call]
    exact decide_apart gate (Ne.symm (of_decide_eq_false hconcerns)) made.frame
  | resetCode code =>
    have hid : id ≠ code := Ne.symm (of_decide_eq_false hconcerns)
    refine ⟨rfl, rfl, ?_, ?_, ?_⟩
    · exact Cache.artifacts_erase.trans (if_neg hid)
    · exact (stats_resetCode gate code id).trans (if_neg hid)
    · rw [perform, isRetired_resetCode, bne_iff_ne.2 hid, Bool.true_and]
  | register _ | drift _ | reset => cases hconcerns

/-- The requests that concern a program, alone, have the same answers, and the same is
remembered. -/
lemma performAll_sameFor (h : Alike id gate other) (requests : List Request) :
    SameFor id (((gate.performAll requests).1.filter fun entry => entry.request.concerns id),
        (gate.performAll requests).2)
      (other.performAll (requests.filter (Request.concerns id))) := by
  -- By induction on the requests, for all pairs of gates that are alike: a request that concerns
  -- the program
  -- is made of both, any other of the first alone.
  induction requests generalizing gate other with
  | nil => exact ⟨rfl, h⟩
  | cons request rest ih =>
    cases hconcerns : request.concerns id with
    | true =>
      obtain ⟨hreply, hafter⟩ := perform_sameFor h hconcerns
      obtain ⟨hrest, hlast⟩ := ih hafter
      rw [List.filter_cons_of_pos hconcerns]
      refine ⟨?_, hlast⟩
      simp only [performAll, List.filter_cons, hconcerns, if_true]
      rw [hreply, ← hrest]
    | false =>
      obtain ⟨hrest, hlast⟩ := ih ((perform_apart gate hconcerns).trans h)
      rw [List.filter_cons_of_neg (by simp [hconcerns])]
      refine ⟨?_, hlast⟩
      simp only [performAll, List.filter_cons, hconcerns]
      exact hrest

/-- **Programs do not interfere.**  In any session, whatever is asked of the gate in whatever order,
the requests that concern a program have the answers that they have when nothing is asked about the
other programs; and the artifacts, the counts and the retirement of the program are at the end the
same. -/
theorem programs_do_not_interfere {last : Gate} {entries : List Entry}
    (h : Session gate entries last)
    (id : Nat) : ∃ alone,
      gate.performAll ((entries.map Entry.request).filter (Request.concerns id)) =
        (entries.filter fun entry => entry.request.concerns id, alone) ∧
      last.cache.artifacts id = alone.cache.artifacts id ∧ last.log.stats id = alone.log.stats id ∧
      last.isRetired id = alone.isRetired id := by
  obtain ⟨hentries, hlast⟩ := performAll_sameFor (Alike.refl id gate) (entries.map Entry.request)
  rw [h.performAll_eq] at hentries hlast
  exact ⟨(gate.performAll ((entries.map Entry.request).filter (Request.concerns id))).2,
    Prod.ext hentries.symm rfl, hlast.artifacts, hlast.stats, hlast.retired⟩

end

/-- A gate that traces a program at its second call. -/
def patientGate : Gate := { config := { minimumCallCount := 2 }, backend := some (evaluator 100) }

/-- Two calls of a program. -/
def heldTwice : List Request := List.replicate 2 (.call ⟨heldSum, heldFrame 7⟩ (.ok .none))

/-- A call of another program. -/
def heldElsewhere : Call := ⟨{ heldSum with id := 1 }, heldFrame 7⟩

/-- A first call runs directly, and its direct run calls another program twice. -/
lemma session_heldTwice : ∃ inner reply last, inner.map Entry.request = heldTwice ∧
    Session patientGate (⟨.call heldElsewhere (.ok .none), reply⟩ :: (inner ++ [])) last := by
  have hdecide : patientGate.decide heldElsewhere.code heldElsewhere.frame =
      (.direct .belowCallThreshold,
        ((patientGate.countCall 1).fallBack .belowCallThreshold).2) := by
    rw [decide_eq, if_neg (by decide), if_pos (by decide)]
    rfl
  generalize ((patientGate.countCall 1).fallBack .belowCallThreshold).2 = after at hdecide
  let directly : Gate → Run Value × Gate := fun gate => (.ok .none, (gate.performAll heldTwice).2)
  have hsession := @Session.reentrant patientGate after _ heldElsewhere directly _ _ _ hdecide
    (session_performAll after heldTwice) .done
  exact ⟨_, _, _, map_request_performAll after heldTwice, hsession⟩

/-- A first call of another program runs directly and calls the program twice: in the program's own
eyes it is called twice, and has one artifact. -/
theorem heldSum_undisturbed : ∃ entries last alone, Session patientGate entries last ∧
    entries.map Entry.request = .call heldElsewhere (.ok .none) :: heldTwice ∧
    patientGate.performAll heldTwice =
      (entries.filter fun entry => entry.request.concerns 0, alone) ∧
    last.cache.artifacts 0 = alone.cache.artifacts 0 ∧ (alone.cache.artifacts 0).length = 1 := by
  obtain ⟨inner, reply, last, hinner, hsession⟩ := session_heldTwice
  obtain ⟨alone, halone, hartifacts, -, -⟩ := programs_do_not_interfere hsession 0
  have hrequests : (⟨.call heldElsewhere (.ok .none), reply⟩ :: (inner ++ [])).map Entry.request =
      .call heldElsewhere (.ok .none) :: heldTwice := by
    rw [List.append_nil, List.map_cons, hinner]
  have hown : (Request.call heldElsewhere (.ok .none) :: heldTwice).filter
      (Request.concerns 0) = heldTwice := rfl
  rw [hrequests, hown] at halone
  have hlength : ((patientGate.performAll heldTwice).2.cache.artifacts 0).length = 1 := by
    decide +kernel
  rw [halone] at hlength
  exact ⟨_, last, alone, hsession, hrequests, halone, hartifacts, hlength⟩

end Gate

end GuardedTrace
