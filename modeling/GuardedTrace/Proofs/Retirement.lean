/-
Retirement is permanent and has three causes.

A program is retired by a call whose trace breaks off, whose graph is refused or which finds the
cache full, and by nothing else; only a reset forgets it.  So whether a program is retired can be
read off what was asked and answered since its last reset.  A call of a retired program is decided
before anything else is looked at: whatever the frame, the artifacts and the compiler are, it runs
directly, and only the counts of the call are left behind.
-/
import GuardedTrace.Proofs.Accounting
import GuardedTrace.Proofs.ArtifactLists
import GuardedTrace.Proofs.Isolation

namespace GuardedTrace

/-- The reasons that concern not only the call but every later one. -/
def FallbackReason.retires : FallbackReason → Bool
  | graphBreak | ceilingReached | compileFailed => true
  | belowCallThreshold | fallbackOnly | noBackend | executionFailed => false

def CallPath.retires : CallPath → Bool
  | fallback reason => reason.retires
  | cached _ | fresh _ => false

/-- The way to an artifact retires no program. -/
def Route.retires : Route → Bool
  | artifact _ _ => false
  | direct reason => reason.retires

namespace Gate

/-- The request makes the gate forget that a program is retired, if it is. -/
def Request.forgets (id : Nat) : Request → Bool
  | reset => true
  | resetCode code => code = id
  | call _ _ | register _ | drift _ => false

/-- The entry is a call of a program that retired it. -/
def Entry.retires (id : Nat) (entry : Entry) : Bool :=
  match entry.request with
  | .call made _ => made.code.id = id && entry.path?.any CallPath.retires
  | _ => false

variable {gate routed : Gate} {code : Code} {frame : Frame} {id : Nat}

/-! ### One call -/

/-- A gate after a call of a retired program: the call and its direct run are counted. -/
def countRetired (gate : Gate) (code : Nat) : Gate :=
  { gate with
    log := gate.log.recordCall code
    metrics := { gate.metrics with fallbacks := gate.metrics.fallbacks + 1 } }

lemma decide_of_retired (hretired : gate.isRetired code.id = true) (frame : Frame) :
    gate.decide code frame = (.direct .fallbackOnly, gate.countRetired code.id) := by
  rw [decide_eq, if_pos hretired]
  rfl

lemma call_of_retired (hretired : gate.isRetired code.id = true) (frame : Frame)
    (directly : Gate → Run Value × Gate) :
    gate.call code frame directly =
      ((directly (gate.countRetired code.id)).1.map fun value => ⟨value, .fallback .fallbackOnly⟩,
        (directly (gate.countRetired code.id)).2) := by
  have hdecide := decide_of_retired hretired frame
  refine Prod.ext ?_ (call_of_direct hdecide)
  rw [call_eq, hdecide]
  rfl

lemma stats_countRetired (gate : Gate) (code other : Nat) :
    (gate.countRetired code).log.stats other =
    if other = code then { gate.log.stats code with total := (gate.log.stats code).total + 1 }
    else gate.log.stats other := by
  rw [countRetired, CallLog.recordCall, CallLog.stats_update]

lemma isRetired_serve (gate : Gate) (code : Code) (frame : Frame)
    (artifact : Artifact) (path : CallPath) :
    (gate.serve code frame artifact path).2.isRetired id = gate.isRetired id := by
  unfold serve
  split <;> rfl

/-- The programs that are retired after going through the artifacts of one. -/
lemma Routed.isRetired {route : Route} (h : Routed gate code frame route routed) :
    routed.isRetired id = ((id == code.id && route.retires) || gate.isRetired id) := by
  cases h with
  | hit _ | noBackend _ _ _ | compiled _ _ _ _ _ =>
    simp only [Route.retires, FallbackReason.retires, Bool.and_false, Bool.false_or]
    rfl
  | full _ _ | graphBreak _ _ _ _ | refused _ _ _ _ _ =>
    rw [isRetired_retire, Route.retires, FallbackReason.retires, Bool.and_true]
    rfl

/-- A call retires its own program or none, and it does so by the way it takes. -/
lemma isRetired_decide (gate : Gate) (code : Code) (frame : Frame) (id : Nat) :
    (gate.decide code frame).2.isRetired id =
      ((id == code.id && (gate.decide code frame).1.path.retires) || gate.isRetired id) := by
  have hdecides := decides gate code frame
  generalize gate.decide code frame = decided at hdecides
  cases hdecides with
  | retired _ | early _ _ =>
    simp only [fallBack, Decision.path, CallPath.retires, FallbackReason.retires,
      Bool.and_false, Bool.false_or]
    rfl
  | @artifact _ _ artifact path routed hrouted =>
    -- The way to an artifact is never a fallback, and the artifact that fails retires nothing.
    have hserved : (routed.serve code frame artifact path).1.path.retires = false := by
      rcases (serve_cases routed code frame artifact path).2 with ⟨value, -, hserved⟩ | hfailed
      · rw [hserved]
        cases hrouted <;> rfl
      · rw [hfailed]
        rfl
    rw [isRetired_serve, hrouted.isRetired, hserved]
    rfl
  | direct _ _ hrouted => exact hrouted.isRetired

/-- A call that retires its program finds it in use. -/
lemma isRetired_of_retires (h : (gate.decide code frame).1.path.retires = true) :
    gate.isRetired code.id = false := by
  cases hretired : gate.isRetired code.id with
  | false => rfl
  | true =>
    rw [decide_of_retired hretired] at h
    cases h

/-! ### Sessions -/

/-- **One request retires a program, forgets that it is retired, or neither.** -/
lemma isRetired_perform (gate : Gate) (request : Request) (id : Nat) :
    (gate.perform request).2.isRetired id =
      ((⟨request, (gate.perform request).1⟩ : Entry).retires id ||
        (!request.forgets id && gate.isRetired id)) := by
  cases request with
  | call made original =>
    rw [perform_call]
    have hid : (id == made.code.id) = Decidable.decide (made.code.id = id) := by
      rw [Bool.eq_iff_iff, beq_iff_eq, decide_eq_true_iff, eq_comm]
    rw [isRetired_decide, hid]
    rfl
  | register _ | drift _ | reset => rfl
  | resetCode code =>
    have hid : (id != code) = !Decidable.decide (code = id) := by
      rw [Bool.eq_iff_iff, bne_iff_ne, Bool.not_eq_true', decide_eq_false_iff_not, ne_comm]
    rw [perform, isRetired_resetCode, hid]
    rfl

/-- Among the entries since the last one that made the gate forget a program, there is one that
retired it. -/
def RetiredBy (id : Nat) (entries : List Entry) : Prop :=
  ∃ earlier entry later, entries = earlier ++ entry :: later ∧ entry.retires id = true ∧
    ∀ other ∈ later, other.request.forgets id = false

lemma not_retiredBy_nil (id : Nat) : ¬ RetiredBy id [] := by
  rintro ⟨earlier, entry, later, hentries, -⟩
  simp at hentries

lemma retiredBy_append_one (id : Nat) (entries : List Entry) (last : Entry) :
    RetiredBy id (entries ++ [last]) ↔
      last.retires id = true ∨ (last.request.forgets id = false ∧ RetiredBy id entries) := by
  constructor
  · rintro ⟨earlier, entry, later, hentries, hretires, hkept⟩
    -- The last entry is the one that retired the program, or stands among those after it.
    rcases List.eq_nil_or_concat later with rfl | ⟨init, final, rfl⟩
    · obtain ⟨-, hlast⟩ := List.append_inj' hentries rfl
      cases hlast
      exact Or.inl hretires
    · rw [List.concat_eq_append, ← List.cons_append, ← List.append_assoc] at hentries
      obtain ⟨hinit, hlast⟩ := List.append_inj' hentries rfl
      cases hlast
      refine Or.inr ⟨hkept last (by simp), earlier, entry, init, hinit, hretires,
        fun other hother => ?_⟩
      exact hkept other (by simp [hother])
  · rintro (hretires | ⟨hkept, earlier, entry, later, rfl, hretires, hlater⟩)
    · exact ⟨entries, last, [], rfl, hretires, by simp⟩
    · refine ⟨earlier, entry, later ++ [last], by simp, hretires, fun other hother => ?_⟩
      rcases List.mem_append.1 hother with hold | hnew
      · exact hlater other hold
      · rwa [List.mem_singleton.1 hnew]

/-- A program is retired by what was asked and answered, not by what a new gate is made with. -/
lemma isRetired_performAll (config : Config) (backend : Option Backend)
    (requests : List Request) (id : Nat) :
    (performAll { config, backend } requests).2.isRetired id = true ↔
      RetiredBy id (performAll { config, backend } requests).1 := by
  induction requests using List.reverseRecOn with
  | nil =>
    simp only [performAll, isRetired, List.contains_nil, Bool.false_eq_true, not_retiredBy_nil]
  | append_singleton rest request ih =>
    rw [performAll_append]
    change ((performAll { config, backend } rest).2.perform request).2.isRetired id = true ↔
      RetiredBy id ((performAll { config, backend } rest).1 ++
        [⟨request, ((performAll { config, backend } rest).2.perform request).1⟩])
    rw [isRetired_perform, retiredBy_append_one, ← ih, Bool.or_eq_true,
      Bool.and_eq_true, Bool.not_eq_true']

/-- The answers up to a request are those of the requests before it, and it is answered by the gate
that these leave. -/
lemma performAll_split {requests : List Request} {earlier later : List Entry} {entry : Entry}
    (h : (gate.performAll requests).1 = earlier ++ entry :: later) :
    (gate.performAll (earlier.map Entry.request)).1 = earlier ∧
      entry.reply = ((gate.performAll (earlier.map Entry.request)).2.perform entry.request).1 := by
  have hrequests : requests =
      earlier.map Entry.request ++ ([entry.request] ++ later.map Entry.request) := by
    rw [← map_request_performAll gate requests, h]
    simp
  rw [hrequests, performAll_append] at h
  have hlength : (gate.performAll (earlier.map Entry.request)).1.length = earlier.length := by
    rw [← List.length_map (f := Entry.request), map_request_performAll, List.length_map]
  obtain ⟨hearlier, hrest⟩ := List.append_inj h hlength
  refine ⟨hearlier, ?_⟩
  obtain ⟨hentry, -⟩ := List.cons.inj hrest
  rw [← hentry]
  rfl

/-- **Retirement is permanent and has three causes.**  After any session of a new gate, a program is
retired exactly when the trace of one of its calls broke off, its graph was refused or the cache was
full, and the program was not forgotten since.  A call retires its own program exactly when it takes
one of these ways.  All calls in between were left to direct runs, with what these gave; and
whatever the bindings of a further call are, whatever artifacts are cached and whichever compiler is
there, it is left to a direct run as well, on a gate in which only the call and the fallback are
counted. -/
theorem retirement_is_permanent {config : Config} {backend : Option Backend} {entries : List Entry}
    (h : Session { config, backend } entries gate) (id : Nat) :
    (gate.isRetired id = true ↔ RetiredBy id entries) ∧
    (∀ call original path outcome after,
      gate.perform (.call call original) = (.answered path outcome, after) →
        ((gate.isRetired id = false ∧ after.isRetired id = true) ↔
          call.code.id = id ∧ path.retires = true)) ∧
    (∀ earlier later call original reply,
      entries = earlier ++ ⟨.call call original, reply⟩ :: later → call.code.id = id →
        RetiredBy id earlier →
        reply = .answered (.fallback .fallbackOnly)
          (original.map fun value => ⟨value, .fallback .fallbackOnly⟩)) ∧
    (RetiredBy id entries → ∀ (call : Call) cache compiler directly, call.code.id = id →
      let stocked : Gate := { gate with cache := cache, backend := compiler }
      let counted : Gate := { stocked with
        log := gate.log.recordCall id
        metrics := { gate.metrics with fallbacks := gate.metrics.fallbacks + 1 } }
      stocked.call call.code call.frame directly =
        ((directly counted).1.map fun value => ⟨value, .fallback .fallbackOnly⟩,
          (directly counted).2) ∧
      ∀ other, counted.log.stats other =
        if other = id then { gate.log.stats id with total := (gate.log.stats id).total + 1 }
        else gate.log.stats other) := by
  have hperformed := h.performAll_eq
  have hretired : gate.isRetired id = true ↔ RetiredBy id entries := by
    have hrun := isRetired_performAll config backend (entries.map Entry.request) id
    rwa [hperformed] at hrun
  refine ⟨hretired, ?_, ?_, ?_⟩
  · intro call original path outcome after hperform
    rw [perform_call] at hperform
    simp only [Prod.mk.injEq, Reply.answered.injEq] at hperform
    obtain ⟨⟨hpath, -⟩, hafter⟩ := hperform
    have hdecide := isRetired_decide gate call.code call.frame id
    rw [hpath, hafter] at hdecide
    constructor
    · rintro ⟨hopen, hnow⟩
      rw [hnow, hopen, Bool.or_false] at hdecide
      obtain ⟨hid, hretires⟩ := Bool.and_eq_true_iff.1 hdecide.symm
      exact ⟨(eq_of_beq hid).symm, hretires⟩
    · rintro ⟨rfl, hretires⟩
      refine ⟨isRetired_of_retires (hpath ▸ hretires), ?_⟩
      rw [hdecide, hretires, beq_self_eq_true]
      rfl
  · rintro earlier later call original reply hentries rfl hearlier
    -- The call is answered by the gate that the earlier requests leave, which has the program
    -- retired.
    have hall : (performAll { config, backend } (entries.map Entry.request)).1 =
        earlier ++ ⟨.call call original, reply⟩ :: later := by
      rw [hperformed, hentries]
    obtain ⟨hbefore, hreply⟩ := performAll_split hall
    have hmiddle := (isRetired_performAll config backend (earlier.map Entry.request) call.code.id).2
      (hbefore.symm ▸ hearlier)
    rw [perform_call, decide_of_retired hmiddle] at hreply
    exact hreply
  · rintro hby call cache compiler directly rfl
    have hnow : ({ gate with cache := cache, backend := compiler } : Gate).isRetired
        call.code.id = true :=
      hretired.2 hby
    exact ⟨call_of_retired hnow call.frame directly, stats_countRetired gate call.code.id⟩

/-- A gate whose compiler refuses every graph. -/
def refusingGate : Gate := { backend := some fun _ _ => .error "rejected" }

/-- A call of a program whose graph is refused; then there is another compiler. -/
def refusedRequests : List Request :=
  [.call ⟨heldSum, heldFrame 7⟩ (.ok .none), .register (evaluator 100)]

/-- The program is retired, although the other compiler would take its graph, and a call gives what
its direct run gives. -/
theorem heldSum_stays_retired : ∃ entries gate, Session refusingGate entries gate ∧
    entries.map Entry.request = refusedRequests ∧ gate.isRetired 0 = true ∧
    (gate.call heldSum (heldFrame 8) fun gate => (.error (.name "table"), gate)).1 =
      .error (.name "table") := by
  have hretired : (refusingGate.performAll refusedRequests).2.isRetired 0 = true := by
    decide +kernel
  have hsession : Session refusingGate _ _ := session_performAll refusingGate refusedRequests
  obtain ⟨hby, -, -, hcalls⟩ := retirement_is_permanent hsession 0
  generalize hlast : (refusingGate.performAll refusedRequests).2 = gate at *
  obtain ⟨hcall, -⟩ := hcalls (hby.1 hretired) ⟨heldSum, heldFrame 8⟩ gate.cache gate.backend
    (fun gate => (.error (.name "table"), gate)) rfl
  exact ⟨_, gate, hsession, map_request_performAll _ _, hretired, congrArg Prod.fst hcall⟩

end Gate

end GuardedTrace
