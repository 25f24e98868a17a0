/-
Everything that can be asked of a gate.

Besides calls, a gate is given a compiler, it is reset, as a whole or for one program; and the
artifacts that a compiler made need not answer alike for ever.  A *session* lists what was asked of
a gate, with the answers, in the order in which the gate acted: what a direct run asks of the gate
stands behind the call that runs directly.  In this order a session is as good as the list of its
requests, made one after the other with what the direct runs gave.
-/
import GuardedTrace.Proofs.OrderedKeys
import GuardedTrace.Proofs.Routing

namespace GuardedTrace

namespace Gate

/-- What is asked of a gate. -/
inductive Request where
  /-- A call, and what the program gives when it runs directly. -/
  | call (call : Call) (original : Run Value)
  | register (backend : Backend)
  /-- From now on cached artifacts answer differently. -/
  | drift (behave : Artifact → Executable)
  | reset
  | resetCode (code : Nat)

/-- What a gate answers. -/
inductive Reply where
  /-- The way of a call, and what the caller gets. -/
  | answered (path : CallPath) (outcome : Run Outcome)
  | done

/-- A request and its answer. -/
structure Entry where
  request : Request
  reply : Reply

/-- Replaces what cached artifacts answer. -/
def drift (gate : Gate) (behave : Artifact → Executable) : Gate :=
  { gate with cache := gate.cache.map fun entry =>
      (entry.1, entry.2.map fun artifact => { artifact with execute := behave artifact }) }

/-- Acts on a request; a direct run gives what the request says and leaves the gate alone. -/
def perform (gate : Gate) : Request → Reply × Gate
  | .call call original =>
    let (outcome, after) := gate.call call.code call.frame fun gate => (original, gate)
    (.answered (gate.decide call.code call.frame).1.path outcome, after)
  | .register backend => (.done, { gate with backend := some backend })
  | .drift behave => (.done, gate.drift behave)
  | .reset => (.done, gate.reset)
  | .resetCode code => (.done, gate.resetCode code)

/-- Acts on requests one after the other. -/
def performAll (gate : Gate) : List Request → List Entry × Gate
  | [] => ([], gate)
  | request :: rest =>
    let (reply, after) := gate.perform request
    let (entries, last) := after.performAll rest
    (⟨request, reply⟩ :: entries, last)

/-- What is asked of a gate and answered, in the order in which the gate acts, and the gate at the
end. -/
inductive Session : Gate → List Entry → Gate → Prop where
  | done {gate : Gate} : Session gate [] gate
  /-- A request during which nothing else is asked. -/
  | plain {gate last : Gate} {request : Request} {rest : List Entry}
    (hrest : Session (gate.perform request).2 rest last) :
    Session gate (⟨request, (gate.perform request).1⟩ :: rest) last
  /-- A call whose direct run asks for what is in `inner`. -/
  | reentrant {gate after last : Gate} {call : Call} {directly : Gate → Run Value × Gate}
    {reason : FallbackReason} {inner rest : List Entry}
    (hdecide : gate.decide call.code call.frame = (.direct reason, after))
    (hinner : Session after inner (directly after).2)
    (hrest : Session (gate.call call.code call.frame directly).2 rest last) :
    Session gate (⟨.call call (directly after).1,
      .answered (.fallback reason) (gate.call call.code call.frame directly).1⟩ ::
        (inner ++ rest)) last

variable {gate last : Gate} {entries : List Entry}

/-- A call is acted on by the decision about it. -/
lemma perform_call (gate : Gate) (call : Call) (original : Run Value) :
    gate.perform (.call call original) =
      (.answered (gate.decide call.code call.frame).1.path
          ((gate.decide call.code call.frame).1.outcome original),
        (gate.decide call.code call.frame).2) := by
  have hgate : (gate.call call.code call.frame fun gate => (original, gate)).2 =
      (gate.decide call.code call.frame).2 := by
    cases hdecide : gate.decide call.code call.frame with
    | mk decision after =>
      cases decision with
      | served outcome => exact call_of_served hdecide
      | direct reason => exact call_of_direct hdecide
  rw [← hgate, ← call_eq gate call.code call.frame fun gate => (original, gate)]
  rfl

lemma artifacts_drift (gate : Gate) (behave : Artifact → Executable) (id : Nat) :
    (gate.drift behave).cache.artifacts id =
      (gate.cache.artifacts id).map fun artifact =>
        { artifact with execute := behave artifact } := by
  simp only [drift, Cache.artifacts, Table.lookup_map_snd]
  cases gate.cache.lookup id <;> rfl

lemma performAll_append (gate : Gate) (requests others : List Request) :
    gate.performAll (requests ++ others) =
      ((gate.performAll requests).1 ++ ((gate.performAll requests).2.performAll others).1,
        ((gate.performAll requests).2.performAll others).2) := by
  induction requests generalizing gate with
  | nil => rfl
  | cons request rest ih =>
    simp only [List.cons_append, performAll, ih]

lemma map_request_performAll (gate : Gate) (requests : List Request) :
    (gate.performAll requests).1.map Entry.request = requests := by
  induction requests generalizing gate with
  | nil => rfl
  | cons request rest ih => exact congrArg (request :: ·) (ih _)

/-- **Only the order of actions matters**: the answers of a session, and the gate at its end, are
those of its requests made one after the other. -/
theorem Session.performAll_eq (h : Session gate entries last) :
    gate.performAll (entries.map Entry.request) = (entries, last) := by
  induction h with
  | done => rfl
  | plain hrest ih =>
    simp only [List.map_cons, performAll, ih]
  | @reentrant gate after last call directly reason inner rest hdecide hinner hrest ihinner ih =>
    -- The gate decides about the call before its direct run asks for anything, so the call comes
    -- first.
    rw [call_of_direct hdecide] at ih
    have hperform : gate.perform (.call call (directly after).1) =
        (.answered (.fallback reason) (gate.call call.code call.frame directly).1, after) := by
      rw [perform_call, call_eq, hdecide]
      rfl
    simp only [List.map_cons, List.map_append, performAll, hperform, performAll_append, ihinner, ih]

/-- Requests made one after the other are a session. -/
lemma session_performAll (gate : Gate) (requests : List Request) :
    Session gate (gate.performAll requests).1 (gate.performAll requests).2 := by
  induction requests generalizing gate with
  | nil => exact .done
  | cons request rest ih => exact .plain (ih _)

end Gate

end GuardedTrace
