/-
The artifacts of a program.

A call leaves the artifacts of its program as they are, drops them all when their number is at the
ceiling, or adds the artifact that is made for it, unless an equivalent one is there.  So their
number stays within the ceiling, no two of them are equivalent, and a position that a caller is told
stays the position of that artifact until all of them are dropped.
-/
import GuardedTrace.Proofs.Sessions
import GuardedTrace.Proofs.TracedGuards

namespace GuardedTrace

/-! ### Lists of artifacts -/

namespace Cache

variable {artifacts : List Artifact} {artifact : Artifact}

lemma isEquivalent_self (artifact : Artifact) : artifact.isEquivalent artifact = true := by
  simp [Artifact.isEquivalent]

lemma added_cases (artifacts : List Artifact) (artifact : Artifact) :
    added artifacts artifact = artifacts ∨ added artifacts artifact = artifacts ++ [artifact] := by
  unfold added
  split
  · exact Or.inl rfl
  · exact Or.inr rfl

/-- At most as many artifacts as the ceiling, and no two of them equivalent. -/
structure Fits (ceiling : Nat) (artifacts : List Artifact) : Prop where
  length_le : artifacts.length ≤ ceiling
  distinct : artifacts.Pairwise fun a b => a.isEquivalent b = false

variable {ceiling : Nat}

lemma fits_nil : Fits ceiling [] := ⟨Nat.zero_le _, .nil⟩

lemma Fits.added (h : Fits ceiling artifacts) (hroom : artifacts.length < ceiling)
    (artifact : Artifact) :
    Fits ceiling (added artifacts artifact) := by
  unfold Cache.added
  split
  · exact h
  · next hnew =>
    refine ⟨by simpa using hroom,
      List.pairwise_append.2 ⟨h.distinct, List.pairwise_singleton _ _, ?_⟩⟩
    intro old hold other hother
    obtain rfl := List.mem_singleton.1 hother
    simpa using fun hequivalent => hnew (List.any_eq_true.2 ⟨old, hold, hequivalent⟩)

/-- Equivalence does not depend on what artifacts answer. -/
lemma Fits.drift (h : Fits ceiling artifacts) (behave : Artifact → Executable) :
    Fits ceiling (artifacts.map fun artifact => { artifact with execute := behave artifact }) :=
  ⟨(List.length_map _).trans_le h.length_le, List.pairwise_map.2 h.distinct⟩

/-- At the position that is reported for an artifact stands one that is equivalent to it. -/
lemma exists_of_added (artifacts : List Artifact) (artifact : Artifact) :
    ∃ stored, (added artifacts artifact)[artifacts.findIdx (·.isEquivalent artifact)]? =
      some stored ∧
      stored.isEquivalent artifact = true := by
  unfold added
  split
  · next hany =>
    obtain ⟨old, hold, hequivalent⟩ := List.any_eq_true.1 hany
    have hlt : artifacts.findIdx (·.isEquivalent artifact) < artifacts.length :=
      List.findIdx_lt_length_of_exists ⟨old, hold, hequivalent⟩
    exact ⟨_, List.getElem?_eq_getElem hlt, List.findIdx_getElem (w := hlt)⟩
  · next hnew =>
    have hnone : ∀ old ∈ artifacts, old.isEquivalent artifact = false := by
      simpa using hnew
    rw [List.findIdx_eq_length.2 hnone, List.getElem?_concat_length]
    exact ⟨artifact, rfl, isEquivalent_self artifact⟩

end Cache

namespace Gate

variable {gate routed after : Gate} {code : Code} {frame : Frame}

/-! ### One call -/

/-- What a call does to the artifacts of all programs. -/
inductive Changes (gate : Gate) (call : Call) (decision : Decision) (after : Gate) : Prop where
  | kept (hartifacts : ∀ id, after.cache.artifacts id = gate.cache.artifacts id)
    (hfresh : ∀ position, decision.path ≠ .fresh position)
    (hceiling : decision.path ≠ .fallback .ceilingReached)
  | dropped (hartifacts : ∀ id, after.cache.artifacts id =
      if id = call.code.id then [] else gate.cache.artifacts id)
    (hpath : decision.path = .fallback .ceilingReached)
  | added {backend : Backend} {output : TraceOutput} {execute : Executable}
    (hbackend : gate.backend = some backend)
      (htrace : trace call.code call.frame gate.config = .ok output)
    (hcompile : backend output.graph output.layers = .ok execute)
    (hroom : (gate.cache.artifacts call.code.id).length < gate.config.cacheSizeCeiling)
    (hartifacts : ∀ id, after.cache.artifacts id =
      if id = call.code.id then Cache.added (gate.cache.artifacts call.code.id)
        (output.artifact execute)
      else gate.cache.artifacts id)
    (hdecision : (∃ value, (output.artifact execute).run call.frame = .ok value ∧
        decision = .served ⟨value, .fresh
          ((gate.cache.artifacts call.code.id).findIdx
            (·.isEquivalent (output.artifact execute)))⟩) ∨
      decision = .direct .executionFailed)

lemma serve_cases (gate : Gate) (code : Code) (frame : Frame)
    (artifact : Artifact) (path : CallPath) :
    (gate.serve code frame artifact path).2.cache = gate.cache ∧
      ((∃ value, artifact.run frame = .ok value ∧
          (gate.serve code frame artifact path).1 = .served ⟨value, path⟩) ∨
        (gate.serve code frame artifact path).1 = .direct .executionFailed) := by
  unfold serve
  split
  · next value hvalue => exact ⟨rfl, Or.inl ⟨value, hvalue, rfl⟩⟩
  · exact ⟨rfl, Or.inr rfl⟩

/-- A call does one of the things listed. -/
theorem changes (gate : Gate) (call : Call) :
    Changes gate call (gate.decide call.code call.frame).1
      (gate.decide call.code call.frame).2 := by
  have hdecides := decides gate call.code call.frame
  generalize gate.decide call.code call.frame = decided at hdecides
  cases hdecides with
  | retired _ | early _ _ => exact .kept (fun _ => rfl) nofun nofun
  | @artifact _ _ artifact path routed hrouted =>
    obtain ⟨hcache, hserve⟩ := serve_cases routed call.code call.frame artifact path
    generalize routed.serve call.code call.frame artifact path = served at hcache hserve
    cases hrouted with
    | @hit position _ _ _ =>
      -- A cached artifact serves the call or fails; neither adds an artifact.
      have hpath : served.1.path = .cached position ∨
          served.1.path = .fallback .executionFailed := by
        rcases hserve with ⟨value, -, hserved⟩ | hfailed
        · exact Or.inl (congrArg Decision.path hserved)
        · exact Or.inr (congrArg Decision.path hfailed)
      refine .kept (fun id => ?_) (fun other hother => ?_) fun hother => ?_
      · rw [hcache]
        rfl
      · rcases hpath with h | h <;> cases h.symm.trans hother
      · rcases hpath with h | h <;> cases h.symm.trans hother
    | compiled _ hroom hbackend htrace hcompile =>
      refine .added hbackend htrace hcompile hroom (fun id => ?_) ?_
      · rw [hcache]
        exact Cache.artifacts_append _ _ _ _
      · rw [← Cache.append_fst]
        exact hserve
  | @direct _ _ reason routed hrouted =>
    cases hrouted with
    | full _ _ =>
      refine .dropped (fun id => ?_) rfl
      rw [fallBack, retire_eq]
      exact Cache.artifacts_erase
    | noBackend _ _ _ => exact .kept (fun _ => rfl) nofun nofun
    | graphBreak _ _ _ _ | refused _ _ _ _ _ =>
      refine .kept (fun id => ?_) nofun nofun
      rw [fallBack, retire_eq]
      rfl

section

variable {call : Call} {decision : Decision}

/-- The artifacts of other programs are kept, and those of the program are kept, appended to or
dropped. -/
lemma Changes.artifacts_cases (h : Changes gate call decision after) (id : Nat) :
    after.cache.artifacts id = gate.cache.artifacts id ∨ (id = call.code.id ∧
      ((∃ artifact, after.cache.artifacts id = gate.cache.artifacts id ++ [artifact]) ∨
        (decision.path = .fallback .ceilingReached ∧ after.cache.artifacts id = []))) := by
  cases h with
  | kept hartifacts _ _ => exact Or.inl (hartifacts id)
  | dropped hartifacts hpath =>
    rw [hartifacts]
    split
    · next hid => exact Or.inr ⟨hid, Or.inr ⟨hpath, rfl⟩⟩
    · exact Or.inl rfl
  | added _ _ _ _ hartifacts _ =>
    rw [hartifacts]
    split
    · next hid =>
      subst hid
      exact (Cache.added_cases _ _).imp_right fun happended => ⟨rfl, Or.inl ⟨_, happended⟩⟩
    · exact Or.inl rfl

/-- Only three ways of a call change artifacts. -/
lemma Changes.kept_of_path (h : Changes gate call decision after)
    (hfresh : ∀ position, decision.path ≠ .fresh position)
    (hceiling : decision.path ≠ .fallback .ceilingReached)
    (hfailed : decision.path ≠ .fallback .executionFailed) (id : Nat) :
    after.cache.artifacts id = gate.cache.artifacts id := by
  cases h with
  | kept hartifacts _ _ => exact hartifacts id
  | dropped _ hpath => exact absurd hpath hceiling
  | added _ _ _ _ _ hdecision =>
    rcases hdecision with ⟨value, -, rfl⟩ | rfl
    · exact absurd rfl (hfresh _)
    · exact absurd rfl hfailed

/-- A call that is served by a new artifact finds an equivalent one at the position that it is
told. -/
lemma Changes.exists_of_fresh (h : Changes gate call decision after) {position : Nat}
    (hpath : decision.path = .fresh position) : ∃ compiler output execute stored value,
      gate.backend = some compiler ∧ trace call.code call.frame gate.config = .ok output ∧
      compiler output.graph output.layers = .ok execute ∧
      (after.cache.artifacts call.code.id)[position]? = some stored ∧
      stored.isEquivalent (output.artifact execute) = true ∧
      (output.artifact execute).run call.frame = .ok value ∧
        decision = .served ⟨value, .fresh position⟩ := by
  cases h with
  | kept _ hfresh _ => exact absurd hpath (hfresh position)
  | dropped _ hdropped => cases hdropped.symm.trans hpath
  | @added compiler output execute hbackend htrace hcompile _ hartifacts hdecision =>
    rcases hdecision with ⟨value, hvalue, rfl⟩ | rfl
    · obtain rfl := CallPath.fresh.inj hpath
      obtain ⟨stored, hstored, hequivalent⟩ :=
        Cache.exists_of_added (gate.cache.artifacts call.code.id) (output.artifact execute)
      refine ⟨compiler, output, execute, stored, value, hbackend, htrace, hcompile, ?_,
        hequivalent, hvalue, rfl⟩
      rw [hartifacts, if_pos rfl]
      exact hstored
    · cases hpath

end

/-! ### Many requests -/

/-- A property of the artifacts of a program that no request ends: it holds of none, it survives
that an artifact is made while there is room for it, and it does not depend on what artifacts
answer. -/
structure Lasting (config : Config) (P : List Artifact → Prop) : Prop where
  none : P []
  added {artifacts : List Artifact} {code : Code} {frame : Frame} {output : TraceOutput}
    (execute : Executable)
    (h : P artifacts) (hroom : artifacts.length < config.cacheSizeCeiling)
    (htrace : trace code frame config = .ok output) :
      P (Cache.added artifacts (output.artifact execute))
  drift {artifacts : List Artifact} (behave : Artifact → Executable) (h : P artifacts) :
    P (artifacts.map fun artifact => { artifact with execute := behave artifact })

lemma lasting_fits (config : Config) : Lasting config (Cache.Fits config.cacheSizeCeiling) where
  none := Cache.fits_nil
  added _ h hroom _ := h.added hroom _
  drift behave h := h.drift behave

/-- The settings are these, and the artifacts of every program have the property. -/
structure Kempt (config : Config) (P : List Artifact → Prop) (gate : Gate) : Prop where
  settings : gate.config = config
  artifacts : ∀ id, P (gate.cache.artifacts id)

variable {config : Config} {P : List Artifact → Prop}

lemma Kempt.decide (hP : Lasting config P) (h : Kempt config P gate) (call : Call) :
    Kempt config P (gate.decide call.code call.frame).2 := by
  have hsettings := (decided (Prod.eta (gate.decide call.code call.frame)).symm).settings.1
  refine ⟨hsettings.trans h.settings, fun id => ?_⟩
  cases changes gate call with
  | kept hartifacts _ _ =>
    rw [hartifacts]
    exact h.artifacts id
  | dropped hartifacts _ =>
    rw [hartifacts]
    split
    · exact hP.none
    · exact h.artifacts id
  | added _ htrace _ hroom hartifacts _ =>
    rw [hartifacts]
    split
    · exact hP.added _ (h.artifacts call.code.id) (h.settings ▸ hroom) (h.settings ▸ htrace)
    · exact h.artifacts id

lemma Kempt.perform (hP : Lasting config P) (h : Kempt config P gate) (request : Request) :
    Kempt config P (gate.perform request).2 := by
  cases request with
  | call made original =>
    rw [perform_call]
    exact h.decide hP made
  | register _ => exact ⟨h.settings, h.artifacts⟩
  | drift behave =>
    refine ⟨h.settings, fun id => ?_⟩
    rw [Gate.perform, artifacts_drift]
    exact hP.drift behave (h.artifacts id)
  | reset => exact ⟨h.settings, fun _ => hP.none⟩
  | resetCode code =>
    refine ⟨h.settings, fun id => ?_⟩
    have hartifacts : (gate.resetCode code).cache.artifacts id =
        if id = code then [] else gate.cache.artifacts id := Cache.artifacts_erase
    rw [Gate.perform, hartifacts]
    split
    · exact hP.none
    · exact h.artifacts id

/-- **What no request ends holds after any session of a new gate.** -/
lemma Session.kempt {backend : Option Backend} {entries : List Entry} (hP : Lasting config P)
    (h : Session { config, backend } entries gate) : Kempt config P gate := by
  have hrun : ∀ (requests : List Request) (start : Gate), Kempt config P start →
      Kempt config P (start.performAll requests).2 := by
    intro requests
    induction requests with
    | nil => exact fun _ hstart => hstart
    | cons request rest ih => exact fun _ hstart => ih _ (hstart.perform hP request)
  have hlast := hrun (entries.map Entry.request) { config, backend } ⟨rfl, fun _ => hP.none⟩
  rwa [h.performAll_eq] at hlast

/-- **Artifacts are only appended, within the ceiling, and never twice.**  Whatever is asked of a
new gate, every program has at most as many artifacts as the ceiling, no two of them equivalent.  A
further call leaves the artifacts of each program as they are, or, for its own program, appends one
at their end or drops them all, which it does at the ceiling only; unless it is served by a new
artifact, meets the ceiling or has its artifact fail, it leaves them as they are.  When it is served
by a new artifact, the one at the position that the caller is told is equivalent to the one that
gave the value. -/
theorem artifacts_append_only {config : Config} {backend : Option Backend}
    {entries : List Entry} {gate : Gate}
    (h : Session { config, backend } entries gate) :
    (∀ id, (gate.cache.artifacts id).length ≤ config.cacheSizeCeiling ∧
      (gate.cache.artifacts id).Pairwise fun a b => a.isEquivalent b = false) ∧
    ∀ call original path outcome after, gate.perform (.call call original) =
      (.answered path outcome, after) →
      (∀ id, after.cache.artifacts id = gate.cache.artifacts id ∨ (id = call.code.id ∧
        ((∃ artifact, after.cache.artifacts id = gate.cache.artifacts id ++ [artifact]) ∨
          (path = .fallback .ceilingReached ∧ after.cache.artifacts id = [])))) ∧
      ((∀ position, path ≠ .fresh position) → path ≠ .fallback .ceilingReached →
        path ≠ .fallback .executionFailed →
          ∀ id, after.cache.artifacts id = gate.cache.artifacts id) ∧
      ∀ position, path = .fresh position → ∃ compiler output execute stored value,
        gate.backend = some compiler ∧ trace call.code call.frame gate.config = .ok output ∧
        compiler output.graph output.layers = .ok execute ∧
        (after.cache.artifacts call.code.id)[position]? = some stored ∧
        stored.isEquivalent (output.artifact execute) = true ∧
        (output.artifact execute).run call.frame = .ok value ∧ outcome = .ok ⟨value, path⟩ := by
  have hfits := (h.kempt (lasting_fits config)).artifacts
  refine ⟨fun id => ⟨(hfits id).length_le, (hfits id).distinct⟩, ?_⟩
  intro call original path outcome after hperform
  rw [perform_call] at hperform
  simp only [Prod.mk.injEq, Reply.answered.injEq] at hperform
  obtain ⟨⟨hpath, houtcome⟩, hafter⟩ := hperform
  have hchanges := changes gate call
  rw [hafter] at hchanges
  generalize (gate.decide call.code call.frame).1 = decision at hpath houtcome hchanges
  subst hpath houtcome
  refine ⟨hchanges.artifacts_cases, hchanges.kept_of_path, fun position hfresh => ?_⟩
  obtain ⟨compiler, output, execute, stored, value, hbackend, htrace, hcompile,
      hstored, hequivalent, hvalue, rfl⟩ := hchanges.exists_of_fresh hfresh
  exact ⟨compiler, output, execute, stored, value, hbackend, htrace, hcompile, hstored,
    hequivalent, hvalue, rfl⟩

/-- A gate that has served one call of a program. -/
def servedGate : Gate :=
  (performAll { backend := some (evaluator 100) } [.call ⟨heldSum, heldFrame 7⟩ (.ok .none)]).2

/-- The next call, on a frame that the artifact does not fit, has a second artifact made for it,
which is found at the position that the caller is told. -/
theorem servedGate_appends : ∃ entries outcome after stored output execute,
    Session { backend := some (evaluator 100) } entries servedGate ∧
    (servedGate.cache.artifacts 0).length = 1 ∧
    servedGate.perform (.call ⟨heldSum, heldFrame 8⟩ (.ok .none)) =
      (.answered (.fresh 1) outcome, after) ∧
    trace heldSum (heldFrame 8) servedGate.config = .ok output ∧
    (after.cache.artifacts 0)[1]? = some stored ∧
      stored.isEquivalent (output.artifact execute) = true := by
  have hlength : (servedGate.cache.artifacts 0).length = 1 := by decide +kernel
  have hpath : (servedGate.decide heldSum (heldFrame 8)).1.path = .fresh 1 := by decide +kernel
  obtain ⟨entries, hsession⟩ : ∃ entries,
      Session { backend := some (evaluator 100) } entries servedGate :=
    ⟨_, session_performAll _ _⟩
  have hperform := perform_call servedGate ⟨heldSum, heldFrame 8⟩ (.ok .none)
  rw [hpath] at hperform
  obtain ⟨_, output, execute, stored, _, -, htrace, -, hstored, hequivalent, -⟩ :=
    ((artifacts_append_only hsession).2 _ _ _ _ _ hperform).2.2 1 rfl
  exact ⟨entries, _, _, stored, output, execute, hsession, hlength, hperform,
    htrace, hstored, hequivalent⟩

end Gate

end GuardedTrace
