/-
Errors of direct runs that an artifact masks.

A trace puts an operation off when it gives the result up as unknown or reads an attribute lazily.
A result that is put off and never used is no part of the graph, so the artifact answers although a
direct run fails at the operation.  This is the only way in which an artifact masks an error of a
program that stays clear of two things.  The trace must not slip, that is, take operands that a run
refuses; and the run has to bear out what the trace takes for granted of its operands and infers of
its results.  Both do mask errors otherwise, also where the result is returned
(`errors_masked_by_slips`, `errors_masked_by_mistakes`).
-/
import GuardedTrace.Proofs.Artifacts
import GuardedTrace.Proofs.GuardFlow

namespace GuardedTrace

/-! ### Steps in lockstep -/

section

variable {context : TraceContext} {state after last : Tracer} {machine : Machine} {flow : Flow}
  {instruction : Instruction} {output : TraceOutput} {fuel : Nat}

end

/-! ### Errors that are masked by design -/

section

variable {context : TraceContext} {output : TraceOutput}

end

/-! ### Masked errors -/

/-- What an artifact answers on the frame of its trace, when a direct run fails there. -/
def maskedAnswer? (code : Code) (frame : Frame) (config : Config) : Option Literal :=
  match trace code frame config with
  | .error _ => none
  | .ok output =>
    match evaluator 4096 output.graph output.layers with
    | .error _ => none
    | .ok execute =>
      match (output.artifact execute).run frame, code.run maxTraceSteps frame with
      | .ok answer, some (.error _) => answer.literal?
      | _, _ => none

/-- The artifact of the trace on a frame answers with a literal there, and a direct run fails. -/
def MasksError (code : Code) (frame : Frame) (config : Config) (literal : Literal) : Prop :=
  ∃ output execute error, trace code frame config = .ok output ∧
    evaluator 4096 output.graph output.layers = .ok execute ∧
    (output.artifact execute).run frame = .ok (.ofLiteral literal) ∧
    code.run maxTraceSteps frame = some (.error error)

lemma masksError_of_maskedAnswer? {code : Code} {frame : Frame} {config : Config}
    {literal : Literal} (h : maskedAnswer? code frame config = some literal) :
    MasksError code frame config literal := by
  unfold maskedAnswer? at h
  split at h
  · cases h
  next output htrace =>
  split at h
  · cases h
  next execute hcompile =>
  split at h
  · next answer error hanswer hrun =>
    rw [Value.eq_ofLiteral_of_literal? h] at hanswer
    exact ⟨output, execute, error, htrace, hcompile, hanswer, hrun⟩
  · cases h

/-- A program that computes something, drops it, and returns 3. -/
def dropping (varNames names : List String) (instructions : List Instruction) : Code :=
  { id := 0, name := "dropping", argCount := varNames.length, varNames, names, constants := [.int 3]
    instructions := instructions ++ [⟨.popTop, 0⟩, ⟨.loadConst, 0⟩, ⟨.returnValue, 0⟩] }

/-- The array `[0.0]`. -/
def row : NumArray := .contiguous .float64 .cpu [1] [⟨0⟩]

/-- `[len] + 3`, dropped. -/
def unaddable : Code :=
  dropping [] ["len"] [⟨.loadGlobal, 0⟩, ⟨.buildList, 1⟩, ⟨.loadConst, 0⟩, ⟨.binaryAdd, 0⟩]

/-- Programs with a result that is put off and dropped. -/
def postponing : List (Code × Frame) :=
  [(unaddable, {}),
    -- `(3).real`, which is unknown
    (dropping [] ["real"] [⟨.loadConst, 0⟩, ⟨.loadAttr, 0⟩], {}),
    -- `x.missing`, which is read when it is used
    (dropping ["x"] ["missing"] [⟨.loadFast, 0⟩, ⟨.loadAttr, 0⟩],
      { locals := [("x", .array row)] })]

/-- An artifact masks the error of an operation that was put off. -/
theorem errors_masked_by_postponing : postponing.length = 3 ∧
    ∀ entry ∈ postponing, MasksError entry.1 entry.2 {} (.int 3) := by
  have hmasked : ∀ entry ∈ postponing, maskedAnswer? entry.1 entry.2 {} = some (.int 3) := by
    decide +kernel
  exact ⟨rfl, fun entry hentry => masksError_of_maskedAnswer? (hmasked entry hentry)⟩

/-- Programs whose trace slips, and what their artifacts return. -/
def slipping : List (Code × Frame × Literal) :=
  [ -- `xs[True]`
    ({ id := 0, name := "indexed", argCount := 1, varNames := ["xs"], names := []
       constants := [.bool true]
       instructions := [⟨.loadFast, 0⟩, ⟨.loadConst, 0⟩, ⟨.binarySubscr, 0⟩, ⟨.returnValue, 0⟩] },
      { locals := [("xs", .list [.int 10, .int 20])] }, .int 20),
    -- `x.size(slice(None, None, None))`
    ({ id := 0, name := "queried", argCount := 1, varNames := ["x"], names := ["size"]
       constants := [.slice ⟨none, none, none⟩]
       instructions := [⟨.loadFast, 0⟩, ⟨.loadMethod, 0⟩, ⟨.loadConst, 0⟩, ⟨.callMethod, 1⟩,
         ⟨.returnValue, 0⟩] },
      { locals := [("x", .array row)] }, .tuple [.int 1]),
    -- an iterator over `(1,)` in a variable, and a loop over it that returns the item
    ({ id := 0, name := "iterated", argCount := 0, varNames := ["i"], names := []
       constants := [.tuple [.int 1], .none]
       instructions := [⟨.loadConst, 0⟩, ⟨.getIter, 0⟩, ⟨.storeFast, 0⟩, ⟨.loadFast, 0⟩,
         ⟨.forIter, 6⟩, ⟨.returnValue, 0⟩, ⟨.loadConst, 1⟩, ⟨.returnValue, 0⟩] },
      {}, .int 1)]

/-- Where a trace slips, an artifact returns the result of an operation that a direct run
refuses. -/
theorem errors_masked_by_slips : slipping.length = 3 ∧ ∀ entry ∈ slipping,
    (∃ step ∈ traceSteps entry.1 entry.2.1 {},
      step.instruction.slips step.before.stack = true) ∧
      MasksError entry.1 entry.2.1 {} entry.2.2 := by
  have hslips : ∀ entry ∈ slipping, ∃ step ∈ traceSteps entry.1 entry.2.1 {},
      step.instruction.slips step.before.stack = true := by decide +kernel
  have hmasked : ∀ entry ∈ slipping, maskedAnswer? entry.1 entry.2.1 {} = some entry.2.2 := by
    decide +kernel
  exact ⟨rfl, fun entry hentry =>
    ⟨hslips entry hentry, masksError_of_maskedAnswer? (hmasked entry hentry)⟩⟩

/-- Programs whose run does not bear out what the trace takes for granted of an operand.  An unfit
bound has to be dropped with its slice, which is no value of a graph. -/
def mistaking : List (Code × Frame × Config × Literal) :=
  [ -- `sum(s).shape` for a number, which is taken for an array, returned
    ({ id := 0, name := "shaped", argCount := 1, varNames := ["s"], names := ["sum", "shape"]
       constants := []
       instructions := [⟨.loadGlobal, 0⟩, ⟨.loadFast, 0⟩, ⟨.callFunction, 1⟩, ⟨.loadAttr, 1⟩,
         ⟨.returnValue, 0⟩] },
      { locals := [("s", .float ⟨0⟩)], globals := [("sum", .primitive .sum)] },
      { specializeScalars := false }, .tuple []),
    -- a slice from `len` to 3, dropped
    (dropping [] ["len"] [⟨.loadGlobal, 0⟩, ⟨.loadConst, 0⟩, ⟨.buildSlice, 2⟩], {}, {}, .int 3)]

/-- An artifact answers where an operand is not what the trace takes it for. -/
theorem errors_masked_by_mistakes : mistaking.length = 2 ∧ ∀ entry ∈ mistaking,
    MasksError entry.1 entry.2.1 entry.2.2.1 entry.2.2.2 := by
  have hmasked : ∀ entry ∈ mistaking,
      maskedAnswer? entry.1 entry.2.1 entry.2.2.1 = some entry.2.2.2 := by decide +kernel
  exact ⟨rfl, fun entry hentry => masksError_of_maskedAnswer? (hmasked entry hentry)⟩

/-! ### A frame with an array and a layer -/

/-- `x.missing`, where `x` is multiplied by the weight of `m`, dropped, and then `x.shape`. -/
def unread : Code :=
  { id := 0, name := "unread", argCount := 2, varNames := ["x", "m"]
    names := ["weight", "missing", "shape"], constants := []
    instructions := [⟨.loadFast, 0⟩, ⟨.loadFast, 1⟩, ⟨.loadAttr, 0⟩, ⟨.binaryMultiply, 0⟩,
      ⟨.loadAttr, 1⟩, ⟨.popTop, 0⟩, ⟨.loadFast, 0⟩, ⟨.loadAttr, 2⟩, ⟨.returnValue, 0⟩] }

/-- An array of at most one dimension, an attribute of one, or the layer. -/
inductive Flat : Value → Prop where
  | layer : Flat (.layer (.weighted (.declared 1) (.array row)))
  | array {numbers : NumArray} (h : numbers.shape.length ≤ 1) : Flat (.array numbers)
  | sizes {items : List Value} (hlength : items.length ≤ 1)
    (hitems : ∀ item ∈ items, ∃ word, item = .int word) : Flat (.tuple items)
  | int (word : Int64) : Flat (.int word)
  | bool (truth : Bool) : Flat (.bool truth)
  | elementType (type : ElementType) : Flat (.elementType type)
  | device (device : Device) : Flat (.device device)
  | method (id : Identity) (receiver : Value) (function : Primitive) :
    Flat (.boundPrimitive id receiver function)

lemma flat_of_ofSize {size : Nat} {value : Value} (h : Value.ofSize size = .ok value) :
    ∃ word, value = .int word := by
  obtain ⟨word, -, rfl⟩ := except_map_eq_ok.1 h
  exact ⟨word, rfl⟩

/-- What an attribute of an array of at most one dimension is. -/
lemma flat_of_arrayAttr {numbers : NumArray} {name : String} {item : Value}
    (hrank : numbers.shape.length ≤ 1) (h : Value.arrayAttr 0 numbers name = .ok item) :
    Flat item := by
  unfold Value.arrayAttr at h
  split at h
  · obtain ⟨sizes, hsizes, rfl⟩ := except_map_eq_ok.1 h
    have hsizes := mapM_eq_ok.1 hsizes
    refine .sizes (hsizes.length_eq ▸ hrank) fun part hpart => ?_
    obtain ⟨size, -, hsize⟩ := exists_of_mem_right hsizes hpart
    exact flat_of_ofSize hsize
  · obtain ⟨word, rfl⟩ := flat_of_ofSize h
    exact .int word
  · exact Except.ok.inj h ▸ .elementType _
  · exact Except.ok.inj h ▸ .device _
  · exact Except.ok.inj h ▸ .bool _
  · split at h
    · exact Except.ok.inj h ▸ .method _ _ _
    · cases h

lemma Flat.take {value item : Value} {step : PathStep} (hvalue : Flat value)
    (h : Path.take value step = .ok item) : Flat item := by
  cases hvalue with
  | layer =>
    rcases step with name | ⟨key | key⟩
    · by_cases hname : name = "weight"
      · subst hname
        exact Except.ok.inj h ▸ .array (Nat.le_refl _)
      · simp [Path.take, Value.getAttr, Layer.member?, Layer.weighted, List.lookup_cons,
          beq_eq_false_iff_ne.2 hname] at h
    · cases h
    · cases h
  | array hrank =>
    rcases step with name | ⟨key | key⟩
    · exact flat_of_arrayAttr hrank h
    · obtain ⟨row, hrow, rfl⟩ := except_map_eq_ok.1 h
      obtain ⟨size, hshape, -⟩ := NumArray.select_eq_ok hrow
      rw [hshape, List.length_cons] at hrank
      exact .array (by omega)
    · cases h
  | sizes _ hitems =>
    rcases step with name | ⟨key | key⟩
    · cases h
    · obtain ⟨word, rfl⟩ := hitems item (Value.mem_of_itemAt h)
      exact .int word
    · cases h
  | int | bool | elementType | device | method =>
    rcases step with name | ⟨key | key⟩ <;> cases h

end GuardedTrace
