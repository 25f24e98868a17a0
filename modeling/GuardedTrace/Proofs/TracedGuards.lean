/-
The guards of a trace hold on the frame of the trace.

All values that a trace has on its stack and in its tables are sound on the frame.  Every
instruction keeps them sound, and adds no guards but those of values that it pushes; so the guards
that a completed trace has collected hold where it was traced.
-/
import GuardedTrace.Proofs.SoundValues
import GuardedTrace.Proofs.TracedValues

namespace GuardedTrace

section

variable {code : Code} {frame : Frame} {config : Config} {output : TraceOutput}

lemma holds_of_trace (hvarNames : ∀ name ∈ code.varNames, Text.isIdentifier name.toList = true)
    (hnames : ∀ name ∈ code.names, Text.isIdentifier name.toList = true)
    (hregular : frame.Regular) (hshort : frame.ShortSequences)
    (htrace : trace code frame config = .ok output) : ∀ guard ∈ output.guards, guard.Holds frame :=
  guards_of_trace (Symbolic.inherited_sound frame)
    (binds_sound hvarNames hnames hregular hshort) htrace

/-- **The guards of a trace hold where it was traced**: a check of the guards on the frame of the
trace finds no failure. -/
theorem traced_guards_pass
    (hvarNames : ∀ name ∈ code.varNames, Text.isIdentifier name.toList = true)
    (hnames : ∀ name ∈ code.names, Text.isIdentifier name.toList = true)
    (hregular : frame.Regular) (hshort : frame.ShortSequences)
    (htrace : trace code frame config = .ok output) : output.guards.failure? frame = none :=
  GuardSet.failure?_eq_none_iff.2 (holds_of_trace hvarNames hnames hregular hshort htrace)

end

/-- `o.table["a.b"][0] + len(o.table)`. -/
def heldSum : Code :=
  { id := 0, name := "held_sum", argCount := 1, varNames := ["o"], names := ["table", "len"]
    constants := [.str "a.b", .int 0]
    instructions := [⟨.loadFast, 0⟩, ⟨.loadAttr, 0⟩, ⟨.loadConst, 0⟩,
      ⟨.binarySubscr, 0⟩, ⟨.loadConst, 1⟩,
      ⟨.binarySubscr, 0⟩, ⟨.loadGlobal, 1⟩, ⟨.loadFast, 0⟩, ⟨.loadAttr, 0⟩, ⟨.callFunction, 1⟩,
      ⟨.binaryAdd, 0⟩, ⟨.returnValue, 0⟩] }

/-- A number, in a list, in a dictionary, in an object. -/
inductive Held (number : Int64) : Value → Prop where
  | number : Held number (.int number)
  | list : Held number (.list [.int number])
  | table : Held number (.dict [(.text "a.b", .list [.int number])])
  | holder : Held number (.object
    ⟨.declared 1, "Holder", [("table", .dict [(.text "a.b", .list [.int number])])]⟩)

def heldFrame (number : Int64) : Frame :=
  { locals :=
      [("o", .object ⟨.declared 1, "Holder",
        [("table", .dict [(.text "a.b", .list [.int number])])]⟩)] }

lemma held_of_reaches {number : Int64} {value : Value} (h : (heldFrame number).Reaches value) :
    Held number value := by
  refine h.induct (fun scope name root hroot => ?_) fun value step item hvalue htake => ?_
  · cases scope with
    | locals =>
      obtain ⟨before, after, hbindings, -⟩ := List.lookup_eq_some_iff.1 hroot
      have hmem : (name, root) ∈ (heldFrame number).locals := by
        rw [hbindings]
        exact List.mem_append_right _ (List.mem_cons_self ..)
      cases List.mem_singleton.1 hmem
      exact .holder
    | globals => cases hroot
  · cases hvalue with
    | number =>
      rcases step with name | ⟨key | key⟩ <;> cases htake
    | list =>
      rcases step with name | ⟨key | key⟩
      · cases htake
      · have hitem := List.mem_singleton.1 (Value.mem_of_itemAt htake)
        exact hitem ▸ .number
      · cases htake
    | table =>
      rcases step with name | key
      · cases htake
      · have hentry : Value.entryAt [(.text "a.b", .list [.int number])] key = .ok item := by
          cases key <;> exact htake
        cases List.mem_singleton.1 (Value.mem_of_entryAt hentry)
        exact .list
    | holder =>
      rcases step with name | ⟨key | key⟩
      · by_cases hname : name = "table"
        · subst hname
          cases htake
          exact .table
        · simp [Path.take, Value.getAttr, List.lookup_cons, beq_eq_false_iff_ne.2 hname] at htake
      · cases htake
      · cases htake

lemma regular_heldFrame (number : Int64) : (heldFrame number).Regular := by
  intro entries h
  cases held_of_reaches h
  simp [Table.keys]

lemma shortSequences_heldFrame (number : Int64) : (heldFrame number).ShortSequences := by
  rintro items (h | h) <;> cases held_of_reaches h
  exact Nat.lt_of_lt_of_le Nat.one_lt_two (by decide)

/-- The guards on the object, its dictionary, the list in it, the number and the builtin hold. -/
theorem heldSum_guards_pass : ∃ output, trace heldSum (heldFrame 7) {} = .ok output ∧
    output.guards.length = 5 ∧ output.guards.failure? (heldFrame 7) = none := by
  have hlength : (trace heldSum (heldFrame 7) {}).toOption.map
      (fun output => output.guards.length) =
      some 5 := by decide +kernel
  cases htrace : trace heldSum (heldFrame 7) {} with
  | error stop => simp [htrace, Except.toOption] at hlength
  | ok output =>
    simp only [htrace, Except.toOption, Option.map_some, Option.some.injEq] at hlength
    exact ⟨output, rfl, hlength, traced_guards_pass (by decide) (by decide) (regular_heldFrame 7)
      (shortSequences_heldFrame 7) htrace⟩

end GuardedTrace
