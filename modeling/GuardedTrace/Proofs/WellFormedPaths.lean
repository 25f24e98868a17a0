/-
Paths and their texts.

A well-formed path has one text, and reading that text gives the path back (`Path.read_written`).
What is read from any text is well formed (`Path.wellFormed_of_read`).  So on well-formed paths
writing is injective, while a path that is not well formed has a text that is malformed or belongs
to another path.
-/
import GuardedTrace.Proofs.Places

namespace GuardedTrace

namespace PathStep

/-- The step can be read back: an attribute is an identifier or a run of digits, and a text key
contains no closing bracket. -/
def Legible : PathStep → Prop
  | attr name => isAttrName name.toList = true
  | index key => ∀ text, key = .text text → ']' ∉ text.toList

/-- The characters of a key that is read stand between the brackets. -/
lemma mem_of_readKey {inner : List Char} {text : String}
    (h : readKey inner = some (.text text)) {c : Char}
    (hc : c ∈ text.toList) : c ∈ inner := by
  have hinteger : ∀ {number : Option Int64}, number.map Key.int ≠ some (.text text) := by
    intro number hnumber
    obtain ⟨_, _, heq⟩ := Option.map_eq_some_iff.1 hnumber
    cases heq
  simp only [readKey] at h
  split at h
  · next body =>
    split at h
    · obtain rfl : String.ofList body.dropLast = text := by simpa using h
      rw [String.toList_ofList] at hc
      exact List.mem_cons_of_mem _ (List.mem_of_mem_dropLast hc)
    · exact absurd h hinteger
  · exact absurd h hinteger

/-- Steps that are read can be read back. -/
lemma legible_of_readAll {fuel : Nat} {text : List Char} {steps : List PathStep}
    (h : readAll fuel text = some steps) : ∀ step ∈ steps, step.Legible := by
  induction fuel generalizing text steps with
  | zero =>
    rcases readAll_cases h with ⟨-, rfl⟩ | ⟨less, -, hless, -⟩
    · simp
    · omega
  | succ fuel ih =>
    rcases readAll_cases h with ⟨-, rfl⟩ | ⟨-, rest, -, rfl | rfl⟩
    · simp
    · obtain ⟨hname, inner, hinner, rfl⟩ := readAll_dot.1 h
      refine List.forall_mem_cons.2 ⟨?_, ih hinner⟩
      rwa [Legible, String.toList_ofList]
    · obtain ⟨key, after, hkey, -, inner, hinner, rfl⟩ := readAll_open.1 h
      refine List.forall_mem_cons.2 ⟨?_, ih hinner⟩
      rintro content rfl hclosing
      simpa using List.mem_takeWhile_imp (mem_of_readKey hkey hclosing)

end PathStep

namespace Path

variable {path : Path} {step : PathStep}

/-- The root is an identifier, and all steps can be read back. -/
structure WellFormed (path : Path) : Prop where
  root : Text.isIdentifier path.root.toList = true
  steps : ∀ step ∈ path.steps, step.Legible

/-- The path with one more step at its end. -/
def below (path : Path) (step : PathStep) : Path := ⟨path.root, path.steps ++ [step]⟩

lemma wellFormed_below : (path.below step).WellFormed ↔ path.WellFormed ∧ step.Legible := by
  constructor
  · rintro ⟨hroot, hsteps⟩
    exact ⟨⟨hroot, fun inner hinner => hsteps inner (List.mem_append_left _ hinner)⟩,
      hsteps step (by simp [below])⟩
  · rintro ⟨⟨hroot, hsteps⟩, hstep⟩
    refine ⟨hroot, fun inner hinner => ?_⟩
    rcases List.mem_append.1 hinner with hinner | hinner
    · exact hsteps inner hinner
    · exact List.mem_singleton.1 hinner ▸ hstep

lemma written_below : (path.below step).written = path.written ++ step.written := by
  simp [written, below, List.foldl_append]

lemma written_below_attr (path : Path) (name : String) :
    (path.below (.attr name)).written = path.written ++ "." ++ name := by
  rw [written_below, PathStep.written, String.append_assoc]

lemma written_below_index (path : Path) (key : Key) :
    (path.below (.index key)).written = path.written ++ "[" ++ key.written ++ "]" := by
  rw [written_below, PathStep.written, String.append_assoc,
    String.append_assoc, String.append_assoc]

lemma written_below_position (path : Path) {position : Nat} (hword : position < wordLimit) :
    (path.below (.index (.int (Int64.ofInt position)))).written =
      path.written ++ "[" ++ Text.showNat position ++ "]" := by
  rw [written_below_index, Key.written, Frame.toInt_ofInt_position hword]
  rfl

/-- Reading the text of a well-formed path gives the path. -/
lemma read_written (h : path.WellFormed) : Path.read path.written = .ok path := by
  obtain ⟨root, steps⟩ := path
  induction steps using List.reverseRecOn with
  | nil => exact read_identifier h.root
  | append_singleton steps step ih =>
    have hlonger : (below ⟨root, steps⟩ step).WellFormed := h
    obtain ⟨hpath, hstep⟩ := wellFormed_below.1 hlonger
    have hread := ih hpath
    change Path.read (below ⟨root, steps⟩ step).written = _
    cases step with
    | attr name => rw [written_below_attr, read_attr hread hstep]
    | index key => rw [written_below_index, read_index hread hstep]

/-- What is read is well formed. -/
lemma wellFormed_of_read {text : String} (h : Path.read text = .ok path) : path.WellFormed := by
  simp only [Path.read] at h
  split at h
  · next hroot =>
    split at h
    · next steps hsteps =>
      obtain rfl := Except.ok.inj h
      exact ⟨by rwa [String.toList_ofList], PathStep.legible_of_readAll hsteps⟩
    · cases h
  · cases h

/-- Well-formed paths of one text are one path. -/
lemma eq_of_written_eq {other : Path} (h : path.WellFormed) (hother : other.WellFormed)
    (hwritten : other.written = path.written) : other = path := by
  have := read_written hother
  rw [hwritten, read_written h] at this
  exact (Except.ok.inj this).symm

/-- **Paths are read exactly as they are written**: the text of a path reads as the path if and only
if the path is well formed, and whatever text reads as a path, the path is well formed, so that its
own text reads as it again.  Of the classes of characters this uses only that delimiters are no part
of identifiers. -/
theorem read_written_iff (path : Path) :
    (Path.read path.written = .ok path ↔ path.WellFormed) ∧
      ∀ text, Path.read text = .ok path → path.WellFormed ∧ Path.read path.written = .ok path := by
  refine ⟨⟨wellFormed_of_read, read_written⟩, fun text htext => ?_⟩
  have hpath := wellFormed_of_read htext
  exact ⟨hpath, read_written hpath⟩

/-- A digit as an attribute, a text key with delimiters and quotes in it, an empty key and the least
integer: the path is well formed.  A numeral that is not written in this way reads as the same
path. -/
theorem layerPath_read :
    let path : Path := ⟨"m", [.attr "layers", .attr "2", .index (.text "'a.[b'"), .index (.text ""),
      .index (.int Int64.minValue)]⟩
    path.written = "m.layers.2[''a.[b''][''][-9223372036854775808]" ∧
      Path.read path.written = .ok path ∧
      Path.read "m.layers.2[''a.[b''][''][-09223372036854775808]" = .ok path := by
  intro path
  have hother : Path.read "m.layers.2[''a.[b''][''][-09223372036854775808]" = .ok path := by
    decide +kernel
  exact ⟨by decide +kernel, ((read_written_iff path).2 _ hother).2, hother⟩

end Path

end GuardedTrace
