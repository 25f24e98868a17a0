/-
Listings of programs.

A listing has one instruction on a line, in its written form, with blanks around it, and any blank
lines in between.  Assembling a listing gives back its instructions (`assemble_listing`): the text
falls into the lines that it was put together from, because none of them holds a newline; a line
without its blanks at both ends is the written instruction, because this starts and ends with a
character that is not blank; and the written instruction falls into the name and the operand,
because neither holds a blank.
-/
import GuardedTrace.Code.Basic
import GuardedTrace.Proofs.PathReading
import GuardedTrace.Proofs.Results

namespace GuardedTrace

namespace Text

variable {stops : Char → Bool} {text piece left right : List Char}

/-! ### Pieces -/

lemma cutAt_ne_nil (stops : Char → Bool) (text : List Char) : cutAt stops text ≠ [] := by
  cases text with
  | nil => exact List.cons_ne_nil _ _
  | cons c rest =>
    rw [cutAt]
    split
    · exact List.cons_ne_nil _ _
    · split
      · exact List.cons_ne_nil _ _
      · exact List.cons_ne_nil _ _

/-- A cut is made at a stop. -/
lemma cutAt_stop {c : Char} (hc : stops c = true) (text : List Char) :
    cutAt stops (c :: text) = [] :: cutAt stops text := by
  rw [cutAt]
  split
  · next hnone => exact absurd hnone (cutAt_ne_nil stops text)
  · next first others hpieces => rw [if_pos hc, hpieces]

/-- A text without stops is one piece. -/
lemma cutAt_piece (h : ∀ c ∈ piece, stops c = false) : cutAt stops piece = [piece] := by
  induction piece with
  | nil => rfl
  | cons c rest ih =>
    obtain ⟨hc, hrest⟩ := List.forall_mem_cons.1 h
    rw [cutAt, ih hrest]
    simp [hc]

/-- A text without stops is the first piece of what it begins. -/
lemma cutAt_append (h : ∀ c ∈ piece, stops c = false) {stop : Char}
    (hstop : stops stop = true) (text : List Char) :
    cutAt stops (piece ++ stop :: text) = piece :: cutAt stops text := by
  induction piece with
  | nil => exact cutAt_stop hstop text
  | cons c rest ih =>
    obtain ⟨hc, hrest⟩ := List.forall_mem_cons.1 h
    rw [List.cons_append, cutAt, ih hrest]
    simp [hc]

/-- Texts without stops that are put together with a stop between neighbours are the pieces of the
whole. -/
lemma cutAt_intercalate {pieces : List (List Char)} (hne : pieces ≠ [])
    (h : ∀ piece ∈ pieces, ∀ c ∈ piece, stops c = false) {stop : Char} (hstop : stops stop = true) :
    cutAt stops ([stop].intercalate pieces) = pieces := by
  induction pieces with
  | nil => exact absurd rfl hne
  | cons piece rest ih =>
    obtain ⟨hpiece, hrest⟩ := List.forall_mem_cons.1 h
    cases rest with
    | nil =>
      rw [List.intercalate_singleton]
      exact cutAt_piece hpiece
    | cons next others =>
      rw [List.intercalate_cons_cons, List.append_assoc, List.singleton_append,
        cutAt_append hpiece hstop, ih (List.cons_ne_nil _ _) hrest]

/-! ### Blanks around a text -/

lemma dropWhile_blanks (hleft : ∀ c ∈ left, isBlank c = true) :
    (left ++ text).dropWhile isBlank = text.dropWhile isBlank := by
  induction left with
  | nil => rfl
  | cons c rest ih =>
    obtain ⟨hc, hrest⟩ := List.forall_mem_cons.1 hleft
    rw [List.cons_append, List.dropWhile_cons_of_pos hc, ih hrest]

/-- Blanks alone are trimmed to nothing. -/
lemma trim_blanks (h : ∀ c ∈ text, isBlank c = true) : trim text = [] := by
  have hdrop : text.dropWhile isBlank = [] := List.dropWhile_eq_nil_iff.2 h
  rw [trim, hdrop]
  rfl

/-- A text that neither starts nor ends with a blank comes out of the blanks around it. -/
lemma trim_padded (hleft : ∀ c ∈ left, isBlank c = true) (hright : ∀ c ∈ right, isBlank c = true)
    (hhead : ∀ c ∈ text.head?, isBlank c = false) (hlast : ∀ c ∈ text.getLast?, isBlank c = false)
    (hne : text ≠ []) : trim (left ++ text ++ right) = text := by
  have hfront : (left ++ text ++ right).dropWhile isBlank = text ++ right := by
    rw [List.append_assoc, dropWhile_blanks hleft]
    cases text with
    | nil => exact absurd rfl hne
    | cons c rest =>
      exact List.dropWhile_cons_of_neg (by simp [hhead c rfl])
  have hback : (text ++ right).reverse.dropWhile isBlank = text.reverse := by
    rw [List.reverse_append, dropWhile_blanks fun c hc => hright c (List.mem_reverse.1 hc)]
    cases hreverse : text.reverse with
    | nil => rfl
    | cons c rest =>
      refine List.dropWhile_cons_of_neg ?_
      have hc : isBlank c = false := hlast c (by rw [List.getLast?_eq_head?_reverse, hreverse]; rfl)
      simp [hc]
  rw [trim, hfront, hback, List.reverse_reverse]

end Text

/-! ### Written instructions -/

lemma Text.isBlank_of_isDigit {c : Char} (h : c.isDigit = true) : Text.isBlank c = false := by
  have hdigit : 48 ≤ c.toNat ∧ c.toNat ≤ 57 := by
    simpa [Char.isDigit, UInt32.le_iff_toNat_le] using h
  simp only [Text.isBlank, Bool.or_eq_false_iff, Bool.and_eq_false_iff,
    decide_eq_false_iff_not, beq_eq_false_iff_ne]
  omega

lemma Text.readNatural_showNat (n : Nat) : readNatural (showNat n).toList = some n := by
  have hread := readDigits_showNat n
  unfold readNatural
  split
  · next rest htext =>
    have hdigit : '+'.isDigit = true :=
      isDigit_of_mem_showNat (n := n) (by rw [htext]; exact List.mem_cons_self ..)
    exact absurd hdigit (by decide)
  · exact hread

namespace Opcode

/-- The name of an opcode is its own. -/
lemma ofName?_name (opcode : Opcode) : ofName? opcode.name = some opcode := by
  cases opcode <;> rfl

/-- No name of an opcode holds a blank. -/
lemma isBlank_of_mem_name {opcode : Opcode} {c : Char} (h : c ∈ opcode.name.toList) :
    Text.isBlank c = false := by
  have hall : opcode.name.toList.all (fun c => !Text.isBlank c) = true := by
    cases opcode <;> rfl
  simpa using List.all_eq_true.1 hall c h

lemma name_ne_nil (opcode : Opcode) : opcode.name.toList ≠ [] := by
  cases opcode <;> decide

end Opcode

namespace Instruction

variable (instruction : Instruction)

lemma toList_written : instruction.written.toList =
    instruction.opcode.name.toList ++ ' ' :: (Text.showNat instruction.operand.toNat).toList := by
  rw [written, String.toList_append, String.toList_append, List.append_assoc]
  rfl

lemma readOperand_showNat (operand : UInt32) :
    readOperand (Text.showNat operand.toNat).toList = .ok operand := by
  rw [readOperand, Text.readNatural_showNat]
  simp [operand.toNat_lt_size]

lemma showNat_ne_nil (n : Nat) : (Text.showNat n).toList ≠ [] := by
  rw [Text.showNat, String.toList_ofList]
  exact Nat.toDigits_ne_nil

/-- The words of a written instruction are its name and its operand. -/
lemma words_written : Text.words instruction.written.toList =
    [instruction.opcode.name.toList, (Text.showNat instruction.operand.toNat).toList] := by
  have hpieces : Text.cutAt Text.isBlank instruction.written.toList =
      [instruction.opcode.name.toList, (Text.showNat instruction.operand.toNat).toList] := by
    rw [toList_written, Text.cutAt_append (fun c => Opcode.isBlank_of_mem_name) (by decide),
      Text.cutAt_piece fun c hc => Text.isBlank_of_isDigit (Text.isDigit_of_mem_showNat hc)]
  have hname : instruction.opcode.name.toList.isEmpty = false :=
    List.isEmpty_eq_false_iff.2 (Opcode.name_ne_nil _)
  have hoperand : (Text.showNat instruction.operand.toNat).toList.isEmpty = false :=
    List.isEmpty_eq_false_iff.2 (showNat_ne_nil _)
  rw [Text.words, hpieces]
  simp only [List.filter_cons, hname, hoperand, Bool.not_false, if_true, List.filter_nil]

/-- A written instruction reads as the instruction. -/
lemma read_written : Instruction.read instruction.written.toList = .ok instruction := by
  rw [Instruction.read, words_written, ofWords, String.ofList_toList, Opcode.ofName?_name]
  simp only [readOperand_showNat]
  rfl

/-- A written instruction starts with the name of its opcode, not with a blank. -/
lemma isBlank_head_written : ∀ c ∈ instruction.written.toList.head?, Text.isBlank c = false := by
  intro c hc
  rw [toList_written] at hc
  cases hname : instruction.opcode.name.toList with
  | nil => exact absurd hname (Opcode.name_ne_nil _)
  | cons first rest =>
    rw [hname] at hc
    obtain rfl := Option.some.inj hc
    exact Opcode.isBlank_of_mem_name (hname ▸ List.mem_cons_self ..)

/-- A written instruction ends with a digit. -/
lemma isBlank_last_written : ∀ c ∈ instruction.written.toList.getLast?, Text.isBlank c = false := by
  intro c hc
  rw [toList_written, List.getLast?_append, List.getLast?_cons] at hc
  have hmem : c ∈ (Text.showNat instruction.operand.toNat).toList := by
    cases hdigits : (Text.showNat instruction.operand.toNat).toList.getLast? with
    | none => exact absurd (List.getLast?_eq_none_iff.1 hdigits) (showNat_ne_nil _)
    | some last =>
      rw [hdigits] at hc
      obtain rfl := Option.some.inj hc
      exact List.mem_of_getLast? hdigits
  exact Text.isBlank_of_isDigit (Text.isDigit_of_mem_showNat hmem)

lemma written_ne_nil : instruction.written.toList ≠ [] := by
  rw [toList_written]
  exact List.append_ne_nil_of_right_ne_nil _ (List.cons_ne_nil _ _)

/-- A written instruction stays on its line. -/
lemma newline_not_mem_written {c : Char} (h : c ∈ instruction.written.toList) : c ≠ '\n' := by
  rintro rfl
  rw [toList_written, List.mem_append, List.mem_cons] at h
  rcases h with h | h | h
  · exact absurd (Opcode.isBlank_of_mem_name h) (by decide)
  · exact absurd h (by decide)
  · exact absurd (Text.isDigit_of_mem_showNat h) (by decide)

end Instruction

/-! ### Listings -/

/-- Blanks within a line. -/
structure Margin where
  blanks : List Char
  isBlank : ∀ c ∈ blanks, Text.isBlank c = true
  inLine : ∀ c ∈ blanks, c ≠ '\n'

/-- A line of a listing. -/
inductive ListingLine where
  | empty (margin : Margin)
  | step (left : Margin) (instruction : Instruction) (right : Margin)

namespace ListingLine

/-- The text of a line. -/
def text : ListingLine → List Char
  | empty margin => margin.blanks
  | step left instruction right => left.blanks ++ instruction.written.toList ++ right.blanks

/-- The instruction on a line. -/
def instruction? : ListingLine → Option Instruction
  | empty _ => none
  | step _ instruction _ => some instruction

lemma newline_not_mem_text (line : ListingLine) {c : Char} (h : c ∈ line.text) : c ≠ '\n' := by
  cases line with
  | empty margin => exact margin.inLine c h
  | step left instruction right =>
    rw [text, List.mem_append, List.mem_append] at h
    rcases h with (h | h) | h
    · exact left.inLine c h
    · exact instruction.newline_not_mem_written h
    · exact right.inLine c h

/-- Without the blanks at its ends a line is its written instruction, or nothing. -/
lemma trim_text (line : ListingLine) :
    Text.trim line.text = (line.instruction?.map fun instruction =>
      instruction.written.toList).getD [] := by
  cases line with
  | empty margin => exact Text.trim_blanks margin.isBlank
  | step left instruction right =>
    exact Text.trim_padded left.isBlank right.isBlank instruction.isBlank_head_written
      instruction.isBlank_last_written instruction.written_ne_nil

end ListingLine

/-- The text of a listing: its lines, with a newline between neighbours. -/
def listingText (listing : List ListingLine) : List Char :=
  ['\n'].intercalate (listing.map ListingLine.text)

/-- The instructions of a listing. -/
def listedInstructions (listing : List ListingLine) : List Instruction :=
  listing.filterMap ListingLine.instruction?

lemma lines_listingText {listing : List ListingLine} (hne : listing ≠ []) :
    Text.lines (listingText listing) = listing.map ListingLine.text := by
  refine Text.cutAt_intercalate ?_ ?_ rfl
  · exact fun hnil => hne (List.map_eq_nil_iff.1 hnil)
  · intro piece hpiece c hc
    obtain ⟨line, -, rfl⟩ := List.mem_map.1 hpiece
    exact beq_eq_false_iff_ne.2 (line.newline_not_mem_text hc)

/-- The lines that are left when blanks are trimmed and empty lines are dropped. -/
lemma trimmed_lines (listing : List ListingLine) :
    ((listing.map ListingLine.text).map Text.trim).filter (!·.isEmpty) =
      (listedInstructions listing).map fun instruction => instruction.written.toList := by
  unfold listedInstructions
  induction listing with
  | nil => rfl
  | cons line rest ih =>
    rw [List.map_cons, List.map_cons, List.filter_cons, ListingLine.trim_text, ih]
    cases hline : line.instruction? with
    | none =>
      rw [List.filterMap_cons_none hline]
      rfl
    | some instruction =>
      have hne : instruction.written.toList.isEmpty = false :=
        List.isEmpty_eq_false_iff.2 instruction.written_ne_nil
      rw [List.filterMap_cons_some hline, Option.map_some, Option.getD_some, hne]
      rfl

/-- Written instructions are read one after the other. -/
lemma mapM_read_written (program : List Instruction) :
    (program.map fun instruction => instruction.written.toList).mapM Instruction.read =
      .ok program := by
  induction program with
  | nil => rfl
  | cons instruction rest ih =>
    rw [List.map_cons, List.mapM_cons, Instruction.read_written, ih]
    rfl

/-- **Assembling undoes writing**: a listing, with blanks around the written instructions and blank
lines wherever it may have them, is assembled to exactly its instructions. -/
theorem assemble_listing (listing : List ListingLine) :
    Code.assemble (String.ofList (listingText listing)) = .ok (listedInstructions listing) := by
  -- A text without lines still has one, the empty line.
  by_cases hne : listing = []
  · subst hne
    rfl
  · rw [Code.assemble, String.toList_ofList, lines_listingText hne, trimmed_lines]
    exact mapM_read_written _

example : Code.assemble "\n  LOAD_FAST 0\n\n RETURN_VALUE 4294967295 \t\r\n" =
    .ok [⟨.loadFast, 0⟩, ⟨.returnValue, 4294967295⟩] := by decide +kernel

end GuardedTrace
