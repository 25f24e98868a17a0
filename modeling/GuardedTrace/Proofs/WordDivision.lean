/-
Division of words, rounded down.

The quotient of two words is computed by rounding toward zero, and is then corrected: where the
remainder is not zero and has another sign than the divisor, the quotient is one too great and the
remainder one divisor too far (`floor_div_eq_floored`).  Quotients are exact in this way.  A
remainder is always a word, since it lies between zero and the divisor; but it is only computed
where the quotient rounded toward zero is a word too, which fails for the least word divided by `-1`
(`narrow_tdiv_eq_none_iff`).
-/
import Mathlib.Data.Rat.Floor
import Mathlib.Tactic
import GuardedTrace.Value.Arithmetic

namespace GuardedTrace

/-- A division of two words gives an integer: a zero divisor is refused, the word of the integer is
the value, and there is an overflow exactly when the integer has no word. -/
structure DivisionExact (operation : Primitive) (a b : Int64) (n : Int) : Prop where
  zero : b = 0 → intBinary operation a b = .error (.zeroDivision .integer)
  word : b ≠ 0 → ∀ word : Int64, word.toInt = n → intBinary operation a b = .ok (.int word)
  overflow_iff : b ≠ 0 → (intBinary operation a b = .error (.overflow (.integer operation)) ↔
    ∀ word : Int64, word.toInt ≠ n)

/-! ### Rounding down -/

/-- The remainder rounded toward zero lies on the other side of zero than the divisor. -/
def Overshoots (a b : Int) : Prop := a.tmod b ≠ 0 ∧ (decide (a.tmod b < 0) != decide (b < 0)) = true

instance (a b : Int) : Decidable (Overshoots a b) := inferInstanceAs (Decidable (_ ∧ _))

/-- The quotient rounded down, from the one rounded toward zero. -/
def flooredQuotient (a b : Int) : Int := if Overshoots a b then a.tdiv b - 1 else a.tdiv b

/-- The remainder that goes with the quotient rounded down. -/
def flooredRemainder (a b : Int) : Int := if Overshoots a b then a.tmod b + b else a.tmod b

section

variable {a b : Int}

lemma flooredRemainder_eq (a b : Int) : flooredRemainder a b = a - b * flooredQuotient a b := by
  have hparts := Int.mul_tdiv_add_tmod a b
  unfold flooredRemainder flooredQuotient
  split
  · rw [mul_sub, mul_one]
    omega
  · omega

/-- The remainder lies between zero and the divisor. -/
lemma flooredRemainder_bounds (hb : b ≠ 0) :
    0 < b ∧ 0 ≤ flooredRemainder a b ∧ flooredRemainder a b < b ∨
      b < 0 ∧ flooredRemainder a b ≤ 0 ∧ b < flooredRemainder a b := by
  have hsize : (a.tmod b).natAbs < b.natAbs := by
    rw [Int.natAbs_tmod]
    exact Nat.mod_lt _ (by omega)
  unfold flooredRemainder
  split
  · next hover =>
    obtain ⟨hne, hsigns⟩ := hover
    simp only [bne_iff_ne, ne_eq, decide_eq_decide] at hsigns
    omega
  · next hover =>
    simp only [Overshoots, bne_iff_ne, ne_eq, decide_eq_decide, not_and, not_not] at hover
    by_cases hzero : a.tmod b = 0
    · omega
    · have hsigns := hover hzero
      omega

/-- The corrected quotient is the floor of the quotient. -/
lemma floor_div_eq_floored (hb : b ≠ 0) : ⌊(a : ℚ) / b⌋ = flooredQuotient a b := by
  have hremainder := flooredRemainder_eq a b
  rw [Int.floor_eq_iff]
  rcases flooredRemainder_bounds (a := a) hb with ⟨hpos, hlower, hupper⟩ | ⟨hneg, hupper, hlower⟩
  · have hpos' : (0 : ℚ) < b := by exact_mod_cast hpos
    have hle : flooredQuotient a b * b ≤ a := by linarith [mul_comm b (flooredQuotient a b)]
    have hlt : a < (flooredQuotient a b + 1) * b := by linarith [mul_comm b (flooredQuotient a b)]
    exact ⟨(le_div_iff₀ hpos').2 (by exact_mod_cast hle),
      (div_lt_iff₀ hpos').2 (by exact_mod_cast hlt)⟩
  · have hneg' : (b : ℚ) < 0 := by exact_mod_cast hneg
    have hle : a ≤ flooredQuotient a b * b := by linarith [mul_comm b (flooredQuotient a b)]
    have hlt : (flooredQuotient a b + 1) * b < a := by linarith [mul_comm b (flooredQuotient a b)]
    exact ⟨(le_div_iff_of_neg hneg').2 (by exact_mod_cast hle),
      (div_lt_iff_of_neg hneg').2 (by exact_mod_cast hlt)⟩

end

/-! ### Quotients and remainders of words -/

variable {a b : Int64}

/-- The only quotient of words, rounded toward zero, that is no word. -/
lemma narrow_tdiv_eq_none_iff :
    narrow (a.toInt.tdiv b.toInt) = none ↔ a.toInt = -(wordLimit : Int) ∧ b.toInt = -1 := by
  have ha := a.le_toInt
  have ha' := a.toInt_lt
  rw [narrow_eq_none_iff]
  unfold wordLimit
  by_cases hminus : b.toInt = -1
  · rw [hminus, Int.tdiv_neg, Int.tdiv_one]
    omega
  by_cases hone : b.toInt = 1
  · rw [hone, Int.tdiv_one]
    omega
  by_cases hzero : b.toInt = 0
  · rw [hzero, Int.tdiv_zero]
    omega
  -- Any other divisor at least halves the size.
  have hhalf : (a.toInt.tdiv b.toInt).natAbs ≤ a.toInt.natAbs / 2 := by
    rw [Int.natAbs_tdiv]
    exact Nat.div_le_div_left (by omega) (by omega)
  omega

lemma floorDivWord_eq (a b : Int64) :
    floorDivWord a b = narrow (flooredQuotient a.toInt b.toInt) := by
  unfold floorDivWord flooredQuotient
  cases hquotient : narrow (a.toInt.tdiv b.toInt) with
  | none =>
    obtain ⟨hleast, hminus⟩ := narrow_tdiv_eq_none_iff.1 hquotient
    have hexact : ¬ Overshoots a.toInt b.toInt := by
      rw [hleast, hminus]
      decide
    rw [if_neg hexact, hquotient]
    rfl
  | some quotient =>
    have hvalue := narrow_eq_some_iff.1 hquotient
    change (if Overshoots a.toInt b.toInt then narrow (quotient.toInt - 1) else some quotient) = _
    rw [← hvalue]
    split
    · rfl
    · exact hquotient.symm

lemma modWord_eq (a b : Int64) :
    modWord a b = if a.toInt = -(wordLimit : Int) ∧ b.toInt = -1 then none
      else narrow (flooredRemainder a.toInt b.toInt) := by
  unfold modWord
  cases hquotient : narrow (a.toInt.tdiv b.toInt) with
  | none =>
    rw [if_pos (narrow_tdiv_eq_none_iff.1 hquotient)]
    rfl
  | some quotient =>
    have hword : ¬ (a.toInt = -(wordLimit : Int) ∧ b.toInt = -1) := by
      rw [← narrow_tdiv_eq_none_iff, hquotient]
      exact Option.some_ne_none quotient
    rw [if_neg hword, flooredRemainder, apply_ite narrow]
    rfl

/-! ### Exact results -/

/-- A result that is narrowed is the word of an integer, or an overflow when it has none. -/
lemma divisionExact_of_narrow {operation : Primitive} {n : Int}
    (hzero : b = 0 → intBinary operation a b = .error (.zeroDivision .integer))
    (h : b ≠ 0 → intBinary operation a b = wordResult operation (narrow n)) :
    DivisionExact operation a b n := by
  refine ⟨hzero, fun hb word hword => ?_, fun hb => ?_⟩
  · rw [h hb, narrow_eq_some_iff.2 hword.symm]
    rfl
  · rw [h hb]
    cases hnarrow : narrow n with
    | none =>
      refine iff_of_true rfl fun word hword => ?_
      rw [narrow_eq_some_iff.2 hword.symm] at hnarrow
      exact Option.some_ne_none word hnarrow
    | some word =>
      refine iff_of_false (fun herror => nomatch herror) fun hnone => ?_
      exact hnone word (narrow_eq_some_iff.1 hnarrow).symm

lemma intBinary_floorDiv (hb : b ≠ 0) :
    intBinary .floorDiv a b = wordResult .floorDiv (narrow ⌊(a.toInt : ℚ) / b.toInt⌋) := by
  rw [floor_div_eq_floored (toInt_ne_zero hb), ← floorDivWord_eq]
  exact if_neg hb

lemma intBinary_mod (hb : b ≠ 0) (hword : ¬ (a.toInt = -(wordLimit : Int) ∧ b.toInt = -1)) :
    intBinary .mod a b =
      wordResult .mod (narrow (a.toInt - b.toInt * ⌊(a.toInt : ℚ) / b.toInt⌋)) := by
  have hmod := modWord_eq a b
  rw [if_neg hword] at hmod
  rw [floor_div_eq_floored (toInt_ne_zero hb), ← flooredRemainder_eq, ← hmod]
  exact if_neg hb

/-- The least word divided by `-1` has the remainder zero, which is not computed. -/
lemma not_divisionExact_least :
    ¬ DivisionExact .mod Int64.minValue (-1)
      (Int64.minValue.toInt - (-1 : Int64).toInt * ⌊(Int64.minValue.toInt : ℚ) /
        (-1 : Int64).toInt⌋) := by
  intro h
  have hremainder : Int64.minValue.toInt -
      (-1 : Int64).toInt * ⌊(Int64.minValue.toInt : ℚ) / (-1 : Int64).toInt⌋ = 0 := by
    rw [floor_div_eq_floored (by decide), ← flooredRemainder_eq]
    decide
  rw [hremainder] at h
  have hvalue : intBinary .mod Int64.minValue (-1) = .ok (.int 0) :=
    h.word (by decide) 0 Int64.toInt_zero
  exact nomatch (rfl : intBinary .mod Int64.minValue (-1) = .error _).symm.trans hvalue

/-- **Division of words is exact but for one remainder.**  The floor of a quotient is given whenever
it is a word, and is an overflow exactly when it is none.  The remainder `a - b * ⌊a / b⌋` is given
too, unless the least word is divided by `-1`: there it is zero, and is reported as an overflow.  A
divisor zero is refused by both. -/
theorem word_division_exact (a b : Int64) :
    DivisionExact .floorDiv a b ⌊(a.toInt : ℚ) / b.toInt⌋ ∧
      (DivisionExact .mod a b (a.toInt - b.toInt * ⌊(a.toInt : ℚ) / b.toInt⌋) ↔
        ¬ (a = Int64.minValue ∧ b = -1)) ∧
      intBinary .mod Int64.minValue (-1) = .error (.overflow (.integer .mod)) := by
  refine ⟨divisionExact_of_narrow (fun hb => if_pos hb) intBinary_floorDiv, ⟨?_, ?_⟩, rfl⟩
  · rintro hexact ⟨rfl, rfl⟩
    exact not_divisionExact_least hexact
  · intro hword
    refine divisionExact_of_narrow (fun hb => if_pos hb) fun hb => intBinary_mod hb ?_
    rintro ⟨hleast, hminus⟩
    exact hword ⟨Int64.toInt_inj.1 hleast, Int64.toInt_inj.1 hminus⟩

/-- It is not so that both the quotient and the remainder are exact for all words: the least word
divided by `-1` has the remainder zero, and there is an overflow. -/
theorem not_word_division_exact :
    ¬ ∀ a b : Int64, DivisionExact .floorDiv a b ⌊(a.toInt : ℚ) / b.toInt⌋ ∧
      DivisionExact .mod a b (a.toInt - b.toInt * ⌊(a.toInt : ℚ) / b.toInt⌋) := by
  intro h
  exact not_divisionExact_least (h Int64.minValue (-1)).2

/-- A remainder takes the sign of the divisor, and the quotient is rounded down. -/
example : intBinary .floorDiv (-7) 2 = .ok (.int (-4)) ∧ intBinary .mod (-7) 2 = .ok (.int 1) ∧
    intBinary .mod 7 (-2) = .ok (.int (-1)) := ⟨rfl, rfl, rfl⟩

end GuardedTrace
