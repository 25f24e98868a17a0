/-
Machine integers.

Integers of running programs are 64-bit words with sign, and sizes are natural numbers below
`2 ^ 64`.  Arithmetic on words is carried out in unbounded integers and then narrowed, so a result
either is exact or does not exist; only the cursor of a slice is held at the greatest and the least
word instead.  Arithmetic on sizes always has a result: strides are held at the greatest size, and
numbers of elements wrap around.
-/

namespace GuardedTrace

/-- The number `2 ^ 63`, which all words lie below. -/
def wordLimit : Nat := 0x8000000000000000

/-- The word with the value of an integer, when there is one. -/
def narrow (n : Int) : Option Int64 :=
  if -(wordLimit : Int) ≤ n ∧ n < wordLimit then some (Int64.ofInt n) else none

/-- The sum of two words, held at the greatest and the least word. -/
def saturatingAdd (a b : Int64) : Int64 :=
  Int64.ofInt (max (-(wordLimit : Int)) (min ((wordLimit : Int) - 1) (a.toInt + b.toInt)))

/-- The greatest size, `2 ^ 64 - 1`. -/
def maxSize : Nat := 0xffffffffffffffff

/-- A natural number wrapped around to a size. -/
def wrapSize (n : Nat) : Nat := n % (maxSize + 1)

/-- The product of two sizes, held at the greatest size. -/
def saturatingMul (a b : Nat) : Nat := min (a * b) maxSize

/-- The position that a possibly negative index denotes in a sequence of `size` elements.  A
negative index counts from the end; nothing lies outside. -/
def position? (index : Int64) (size : Nat) : Option Nat :=
  let resolved := if index.toInt < 0 then index.toInt + size else index.toInt
  if size < wordLimit ∧ 0 ≤ resolved ∧ resolved < size then some resolved.toNat else none

/-! ## Narrowing -/

theorem narrow_eq_some_iff {n : Int} {w : Int64} : narrow n = some w ↔ n = w.toInt := by
  unfold narrow wordLimit
  constructor
  · intro h
    split at h
    · next hn =>
      cases h
      rw [Int64.toInt_ofInt_of_le (by omega) (by omega)]
    · cases h
  · rintro rfl
    have lower := w.le_toInt
    have upper := w.toInt_lt
    rw [if_pos (by omega)]
    simp

theorem narrow_eq_none_iff {n : Int} :
    narrow n = none ↔ ¬ (-(wordLimit : Int) ≤ n ∧ n < wordLimit) := by
  unfold narrow
  split <;> simp_all

/-- An integer within the limits is the value of a word. -/
theorem exists_toInt_eq {n : Int} (lower : -(wordLimit : Int) ≤ n) (upper : n < wordLimit) :
    ∃ w : Int64, w.toInt = n :=
  ⟨Int64.ofInt n, Int64.toInt_ofInt_of_le lower upper⟩

@[simp]
theorem narrow_toInt (w : Int64) : narrow w.toInt = some w := narrow_eq_some_iff.2 rfl

theorem toInt_ne_zero {w : Int64} (h : w ≠ 0) : w.toInt ≠ 0 := by
  rwa [ne_eq, ← Int64.toInt_zero, Int64.toInt_inj]

/-! ## Saturation -/

theorem toInt_saturatingAdd (a b : Int64) :
    (saturatingAdd a b).toInt =
      max (-(wordLimit : Int)) (min ((wordLimit : Int) - 1) (a.toInt + b.toInt)) := by
  unfold saturatingAdd wordLimit
  rw [Int64.toInt_ofInt_of_le (by omega) (by omega)]

end GuardedTrace
