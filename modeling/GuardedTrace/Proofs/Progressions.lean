/-
Progressions that stop before a bound.

The members `start, start + step, …` of a progression are listed as long as they come strictly
before a stop, in the direction of the step.  A list of this kind is given by its entries
(`Progression.Lists`), all of them, so that there is just one; it can be built from its front, one
member after the other (`Lists.cons`), which is how a walk builds it, or be cut off at its length
(`lists_members`), which is how a range does.
-/
import Mathlib.Data.Set.Card
import Mathlib.Tactic
import GuardedTrace.Number.Progression

namespace GuardedTrace.Progression

/-- An integer comes strictly before a stop, in the direction of a step that is not zero. -/
def Before (step stop x : Int) : Prop := if 0 < step then x < stop else stop < x

instance (step stop x : Int) : Decidable (Before step stop x) :=
  inferInstanceAs (Decidable (if 0 < step then x < stop else stop < x))

/-- The integers `start + k * step` that come strictly before `stop`. -/
def run (start stop step : Int) : Set Int :=
  {x | ∃ k : ℕ, x = start + k * step ∧ Before step stop x}

/-- A list holds the members of the progression from `start` by `step` that come strictly before
`stop`, in their order and without a gap, and nothing else. -/
def Lists (start stop step : Int) (items : List Int) : Prop :=
  ∀ k : ℕ, items[k]? = if Before step stop (start + k * step) then some (start + k * step) else none

variable {start stop step x : Int} {items : List Int}

/-! ### Members before the stop -/

/-- What comes before the stop does so for all earlier members. -/
lemma Before.of_add (h : Before step stop (x + step)) : Before step stop x := by
  unfold Before at *
  split at h
  · next hpos =>
    rw [if_pos hpos]
    omega
  · next hneg =>
    rw [if_neg hneg]
    omega

lemma Before.of_add_mul {k : ℕ} (h : Before step stop (x + k * step)) : Before step stop x := by
  induction k with
  | zero => simpa using h
  | succ k ih =>
    refine ih (Before.of_add ?_)
    have hnext : x + k * step + step = x + ((k + 1 : ℕ) : Int) * step := by
      push_cast
      ring
    rwa [hnext]

/-- A member before the stop lies between the start and the stop. -/
lemma Before.between {k : ℕ} (h : Before step stop (start + k * step)) :
    0 < step ∧ start ≤ start + k * step ∧ start + k * step < stop ∨
      step ≤ 0 ∧ stop < start + k * step ∧ start + k * step ≤ start := by
  unfold Before at h
  split at h
  · next hpos =>
    have hup : 0 ≤ (k : Int) * step := mul_nonneg (by omega) (by omega)
    omega
  · next hnonpos =>
    have hdown : (k : Int) * step ≤ 0 := mul_nonpos_of_nonneg_of_nonpos (by omega) (by omega)
    omega

/-! ### Lists of members -/

/-- At or behind the stop nothing is listed. -/
lemma lists_iff_nil (h : ¬ Before step stop start) : Lists start stop step items ↔ items = [] := by
  have hnone (k : ℕ) : ¬ Before step stop (start + k * step) := fun hk => h hk.of_add_mul
  constructor
  · intro hlists
    have hfirst := hlists 0
    rw [if_neg (hnone 0)] at hfirst
    cases items with
    | nil => rfl
    | cons item rest => exact nomatch hfirst
  · rintro rfl k
    rw [if_neg (hnone k), List.getElem?_nil]

/-- A member is put in front of the list of those behind it. -/
lemma Lists.cons (h : Before step stop start) (hrest : Lists (start + step) stop step items) :
    Lists start stop step (start :: items) := by
  intro k
  cases k with
  | zero => simp [h]
  | succ k =>
    have hnext : start + step + k * step = start + ((k + 1 : ℕ) : Int) * step := by
      push_cast
      ring
    rw [List.getElem?_cons_succ, hrest k, hnext]

/-- There is only one list of the members. -/
lemma Lists.unique {others : List Int} (h : Lists start stop step items)
    (hothers : Lists start stop step others) :
    items = others :=
  List.ext_getElem? fun k => (h k).trans (hothers k).symm

lemma Lists.mem_iff (h : Lists start stop step items) : x ∈ items ↔ x ∈ run start stop step := by
  rw [List.mem_iff_getElem?]
  constructor
  · rintro ⟨k, hk⟩
    rw [h k] at hk
    split at hk
    · next hbefore =>
      obtain rfl := Option.some.inj hk
      exact ⟨k, rfl, hbefore⟩
    · exact nomatch hk
  · rintro ⟨k, rfl, hbefore⟩
    exact ⟨k, by rw [h k, if_pos hbefore]⟩

lemma Lists.getElem (h : Lists start stop step items) {k : ℕ} (hk : k < items.length) :
    items[k] = start + k * step := by
  have hentry := h k
  rw [List.getElem?_eq_getElem hk] at hentry
  split at hentry
  · exact Option.some.inj hentry
  · exact nomatch hentry

/-- The members are listed in the direction of the step. -/
lemma Lists.pairwise (h : Lists start stop step items) (hstep : step ≠ 0) :
    if 0 < step then items.Pairwise (· < ·) else items.Pairwise (· > ·) := by
  have hmul {i j : ℕ} (hij : i < j) : ∃ d : Int, 0 < d ∧ (j : Int) * step = i * step + d * step :=
    ⟨j - i, by omega, by ring⟩
  split
  · next hpos =>
    refine List.pairwise_iff_getElem.2 fun i j hi hj hij => ?_
    obtain ⟨d, hd, heq⟩ := hmul hij
    rw [h.getElem hi, h.getElem hj, heq]
    linarith [mul_pos hd hpos]
  · next hnonpos =>
    have hneg : step < 0 := by omega
    refine List.pairwise_iff_getElem.2 fun i j hi hj hij => ?_
    obtain ⟨d, hd, heq⟩ := hmul hij
    rw [h.getElem hi, h.getElem hj, heq]
    linarith [mul_neg_of_pos_of_neg hd hneg]

/-! ### Counted members -/

/-- When just the first `count` members come before the stop, they are what is listed. -/
lemma lists_members {count : ℕ}
    (hcount : ∀ k : ℕ, Before step stop (start + k * step) ↔ k < count) :
    Lists start stop step (members start step count) := by
  intro k
  rw [members, List.getElem?_map]
  by_cases hk : k < count
  · rw [if_pos ((hcount k).2 hk), List.getElem?_range hk]
    rfl
  · rw [if_neg fun hbefore => hk ((hcount k).1 hbefore), List.getElem?_eq_none (by simpa using hk)]
    rfl

/-- When just the first `count` members come before the stop, there are `count` of them. -/
lemma ncard_run (hstep : step ≠ 0) {count : ℕ}
    (hcount : ∀ k : ℕ, Before step stop (start + k * step) ↔ k < count) :
    (run start stop step).ncard = count := by
  have hinjective : Function.Injective fun k : ℕ => start + (k : Int) * step := by
    intro i j hij
    have hmul : (i : Int) * step = j * step := by simpa using hij
    exact_mod_cast mul_right_cancel₀ hstep hmul
  have himage : run start stop step = (fun k : ℕ => start + (k : Int) * step) '' Set.Iio count := by
    ext x
    constructor
    · rintro ⟨k, rfl, hbefore⟩
      exact ⟨k, (hcount k).1 hbefore, rfl⟩
    · rintro ⟨k, hk, rfl⟩
      exact ⟨k, rfl, (hcount k).2 hk⟩
  rw [himage, Set.ncard_image_of_injective _ hinjective, ← Finset.coe_Iio,
    Set.ncard_coe_finset, Nat.card_Iio]

end GuardedTrace.Progression
