/-
Comparisons that put things in a line.

What guards ask for is compared kind by kind and part by part.  A comparison that is built in this
way from linear comparisons is linear again, and so are the comparisons of numbers, slices, types,
identities and literals: two things are on a par only when they are the same.
-/
import Mathlib.Data.Nat.Bitwise
import GuardedTrace.Literal
import GuardedTrace.Proofs.OrderedKeys
import GuardedTrace.TypeName
import GuardedTrace.Value.Basic

namespace GuardedTrace

namespace Table

variable {κ κ' : Type} {cmp : κ → κ → Ordering} {cmp' : κ' → κ' → Ordering} {a : κ} {a' : κ'}

/-- A comparison that puts one key in a line with all others. -/
structure LinearAt (cmp : κ → κ → Ordering) (a : κ) : Prop where
  lt_trans : ∀ {b c}, cmp a b = .lt → cmp b c ≠ .gt → cmp a c = .lt
  eq_iff : ∀ {b}, cmp a b = .eq ↔ a = b
  swap : ∀ b, (cmp a b).swap = cmp b a

lemma Linear.swap (h : Linear cmp) (a b : κ) : (cmp a b).swap = cmp b a := by
  cases hab : cmp a b with
  | lt => exact (h.gt_iff.2 hab).symm
  | eq => exact (h.eq_iff.2 (h.eq_iff.1 hab).symm).symm
  | gt => exact (h.gt_iff.1 hab).symm

lemma Linear.lt_trans (h : Linear cmp) {a b c : κ} (hab : cmp a b = .lt)
    (hbc : cmp b c ≠ .gt) : cmp a c = .lt := by
  cases hcmp : cmp b c with
  | lt => exact h.trans hab hcmp
  | eq => exact h.eq_iff.1 hcmp ▸ hab
  | gt => exact absurd hcmp hbc

lemma Linear.not_gt_trans (h : Linear cmp) {a b c : κ} (hab : cmp a b ≠ .gt) (hbc : cmp b c ≠ .gt) :
    cmp a c ≠ .gt := by
  cases hcmp : cmp a b with
  | lt =>
    rw [h.lt_trans hcmp hbc]
    decide
  | eq => exact h.eq_iff.1 hcmp ▸ hbc
  | gt => exact absurd hcmp hab

lemma Linear.total (h : Linear cmp) (a b : κ) : cmp a b ≠ .gt ∨ cmp b a ≠ .gt := by
  cases hcmp : cmp a b with
  | lt | eq => exact Or.inl nofun
  | gt =>
    rw [h.gt_iff.1 hcmp]
    exact Or.inr nofun

lemma Linear.at (h : Linear cmp) (a : κ) : LinearAt cmp a := ⟨h.lt_trans, h.eq_iff, h.swap a⟩

lemma Linear.of_at (h : ∀ a, LinearAt cmp a) : Linear cmp where
  trans {a b c} hab hbc := (h a).lt_trans hab (by rw [hbc]; decide)
  eq_iff {a b} := (h a).eq_iff
  gt_iff {a b} := by rw [← (h a).swap b, Ordering.swap_eq_lt]

namespace LinearAt

/-- Pairs compared by their first parts, and by their second parts where the first ones are
equal. -/
lemma lex (h : LinearAt cmp a) (h' : LinearAt cmp' a') :
    LinearAt (fun x y : κ × κ' => (cmp x.1 y.1).then (cmp' x.2 y.2)) (a, a') where
  lt_trans {b c} hab hbc := by
    simp only [Ordering.then_eq_lt, ne_eq, Ordering.then_eq_gt, not_or, not_and] at hab hbc ⊢
    obtain ⟨hbc, hbc'⟩ := hbc
    rcases hab with hlt | ⟨heq, hlt⟩
    · exact Or.inl (h.lt_trans hlt hbc)
    · rw [← h.eq_iff.1 heq] at hbc hbc'
      cases hac : cmp a c.1 with
      | lt => exact Or.inl rfl
      | eq => exact Or.inr ⟨rfl, h'.lt_trans hlt (hbc' hac)⟩
      | gt => exact absurd hac hbc
  eq_iff {b} := by rw [Ordering.then_eq_eq, h.eq_iff, h'.eq_iff, Prod.ext_iff]
  swap b := by rw [Ordering.swap_then, h.swap, h'.swap]

/-- Lists compared item by item, a shorter one before a longer one that it begins. -/
lemma list {as : List κ} (h : ∀ a ∈ as, LinearAt cmp a) : LinearAt (List.compareLex cmp) as := by
  induction as with
  | nil =>
    refine ⟨fun {bs cs} hab hbc => ?_, fun {bs} => ?_, fun bs => ?_⟩
    · cases bs with
      | nil => cases hab
      | cons b bs =>
        cases cs with
        | nil => exact absurd rfl hbc
        | cons c cs => rfl
    · cases bs with
      | nil => exact ⟨fun _ => rfl, fun _ => rfl⟩
      | cons b bs => exact ⟨nofun, nofun⟩
    · cases bs <;> rfl
  | cons a as ih =>
    obtain ⟨ha, has⟩ := List.forall_mem_cons.1 h
    have hpair := ha.lex (ih has)
    refine ⟨fun {bs cs} hab hbc => ?_, fun {bs} => ?_, fun bs => ?_⟩
    · cases bs with
      | nil => cases hab
      | cons b bs =>
        cases cs with
        | nil => exact absurd rfl hbc
        | cons c cs =>
          rw [List.compareLex_cons_cons] at hab hbc ⊢
          exact hpair.lt_trans (b := (b, bs)) (c := (c, cs)) hab hbc
    · cases bs with
      | nil => exact ⟨nofun, nofun⟩
      | cons b bs =>
        rw [List.compareLex_cons_cons, hpair.eq_iff (b := (b, bs)), Prod.mk.injEq, List.cons.injEq]
    · cases bs with
      | nil => rfl
      | cons b bs =>
        rw [List.compareLex_cons_cons, List.compareLex_cons_cons]
        exact hpair.swap (b, bs)

/-- Things of several kinds are compared by kind, and those of one kind by their parts. -/
lemma kind {π : Type} {part : π → π → Ordering} {p : π} {rank : κ → Nat} (h : LinearAt part p)
    (hrank : ∀ {a b}, rank a ≠ rank b → cmp a b = compare (rank a) (rank b)) (make : π → κ)
    (hmake : ∀ b, rank b = rank (make p) → ∃ q, b = make q)
    (hpart : ∀ q r, cmp (make q) (make r) = part q r) : LinearAt cmp (make p) := by
  have hle {a b : κ} (hcmp : cmp a b ≠ .gt) : rank a ≤ rank b := by
    by_contra hlt
    rw [hrank (by omega), ne_eq, Nat.compare_eq_gt] at hcmp
    omega
  refine ⟨fun {b c} hab hbc => ?_, fun {b} => ?_, fun b => ?_⟩
  · have hfirst := hle (a := make p) (b := b) (by rw [hab]; decide)
    have hsecond := hle hbc
    by_cases hac : rank (make p) = rank c
    · obtain ⟨q, rfl⟩ := hmake b (by omega)
      obtain ⟨r, rfl⟩ := hmake c hac.symm
      rw [hpart] at hab hbc ⊢
      exact h.lt_trans hab hbc
    · rw [hrank hac, Nat.compare_eq_lt]
      omega
  · by_cases hab : rank b = rank (make p)
    · obtain ⟨q, rfl⟩ := hmake b hab
      rw [hpart]
      refine ⟨fun heq => congrArg make (h.eq_iff.1 heq), fun heq => ?_⟩
      rw [← hpart, ← heq, hpart, h.eq_iff]
    · have hne : make p ≠ b := fun heq => hab (congrArg rank heq.symm)
      rw [hrank (Ne.symm hab), Nat.compare_eq_eq]
      exact iff_of_false (Ne.symm hab) hne
  · by_cases hab : rank b = rank (make p)
    · obtain ⟨q, rfl⟩ := hmake b hab
      rw [hpart, hpart]
      exact h.swap q
    · rw [hrank hab, hrank (Ne.symm hab), Nat.compare_swap]

end LinearAt

/-- The equations of a comparison of lists item by item. -/
lemma eq_compareLex {other : List κ → List κ → Ordering} (hnil : other [] [] = .eq)
    (hshort : ∀ b bs, other [] (b :: bs) = .lt) (hlong : ∀ a as, other (a :: as) [] = .gt)
    (hcons : ∀ a as b bs, other (a :: as) (b :: bs) = (cmp a b).then (other as bs))
    (as bs : List κ) :
    other as bs = List.compareLex cmp as bs := by
  induction as generalizing bs with
  | nil =>
    cases bs with
    | nil => exact hnil
    | cons b bs => exact hshort b bs
  | cons a as ih =>
    cases bs with
    | nil => exact hlong a as
    | cons b bs => rw [hcons, List.compareLex_cons_cons, ih]

namespace Linear

/-- Things compared by something that tells them apart. -/
lemma comap (h : Linear cmp) {f : κ' → κ} (hf : Function.Injective f) :
    Linear fun a b => cmp (f a) (f b) :=
  ⟨fun hab hbc => h.trans hab hbc, h.eq_iff.trans hf.eq_iff, h.gt_iff⟩

lemma of_swap (htrans : ∀ {a b c}, cmp a b = .lt → cmp b c = .lt → cmp a c = .lt)
    (heq : ∀ {a b}, cmp a b = .eq ↔ a = b) (hswap : ∀ a b, (cmp a b).swap = cmp b a) : Linear cmp :=
  ⟨htrans, heq, fun {a b} => by rw [← hswap a b, Ordering.swap_eq_lt]⟩

lemma congr (h : Linear cmp) {other : κ → κ → Ordering} (hother : ∀ a b, other a b = cmp a b) :
    Linear other := by
  obtain rfl : other = cmp := funext fun a => funext (hother a)
  exact h

lemma lex (h : Linear cmp) (h' : Linear cmp') :
    Linear fun a b : κ × κ' => (cmp a.1 b.1).then (cmp' a.2 b.2) :=
  of_at fun pair => (h.at pair.1).lex (h'.at pair.2)

lemma list (h : Linear cmp) : Linear (List.compareLex cmp) := of_at fun _ => .list fun a _ => h.at a

/-- Any comparison of lists that has the equations of one item by item. -/
lemma list_of_eqs (h : Linear cmp) {other : List κ → List κ → Ordering} (hnil : other [] [] = .eq)
    (hshort : ∀ b bs, other [] (b :: bs) = .lt) (hlong : ∀ a as, other (a :: as) [] = .gt)
    (hcons : ∀ a as b bs, other (a :: as) (b :: bs) = (cmp a b).then (other as bs)) :
    Linear other :=
  h.list.congr (eq_compareLex hnil hshort hlong hcons)

/-- Things of two sides, those of the left side first. -/
def sides (cmp : κ → κ → Ordering) (cmp' : κ' → κ' → Ordering) : κ ⊕ κ' → κ ⊕ κ' → Ordering
  | .inl a, .inl b => cmp a b
  | .inl _, .inr _ => .lt
  | .inr _, .inl _ => .gt
  | .inr a, .inr b => cmp' a b

lemma sum (h : Linear cmp) (h' : Linear cmp') : Linear (sides cmp cmp') := by
  refine of_swap (fun {a b c} hab hbc => ?_) (fun {a b} => ?_) fun a b => ?_
  · match a, b, c with
    | .inl _, .inl _, .inl _ => exact h.trans hab hbc
    | .inl _, .inl _, .inr _ | .inl _, .inr _, .inr _ => rfl
    | .inr _, .inr _, .inr _ => exact h'.trans hab hbc
  · match a, b with
    | .inl _, .inl _ => rw [sides, h.eq_iff, Sum.inl.injEq]
    | .inr _, .inr _ => rw [sides, h'.eq_iff, Sum.inr.injEq]
    | .inl _, .inr _ | .inr _, .inl _ => simp [sides]
  · match a, b with
    | .inl _, .inl _ => exact h.swap _ _
    | .inr _, .inr _ => exact h'.swap _ _
    | .inl _, .inr _ | .inr _, .inl _ => rfl

/-- A single thing. -/
lemma unit : Linear fun _ _ : Unit => Ordering.eq := ⟨nofun, by simp, by simp⟩

/-- A thing that may be absent, with a side for its absence. -/
def absence : Option κ → Unit ⊕ κ
  | none => .inl ()
  | some a => .inr a

/-- Any comparison of things that may be absent, an absent one before all others. -/
lemma option_of_eqs (h : Linear cmp) {other : Option κ → Option κ → Ordering}
    (hnone : other none none = .eq)
    (hfirst : ∀ b, other none (some b) = .lt) (hlast : ∀ a, other (some a) none = .gt)
    (hsome : ∀ a b, other (some a) (some b) = cmp a b) : Linear other := by
  have hside : Function.Injective (absence : Option κ → Unit ⊕ κ) := by
    intro a b hab
    cases a <;> cases b <;> cases hab <;> rfl
  refine ((unit.sum h).comap hside).congr fun a b => ?_
  match a, b with
  | none, none => exact hnone
  | none, some b => exact hfirst b
  | some a, none => exact hlast a
  | some a, some b => exact hsome a b

end Linear

end Table

open Table (Linear LinearAt eq_compareLex linear_compare)

/-! ### Words and doubles -/

lemma linear_word : Linear fun a b : Int64 => compare a.toInt b.toInt :=
  linear_compare.comap fun _ _ => Int64.toInt_inj.1

lemma linear_bool : Linear fun a b : Bool => compare a.toNat b.toNat :=
  linear_compare.comap fun a b h => by cases a <;> cases b <;> first | rfl | cases h

namespace Double

lemma toNat_magnitude (x : Double) : x.magnitude.toNat = x.bits.toNat % 2 ^ 63 := by
  have hmask : magnitudeMask.toNat = 2 ^ 63 - 1 := rfl
  rw [magnitude, UInt64.toNat_and, hmask, Nat.and_two_pow_sub_one_eq_mod]

lemma isNegative_iff (x : Double) : x.isNegative = true ↔ 2 ^ 63 ≤ x.bits.toNat := by
  have hlimit := x.bits.toNat_lt
  have hmask : signMask.toNat = 2 ^ 63 := rfl
  rw [isNegative, bne_iff_ne, ne_eq, ← UInt64.toNat_inj, UInt64.toNat_and, hmask, Nat.and_two_pow,
    Nat.testBit_eq_decide_div_mod_eq]
  have hbit : x.bits.toNat / 2 ^ 63 % 2 = 1 ↔ 2 ^ 63 ≤ x.bits.toNat := by omega
  rw [← hbit]
  simp

/-- The place of a double in the total order tells it apart from all others. -/
lemma rank_injective : Function.Injective rank := by
  intro a b h
  have ha := isNegative_iff a
  have hb := isNegative_iff b
  have halimit := a.bits.toNat_lt
  have hblimit := b.bits.toNat_lt
  rw [rank, rank, toNat_magnitude, toNat_magnitude] at h
  have hbits : a.bits.toNat = b.bits.toNat := by
    by_cases hneg : a.isNegative
    · have habound := ha.1 hneg
      by_cases hneg' : b.isNegative
      · have hbbound := hb.1 hneg'
        rw [if_pos hneg, if_pos hneg'] at h
        omega
      · rw [if_pos hneg, if_neg hneg'] at h
        omega
    · have habound := mt ha.2 hneg
      by_cases hneg' : b.isNegative
      · rw [if_neg hneg, if_pos hneg'] at h
        omega
      · have hbbound := mt hb.2 hneg'
        rw [if_neg hneg, if_neg hneg'] at h
        omega
  cases a
  cases b
  exact congrArg mk (UInt64.toNat_inj.1 hbits)

lemma linear_compareTotal : Linear compareTotal := linear_compare.comap rank_injective

end Double

/-! ### Types, devices and identities -/

lemma ElementType.rank_injective : Function.Injective ElementType.rank := by
  intro a b h
  cases a <;> cases b <;> first | rfl | cases h

lemma Device.rank_injective : Function.Injective Device.rank := by
  intro a b h
  cases a with
  | cpu =>
    cases b with
    | cpu => rfl
    | cuda index => cases h
  | cuda index =>
    cases b with
    | cpu => cases h
    | cuda other => rw [UInt8.toNat_inj.1 (Nat.succ.inj h)]

lemma ElementType.linear_rank : Linear fun a b : ElementType => compare a.rank b.rank :=
  linear_compare.comap ElementType.rank_injective

lemma Device.linear_rank : Linear fun a b : Device => compare a.rank b.rank :=
  linear_compare.comap Device.rank_injective

lemma TypeName.linear_cmp : Linear TypeName.cmp := by
  have hparts : Function.Injective fun type : TypeName => (type.rank, type.text) := by
    intro a b h
    obtain ⟨hrank, htext⟩ := Prod.mk.inj h
    cases a <;> cases b <;>
      first | rfl | exact congrArg layer htext | exact congrArg object htext | cases hrank
  exact (linear_compare.lex linear_compare).comap hparts

/-- An identity as its kind and its number. -/
def Identity.side : Identity → Nat ⊕ Nat
  | declared number => .inl number
  | created serial => .inr serial

lemma Identity.linear_cmp : Linear Identity.cmp := by
  have hside : Function.Injective side := by
    intro a b h
    cases a <;> cases b <;> cases h <;> rfl
  exact ((linear_compare.sum linear_compare).comap hside).congr fun a b => by
    cases a <;> cases b <;> rfl

/-! ### Slices -/

namespace Slice

lemma linear_cmpBound : Linear cmpBound :=
  linear_word.option_of_eqs rfl (fun _ => rfl) (fun _ => rfl) fun _ _ => rfl

lemma linear_cmp : Linear cmp := by
  have hparts : Function.Injective fun slice : Slice =>
      ((slice.start, slice.stop), slice.step) := by
    rintro ⟨start, stop, step⟩ ⟨start', stop', step'⟩ h
    cases h
    rfl
  exact ((linear_cmpBound.lex linear_cmpBound).lex linear_cmpBound).comap hparts

end Slice

/-! ### Literals -/

namespace Literal

/-- Literals of different kinds are compared by kind. -/
lemma cmp_of_rank_ne {a b : Literal} (h : a.rank ≠ b.rank) : a.cmp b = compare a.rank b.rank := by
  cases a <;> cases b <;> first | rfl | exact absurd rfl h

lemma cmpItems_eq (as bs : List Literal) : cmpItems as bs = List.compareLex cmp as bs :=
  eq_compareLex rfl (fun _ _ => rfl) (fun _ _ => rfl) (fun _ _ _ _ => rfl) as bs

mutual

lemma linearAt_cmp : ∀ a : Literal, LinearAt cmp a
  | none =>
    (Linear.unit.at ()).kind cmp_of_rank_ne (fun _ => none)
      (by rintro ⟨⟩ ⟨⟩; exact ⟨(), rfl⟩) fun _ _ => rfl
  | bool x =>
    (linear_bool.at x).kind cmp_of_rank_ne bool (by rintro ⟨⟩ ⟨⟩; exact ⟨_, rfl⟩) fun _ _ => rfl
  | int x =>
    (linear_word.at x).kind cmp_of_rank_ne int (by rintro ⟨⟩ ⟨⟩; exact ⟨_, rfl⟩) fun _ _ => rfl
  | float x =>
    (Double.linear_compareTotal.at x).kind cmp_of_rank_ne float
      (by rintro ⟨⟩ ⟨⟩; exact ⟨_, rfl⟩) fun _ _ => rfl
  | str x =>
    (linear_compare.at x).kind cmp_of_rank_ne str (by rintro ⟨⟩ ⟨⟩; exact ⟨_, rfl⟩) fun _ _ => rfl
  | tuple as =>
    (LinearAt.list (linearAt_cmpItems as)).kind cmp_of_rank_ne tuple
      (by rintro ⟨⟩ ⟨⟩; exact ⟨_, rfl⟩) cmpItems_eq
  | list as =>
    (LinearAt.list (linearAt_cmpItems as)).kind cmp_of_rank_ne list
      (by rintro ⟨⟩ ⟨⟩; exact ⟨_, rfl⟩) cmpItems_eq
  | slice x =>
    (Slice.linear_cmp.at x).kind cmp_of_rank_ne slice
      (by rintro ⟨⟩ ⟨⟩; exact ⟨_, rfl⟩) fun _ _ => rfl
  | elementType x =>
    (ElementType.linear_rank.at x).kind cmp_of_rank_ne elementType
      (by rintro ⟨⟩ ⟨⟩; exact ⟨_, rfl⟩) fun _ _ => rfl
  | device x =>
    (Device.linear_rank.at x).kind cmp_of_rank_ne device
      (by rintro ⟨⟩ ⟨⟩; exact ⟨_, rfl⟩) fun _ _ => rfl
termination_by structural a => a

lemma linearAt_cmpItems : ∀ as : List Literal, ∀ a ∈ as, LinearAt cmp a
  | [] => by simp
  | a :: as => List.forall_mem_cons.2 ⟨linearAt_cmp a, linearAt_cmpItems as⟩
termination_by structural as => as

end

lemma linear_cmp : Linear cmp := .of_at linearAt_cmp

end Literal

end GuardedTrace
