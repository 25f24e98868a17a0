/-
Tables with increasing keys.

Storing under a key puts the key where it belongs, so a table with increasing keys keeps them, and
has one entry for each key.  A sum over its entries therefore changes by what the entry of the
stored key changes.
-/
import Mathlib.Tactic
import GuardedTrace.Table

namespace GuardedTrace

namespace Table

variable {κ α : Type} {cmp : κ → κ → Ordering}

/-- A comparison that puts all keys in a line. -/
structure Linear (cmp : κ → κ → Ordering) : Prop where
  trans : ∀ {a b c}, cmp a b = .lt → cmp b c = .lt → cmp a c = .lt
  eq_iff : ∀ {a b}, cmp a b = .eq ↔ a = b
  gt_iff : ∀ {a b}, cmp a b = .gt ↔ cmp b a = .lt

lemma Linear.ne_of_lt (hcmp : Linear cmp) {a b : κ} (h : cmp a b = .lt) : a ≠ b := by
  intro heq
  rw [hcmp.eq_iff.2 heq] at h
  cases h

lemma Linear.ne_of_gt (hcmp : Linear cmp) {a b : κ} (h : cmp a b = .gt) : a ≠ b :=
  (hcmp.ne_of_lt (hcmp.gt_iff.1 h)).symm

lemma linear_compare [Ord κ] [Std.TransOrd κ] [Std.LawfulEqOrd κ] :
    Linear (compare : κ → κ → Ordering) :=
  ⟨Std.TransCmp.lt_trans, Std.LawfulEqCmp.compare_eq_iff_eq, Std.OrientedCmp.gt_iff_lt⟩

/-- The keys are strictly increasing. -/
def Increasing (cmp : κ → κ → Ordering) (table : Table κ α) : Prop :=
  table.Pairwise fun a b => cmp a.1 b.1 = .lt

/-- The sum of a quantity over the entries of a table. -/
def total (f : α → Nat) (table : Table κ α) : Nat := (table.map fun entry => f entry.2).sum

lemma total_cons (f : α → Nat) (entry : κ × α) (rest : Table κ α) :
    total f (entry :: rest) = f entry.2 + total f rest := List.sum_cons

variable {table : Table κ α} {key other : κ} {value : α}

lemma eq_or_mem_of_mem_putOrdered {entry : κ × α} (h : entry ∈ putOrdered cmp key value table) :
    entry = (key, value) ∨ entry ∈ table := by
  induction table with
  | nil => exact Or.inl (List.mem_singleton.1 h)
  | cons first rest ih =>
    obtain ⟨k, v⟩ := first
    simp only [putOrdered] at h
    split at h
    · simpa using h
    · rcases List.mem_cons.1 h with h | h
      · exact Or.inl h
      · exact Or.inr (List.mem_cons_of_mem _ h)
    · rcases List.mem_cons.1 h with h | h
      · exact Or.inr (by simp [h])
      · exact (ih h).imp id (List.mem_cons_of_mem _)

lemma increasing_putOrdered (hcmp : Linear cmp) (h : Increasing cmp table) (key : κ) (value : α) :
    Increasing cmp (putOrdered cmp key value table) := by
  induction table with
  | nil => exact List.pairwise_singleton _ _
  | cons first rest ih =>
    obtain ⟨k, v⟩ := first
    obtain ⟨hfirst, hrest⟩ := List.pairwise_cons.1 h
    simp only [putOrdered]
    split
    · next hlt =>
      refine List.pairwise_cons.2 ⟨?_, h⟩
      intro entry hentry
      rcases List.mem_cons.1 hentry with rfl | hentry
      · exact hlt
      · exact hcmp.trans hlt (hfirst entry hentry)
    · next heq =>
      obtain rfl := hcmp.eq_iff.1 heq
      exact List.pairwise_cons.2 ⟨hfirst, hrest⟩
    · next hgt =>
      refine List.pairwise_cons.2 ⟨?_, ih hrest⟩
      intro entry hentry
      rcases eq_or_mem_of_mem_putOrdered hentry with rfl | hentry
      · exact hcmp.gt_iff.1 hgt
      · exact hfirst entry hentry

section

variable [BEq κ] [LawfulBEq κ]

/-- A key before all keys of a table has no entry. -/
lemma lookup_eq_none_of_lt (hcmp : Linear cmp) (h : ∀ entry ∈ table, cmp key entry.1 = .lt) :
    table.lookup key = none := by
  refine List.lookup_eq_none_iff.2 fun entry hentry => ?_
  simpa using hcmp.ne_of_lt (h entry hentry)

variable [DecidableEq κ]

lemma lookup_cons_ite (key other : κ) (value : α) (rest : Table κ α) :
    ((key, value) :: rest).lookup other = if other =
      key then some value else rest.lookup other := by
  rw [List.lookup_cons]
  by_cases h : other = key
  · simp [h]
  · rw [beq_eq_false_iff_ne.2 h, if_neg h]

lemma lookup_putOrdered (hcmp : Linear cmp) (key other : κ) (value : α) (table : Table κ α) :
    (putOrdered cmp key value table).lookup other = if other =
      key then some value else table.lookup other := by
  induction table with
  | nil => exact lookup_cons_ite key other value []
  | cons first rest ih =>
    obtain ⟨k, v⟩ := first
    simp only [putOrdered]
    split
    · exact lookup_cons_ite _ _ _ _
    · next heq =>
      obtain rfl := hcmp.eq_iff.1 heq
      rw [lookup_cons_ite, lookup_cons_ite]
      split <;> rfl
    · next hgt =>
      rw [lookup_cons_ite, lookup_cons_ite, ih]
      by_cases hother : other = k
      · subst hother
        rw [if_pos rfl, if_pos rfl, if_neg (hcmp.ne_of_gt hgt).symm]
      · rw [if_neg hother, if_neg hother]

/-- Storing changes a sum by what the entry of the key changes. -/
lemma total_putOrdered (hcmp : Linear cmp) (h : Increasing cmp table) (f : α → Nat)
    (key : κ) (value : α) :
    total f (putOrdered cmp key value table) + ((table.lookup key).map f).getD 0 =
      total f table + f value := by
  induction table with
  | nil => simp [putOrdered, total]
  | cons first rest ih =>
    obtain ⟨k, v⟩ := first
    obtain ⟨hfirst, hrest⟩ := List.pairwise_cons.1 h
    simp only [putOrdered]
    split
    · next hlt =>
      -- The keys behind are larger still, so the key was not there and its old share of the sum is
      -- nothing.
      have hnone : ((k, v) :: rest).lookup key = none := by
        refine lookup_eq_none_of_lt hcmp (List.forall_mem_cons.2 ⟨hlt, fun entry hentry => ?_⟩)
        exact hcmp.trans hlt (hfirst entry hentry)
      rw [hnone, total_cons]
      exact Nat.add_comm (f value) _
    · next heq =>
      obtain rfl := hcmp.eq_iff.1 heq
      rw [lookup_cons_ite, if_pos rfl, total_cons, total_cons]
      simp only [Option.map_some, Option.getD_some]
      omega
    · next hgt =>
      rw [lookup_cons_ite, if_neg (hcmp.ne_of_gt hgt), total_cons, total_cons]
      have hsum := ih hrest
      omega

end

end Table

end GuardedTrace
