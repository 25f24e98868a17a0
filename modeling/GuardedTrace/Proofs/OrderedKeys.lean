/-
Tables in the order of their keys.

The entries of a dictionary stand in increasing order of the keys.  Storing keeps this order, a
table that has it is what storing its entries one after the other gives, and tables whose entries
are related one by one stay related when entries are stored.
-/
import GuardedTrace.Key
import GuardedTrace.Proofs.IncreasingTables

namespace GuardedTrace

namespace Key

lemma cmp_eq_iff {a b : Key} : a.cmp b = .eq ↔ a = b := by
  cases a <;> cases b <;> simp [cmp, Int64.toInt_inj]

lemma cmp_swap (a b : Key) : (a.cmp b).swap = b.cmp a := by
  cases a <;> cases b <;> simp only [cmp, Ordering.swap]
  · exact Std.OrientedOrd.eq_swap.symm
  · exact Std.OrientedOrd.eq_swap.symm

lemma cmp_trans {a b c : Key} (hab : a.cmp b = .lt) (hbc : b.cmp c = .lt) : a.cmp c = .lt := by
  cases a <;> cases b <;> cases c <;> simp only [cmp, reduceCtorEq] at hab hbc ⊢
  · exact Std.TransCmp.lt_trans hab hbc
  · exact Std.TransCmp.lt_trans hab hbc

lemma cmp_gt_iff {a b : Key} : a.cmp b = .gt ↔ b.cmp a = .lt := by
  rw [← cmp_swap b a]
  cases b.cmp a <;> simp

lemma linear_cmp : Table.Linear cmp := ⟨cmp_trans, cmp_eq_iff, cmp_gt_iff⟩

end Key

namespace Table

variable {α β : Type}

/-- The keys are strictly increasing. -/
def Ordered (table : Table Key α) : Prop := table.Pairwise fun a b => a.1.cmp b.1 = .lt

/-- Entries of equal keys and related values. -/
def Related (R : α → β → Prop) (entry : Key × α) (other : Key × β) : Prop :=
  entry.1 = other.1 ∧ R entry.2 other.2

lemma Ordered.nodup {table : Table Key α} (h : Ordered table) : (keys table).Nodup := by
  rw [keys, List.Nodup, List.pairwise_map]
  refine h.imp fun {a b} hlt heq => ?_
  rw [Key.cmp_eq_iff.2 heq] at hlt
  cases hlt

lemma lookup_map_snd {κ : Type} [BEq κ] (g : α → β) (key : κ) (entries : Table κ α) :
    (entries.map fun entry => (entry.1, g entry.2)).lookup key = (entries.lookup key).map g := by
  induction entries with
  | nil => rfl
  | cons entry rest ih =>
    rw [List.map_cons, List.lookup_cons, List.lookup_cons, ih]
    split <;> rfl

/-! ### Storing -/

lemma putOrdered_related {R : α → β → Prop} {table : Table Key α} {other : Table Key β}
    {key : Key} {a : α} {b : β} (h : List.Forall₂ (Related R) table other) (hab : R a b) :
    List.Forall₂ (Related R) (putOrdered Key.cmp key a table) (putOrdered Key.cmp key b other) := by
  induction h with
  | nil => exact .cons ⟨rfl, hab⟩ .nil
  | @cons entry entry' rest rest' hentry hrest ih =>
    obtain ⟨k, v⟩ := entry
    obtain ⟨k', v'⟩ := entry'
    obtain ⟨rfl, hv⟩ : k = k' ∧ R v v' := hentry
    simp only [putOrdered]
    split
    · exact .cons ⟨rfl, hab⟩ (.cons ⟨rfl, hv⟩ hrest)
    · exact .cons ⟨rfl, hab⟩ hrest
    · exact .cons ⟨rfl, hv⟩ ih

lemma ofListOrdered_related {R : α → β → Prop} {entries : Table Key α} {others : Table Key β}
    (h : List.Forall₂ (Related R) entries others) :
    List.Forall₂ (Related R) (ofListOrdered Key.cmp entries) (ofListOrdered Key.cmp others) := by
  suffices hfold : ∀ (table : Table Key α) (other : Table Key β),
      List.Forall₂ (Related R) table other →
      List.Forall₂ (Related R)
        (entries.foldl (fun table entry => putOrdered Key.cmp entry.1 entry.2 table) table)
        (others.foldl (fun table entry => putOrdered Key.cmp entry.1 entry.2 table) other) from
    hfold [] [] .nil
  induction h with
  | nil => exact fun _ _ h => h
  | @cons entry entry' rest rest' hentry _ ih =>
    intro table other htable
    obtain ⟨k, v⟩ := entry
    obtain ⟨k', v'⟩ := entry'
    obtain ⟨rfl, hv⟩ : k = k' ∧ R v v' := hentry
    exact ih _ _ (putOrdered_related htable hv)

lemma mem_of_mem_ofListOrdered {entries : Table Key α} {entry : Key × α}
    (h : entry ∈ ofListOrdered Key.cmp entries) : entry ∈ entries := by
  suffices hfold : ∀ table : Table Key α,
      entry ∈ entries.foldl (fun table entry => putOrdered Key.cmp entry.1 entry.2 table) table →
      entry ∈ entries ∨ entry ∈ table from (hfold [] h).resolve_right List.not_mem_nil
  clear h
  induction entries with
  | nil => exact fun _ => Or.inr
  | cons first rest ih =>
    intro table hentry
    rcases ih _ hentry with hrest | hput
    · exact Or.inl (List.mem_cons_of_mem _ hrest)
    · rcases eq_or_mem_of_mem_putOrdered hput with rfl | htable
      · exact Or.inl List.mem_cons_self
      · exact Or.inr htable

lemma ordered_putOrdered {table : Table Key α} (h : Ordered table) (key : Key) (value : α) :
    Ordered (putOrdered Key.cmp key value table) := increasing_putOrdered Key.linear_cmp h key value

lemma ordered_ofListOrdered (entries : Table Key α) : Ordered (ofListOrdered Key.cmp entries) := by
  suffices hfold : ∀ table : Table Key α, Ordered table →
      Ordered (entries.foldl (fun table entry =>
        putOrdered Key.cmp entry.1 entry.2 table) table) from
    hfold [] List.Pairwise.nil
  induction entries with
  | nil => exact fun _ h => h
  | cons entry rest ih => exact fun table h => ih _ (ordered_putOrdered h entry.1 entry.2)

lemma putOrdered_eq_append {table : Table Key α} {key : Key} {value : α}
    (h : ∀ entry ∈ table, entry.1.cmp key = .lt) :
    putOrdered Key.cmp key value table = table ++ [(key, value)] := by
  induction table with
  | nil => rfl
  | cons first rest ih =>
    obtain ⟨k, v⟩ := first
    have hgt : key.cmp k = .gt := Key.cmp_gt_iff.2 (h _ (List.mem_cons_self ..))
    simp only [putOrdered, hgt, List.cons_append]
    rw [ih fun entry hentry => h entry (List.mem_cons_of_mem _ hentry)]

/-- Storing the entries of a table in order one after the other gives the table. -/
lemma ofListOrdered_eq_self {entries : Table Key α} (h : Ordered entries) :
    ofListOrdered Key.cmp entries = entries := by
  suffices hfold : ∀ table : Table Key α, Ordered (table ++ entries) →
      entries.foldl (fun table entry => putOrdered Key.cmp entry.1 entry.2 table) table =
        table ++ entries from
    hfold [] h
  clear h
  induction entries with
  | nil => simp
  | cons entry rest ih =>
    intro table htable
    have hbefore : ∀ other ∈ table, other.1.cmp entry.1 = .lt := by
      intro other hother
      exact (List.pairwise_append.1 htable).2.2 other hother entry (List.mem_cons_self ..)
    simp only [List.foldl_cons]
    rw [putOrdered_eq_append hbefore, ih _ (by simpa using htable)]
    simp

end Table

end GuardedTrace
