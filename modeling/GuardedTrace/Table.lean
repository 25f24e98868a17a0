/-
Finite maps as lists of entries.

Two kinds of map occur in the library, and both are plain lists of key and value pairs:

* a *table* keeps its keys in the order in which they first appeared.  Storing under a key that is
  already present replaces the value and leaves the key where it stands;
* an *ordered table* keeps its keys in increasing order of a given comparison.

Looking a key up is `List.lookup` for both.  The lemmas at the end say what storing does to a
later look-up, which is all that the rest of the library uses.
-/

namespace GuardedTrace

/-- A finite map as its list of entries. -/
abbrev Table (κ α : Type) : Type := List (κ × α)

namespace Table

variable {κ α : Type}

/-- Stores `value` under `key`: in place when the key is present, as a new last entry otherwise. -/
def put [BEq κ] (key : κ) (value : α) : Table κ α → Table κ α
  | [] => [(key, value)]
  | (k, v) :: rest => if k == key then (k, value) :: rest else (k, v) :: put key value rest

/-- Stores `value` under `key` unless the key is present already. -/
def putIfNew [BEq κ] (key : κ) (value : α) (table : Table κ α) : Table κ α :=
  if (table.lookup key).isSome then table else table ++ [(key, value)]

/-- Removes the entry of `key`. -/
def erase [BEq κ] (key : κ) (table : Table κ α) : Table κ α :=
  table.filter fun entry => !(entry.1 == key)

/-- The table of a list of entries; a later entry of a key replaces the value of an earlier one. -/
def ofList [BEq κ] (entries : List (κ × α)) : Table κ α :=
  entries.foldl (fun table entry => table.put entry.1 entry.2) []

/-- The keys, in the order of the table. -/
def keys (table : Table κ α) : List κ := table.map Prod.fst

/-- The values, in the order of the table. -/
def values (table : Table κ α) : List α := table.map Prod.snd

/-- Stores `value` under `key` in an ordered table, keeping the keys in increasing order. -/
def putOrdered (cmp : κ → κ → Ordering) (key : κ) (value : α) : Table κ α → Table κ α
  | [] => [(key, value)]
  | (k, v) :: rest =>
    match cmp key k with
    | .lt => (key, value) :: (k, v) :: rest
    | .eq => (key, value) :: rest
    | .gt => (k, v) :: putOrdered cmp key value rest

/-- The ordered table of a list of entries; a later entry of a key wins. -/
def ofListOrdered (cmp : κ → κ → Ordering) (entries : List (κ × α)) : Table κ α :=
  entries.foldl (fun table entry => putOrdered cmp entry.1 entry.2 table) []

/-! ## Looking up what was stored -/

variable [BEq κ] [LawfulBEq κ]

theorem lookup_put_self (key : κ) (value : α) (table : Table κ α) :
    (table.put key value).lookup key = some value := by
  induction table with
  | nil => simp [put]
  | cons entry rest ih =>
    obtain ⟨k, v⟩ := entry
    by_cases h : k = key
    · subst h
      simp [put]
    · have hk : (k == key) = false := by simpa using h
      have hk' : (key == k) = false := by simpa using fun e => h e.symm
      simp [put, hk, List.lookup_cons, hk', ih]

theorem lookup_put_of_ne {key other : κ} (value : α) (table : Table κ α) (h : other ≠ key) :
    (table.put key value).lookup other = table.lookup other := by
  induction table with
  | nil =>
    have ho : (other == key) = false := by simpa using h
    simp [put, List.lookup_cons, ho]
  | cons entry rest ih =>
    obtain ⟨k, v⟩ := entry
    by_cases hk : k = key
    · subst hk
      have ho : (other == k) = false := by simpa using h
      simp [put, List.lookup_cons, ho]
    · have hk' : (k == key) = false := by simpa using hk
      by_cases ho : other = k
      · subst ho
        simp [put, hk']
      · have ho' : (other == k) = false := by simpa using ho
        simp [put, hk', List.lookup_cons, ho', ih]

/-- What holds of all entries of a table, and of one that is stored, holds of all entries then. -/
theorem forall_lookup_put {P : α → Prop} {key : κ} {value : α} {table : Table κ α}
    (htable : ∀ other found, table.lookup other = some found → P found) (hvalue : P value) :
    ∀ other found, (table.put key value).lookup other = some found → P found := by
  intro other found hfound
  by_cases hother : other = key
  · subst hother
    rw [lookup_put_self] at hfound
    exact Option.some.inj hfound ▸ hvalue
  · rw [lookup_put_of_ne _ _ hother] at hfound
    exact htable other found hfound

end Table

end GuardedTrace
