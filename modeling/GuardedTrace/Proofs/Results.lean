/-
Results that may fail.
-/
import Mathlib.Data.List.Forall2
import Mathlib.Tactic

namespace GuardedTrace

variable {ε α β : Type}

@[simp] lemma ok_bind (value : α) (f : α → Except ε β) : (Except.ok value >>= f) = f value := rfl

@[simp] lemma error_bind (error : ε) (f : α → Except ε β) :
    (Except.error error >>= f) = .error error := rfl

lemma except_bind_eq_ok {x : Except ε α} {f : α → Except ε β} {result : β} :
    (x >>= f) = .ok result ↔ ∃ value, x = .ok value ∧ f value = .ok result := by
  cases x <;> simp

lemma except_map_eq_error {x : Except ε α} {f : α → β} {error : ε} :
    x.map f = .error error ↔ x = .error error := by
  cases x <;> simp [Except.map]

lemma except_map_eq_ok {x : Except ε α} {f : α → β} {result : β} :
    x.map f = .ok result ↔ ∃ value, x = .ok value ∧ f value = result := by
  cases x <;> simp [Except.map]

/-- A list of computations succeeds when each of them does. -/
lemma mapM_eq_ok {f : α → Except ε β} {items : List α} {results : List β} :
    items.mapM f = .ok results ↔
      List.Forall₂ (fun item result => f item = .ok result) items results := by
  induction items generalizing results with
  | nil =>
    rw [List.mapM_nil]
    constructor
    · intro h
      obtain rfl := Except.ok.inj h
      exact .nil
    · intro h
      cases h
      rfl
  | cons item rest ih =>
    rw [List.mapM_cons, except_bind_eq_ok]
    constructor
    · rintro ⟨first, hfirst, h⟩
      obtain ⟨others, hothers, h⟩ := except_bind_eq_ok.1 h
      obtain rfl := Except.ok.inj h
      exact .cons hfirst (ih.1 hothers)
    · intro h
      cases h with
      | cons hfirst hrest => exact ⟨_, hfirst, except_bind_eq_ok.2 ⟨_, ih.2 hrest, rfl⟩⟩

/-- A list of computations fails for one of them. -/
lemma exists_of_mapM_eq_error {f : α → Except ε β} {items : List α} {error : ε}
    (h : items.mapM f = .error error) : ∃ item ∈ items, f item = .error error := by
  induction items with
  | nil =>
    rw [List.mapM_nil] at h
    exact nomatch h
  | cons item rest ih =>
    rw [List.mapM_cons] at h
    cases hfirst : f item with
    | error first =>
      rw [hfirst, error_bind] at h
      obtain rfl := Except.error.inj h
      exact ⟨item, List.mem_cons_self .., hfirst⟩
    | ok first =>
      rw [hfirst, ok_bind] at h
      cases hrest : rest.mapM f with
      | error other =>
        rw [hrest, error_bind] at h
        obtain rfl := Except.error.inj h
        obtain ⟨found, hfound, herror⟩ := ih hrest
        exact ⟨found, List.mem_cons_of_mem _ hfound, herror⟩
      | ok others =>
        rw [hrest] at h
        exact nomatch h

lemma exists_of_mem_right {R : α → β → Prop} {items : List α} {results : List β}
    (h : List.Forall₂ R items results) {result : β} (hresult : result ∈ results) :
    ∃ item ∈ items, R item result := by
  induction h with
  | nil => cases hresult
  | cons hfirst _ ih =>
    rcases List.mem_cons.1 hresult with rfl | hresult
    · exact ⟨_, List.mem_cons_self .., hfirst⟩
    · obtain ⟨item, hitem, h⟩ := ih hresult
      exact ⟨item, List.mem_cons_of_mem _ hitem, h⟩

end GuardedTrace
