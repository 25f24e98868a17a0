/-
What the guards of a wrapped value pin down.

Wrapping a value attaches guards to it and to the items of the sequences and dictionaries inside it.
The guards accept another value at the same place when the two agree part by part (`Value.Admits`).
A value that is accepted wraps to the same symbolic value, up to what a trace keeps of objects and
methods without looking into it, with one exception: the guard of a sequence asks for its length and
not for its kind, so a list is accepted for a tuple.  `TraceM.wrap_outline_iff` says that nothing
else can differ.

Both halves are inductions on the wrapped value: from the guards to the agreement, and from the
agreement to the wrapping of the other value.
-/
import GuardedTrace.Proofs.TwoRuns

namespace GuardedTrace

variable {frame : Frame} {config : Config} {scope : Scope} {path : String}

/-! ### Parts of values -/

namespace Value

/-- The value itself, or an item of a sequence or a dictionary in it, at any depth. -/
inductive HasPart : Value → Value → Prop where
  | self (value : Value) : HasPart value value
  | tuple {items : List Value} {item part : Value} (hitem : item ∈ items) (h : HasPart item part) :
    HasPart (.tuple items) part
  | list {items : List Value} {item part : Value} (hitem : item ∈ items) (h : HasPart item part) :
    HasPart (.list items) part
  | dict {entries : List (Key × Value)} {key : Key} {item part : Value}
    (hitem : (key, item) ∈ entries)
    (h : HasPart item part) : HasPart (.dict entries) part

/-- In every dictionary of a value each key occurs once, and no text among the keys contains a
closing bracket. -/
def KeysApart (value : Value) : Prop :=
  ∀ entries, value.HasPart (.dict entries) →
    (Table.keys entries).Nodup ∧ ∀ text, Key.text text ∈ Table.keys entries → ']' ∉ text.toList

/-- Equal identities in two values belong to equal objects. -/
def Coherent (a b : Value) : Prop :=
  ∀ x y, a.HasPart x → b.HasPart y → ∀ id, x.identity? = some id → y.identity? = some id → x = y

mutual

/-- Sequences stand opposite sequences of the same kind: no list opposite a tuple. -/
def SameSequences : Value → Value → Prop
  | tuple items, tuple others | list items, list others => SameSequencesItems items others
  | tuple _, list _ | list _, tuple _ => False
  | dict entries, dict others => SameSequencesEntries entries others
  | _, _ => True
termination_by structural value => value

def SameSequencesItems : List Value → List Value → Prop
  | item :: rest, other :: others => SameSequences item other ∧ SameSequencesItems rest others
  | _, _ => True
termination_by structural items => items

def SameSequencesEntries : List (Key × Value) → List (Key × Value) → Prop
  | (_, item) :: rest, (_, other) :: others =>
    SameSequences item other ∧ SameSequencesEntries rest others
  | _, _ => True
termination_by structural entries => entries

end

/-! ### Accepted values -/

mutual

/-- The guards of the first value, wrapped, accept the second one: it passes the check of the first,
and so do the items of sequences and dictionaries. -/
def Admits (config : Config) : Value → Value → Prop
  | tuple items, other =>
    ∃ found, (other = tuple found ∨ other = list found) ∧ AdmitsItems config items found
  | list items, other =>
    ∃ found, (other = tuple found ∨ other = list found) ∧ AdmitsItems config items found
  | dict entries, other => ∃ found, other = dict found ∧ AdmitsEntries config entries found
  | value, other => (value.check config).mismatch? other = Option.none
termination_by structural value => value

def AdmitsItems (config : Config) : List Value → List Value → Prop
  | [], others => others = []
  | item :: rest, others => ∃ other more, others = other :: more ∧ Admits config item other ∧
    AdmitsItems config rest more
termination_by structural items => items

def AdmitsEntries (config : Config) : List (Key × Value) → List (Key × Value) → Prop
  | [], others => others = []
  | (key, item) :: rest, others =>
    ∃ other more, others = (key, other) :: more ∧ Admits config item other ∧
    AdmitsEntries config rest more
termination_by structural entries => entries

end

end Value

namespace TraceM

/-! ### From guards to agreement -/

/-- An entry of a dictionary whose keys can be told apart stands at the place of its key. -/
lemma resolve_entry {entries : List (Key × Value)} {key : Key} {item : Value}
    (hkeys : (Value.dict entries).KeysApart)
    (hplace : frame.resolve scope path = .ok (.dict entries))
    (hitem : (key, item) ∈ entries) :
    frame.resolve scope (path ++ "[" ++ key.written ++ "]") = .ok item := by
  obtain ⟨hnodup, hclosing⟩ := hkeys entries (.self _)
  have hkey : key ∈ Table.keys entries := List.mem_map.2 ⟨_, hitem, rfl⟩
  rw [Frame.resolve_index (fun text htext => hclosing text (htext ▸ hkey)) hplace]
  have hlookup := Frame.lookup_eq_some_of_mem hnodup hitem
  cases key <;> simp [Value.ofKey, Value.subscript, Value.entryAt, hlookup]

mutual

/-- Guards that hold accept the value at their place. -/
lemma admits_of_guards : ∀ (a b : Value) (path : String), b.KeysApart →
    frame.resolve scope path = .ok b →
    ∀ state wrapped after, wrap config scope a path state = .ok (wrapped, after) →
      (∀ guard ∈ wrapped.guards, guard.Holds frame) → a.Admits config b
  | a, b, path, hkeys, hb, state, wrapped, after, h, hguards => by
    have hpasses := (hguards _ (mem_guards_of_wrap h)).passes a.check_ne_unbound hb
    cases a with
    | tuple items | list items =>
      obtain ⟨found, hlength, hfound⟩ := Check.exists_of_lengthMatch hpasses
      obtain ⟨inner, middle, hitems, hvalue⟩ := bind_eq_ok.1 h
      cases pure_eq_ok.1 hvalue
      have hinner : ∀ value ∈ inner, ∀ guard ∈ value.guards, guard.Holds frame :=
        fun value hvalue guard hmem => hguards guard
          (Symbolic.mem_boundTo.2 (Or.inl (Symbolic.mem_derived.2 ⟨value, hvalue, hmem⟩)))
      have hparts : ∀ item ∈ found, item.KeysApart := by
        intro item hitem entries hpart
        rcases hfound with rfl | rfl
        · exact hkeys entries (.tuple hitem hpart)
        · exact hkeys entries (.list hitem hpart)
      exact ⟨found, hfound, admitsItems_of_guards items found path 0 hlength hparts
        (resolve_found hfound hb hlength hitems hinner) _ _ _ hitems hinner⟩
    | dict entries =>
      obtain ⟨found, rfl, hsame⟩ := Check.exists_of_keysMatch hpasses
      obtain ⟨inner, middle, hentries, hvalue⟩ := bind_eq_ok.1 h
      cases pure_eq_ok.1 hvalue
      have hinner : ∀ value ∈ Table.values inner, ∀ guard ∈ value.guards, guard.Holds frame :=
        fun value hvalue guard hmem => hguards guard
          (Symbolic.mem_boundTo.2 (Or.inl (Symbolic.mem_derived.2 ⟨value, hvalue, hmem⟩)))
      exact ⟨found, rfl, admitsEntries_of_guards entries found path hsame
        (fun key item hitem entries hpart => hkeys entries (.dict hitem hpart))
        (fun key item hitem => resolve_entry hkeys hb hitem) _ _ _ hentries hinner⟩
    | _ => exact hpasses
termination_by structural a => a

lemma admitsItems_of_guards : ∀ (as bs : List Value) (path : String) (position : Nat),
    bs.length = as.length → (∀ b ∈ bs, b.KeysApart) →
    (∀ i b, bs[i]? = some b →
      frame.resolve scope (path ++ "[" ++ Text.showNat (position + i) ++ "]") = .ok b) →
    ∀ state wrapped after, wrapItems config scope as path position state = .ok (wrapped, after) →
      (∀ value ∈ wrapped, ∀ guard ∈ value.guards, guard.Holds frame) →
        Value.AdmitsItems config as bs
  | [], bs, path, position, hlength, _, _, _, _, _, _, _ => List.length_eq_zero_iff.1 hlength
  | a :: as, [], path, position, hlength, _, _, _, _, _, _, _ => nomatch hlength
  | a :: as, b :: bs, path, position, hlength, hkeys, hbs, state, wrapped, after, h, hguards => by
    obtain ⟨first, middle, hfirst, h⟩ := bind_eq_ok.1 h
    obtain ⟨rest, last, hrest, h⟩ := bind_eq_ok.1 h
    cases pure_eq_ok.1 h
    have hnext : ∀ i b, bs[i]? = some b →
        frame.resolve scope (path ++ "[" ++ Text.showNat (position + 1 + i) ++ "]") = .ok b := by
      intro i b hb
      have := hbs (i + 1) b hb
      rwa [Nat.add_comm i 1, ← Nat.add_assoc] at this
    exact ⟨b, bs, rfl,
      admits_of_guards a b _ (hkeys b (List.mem_cons_self ..)) (hbs 0 b rfl) _ _ _ hfirst
        (hguards _ (List.mem_cons_self ..)),
      admitsItems_of_guards as bs path (position + 1) (Nat.succ.inj hlength)
        (fun b hb => hkeys b (List.mem_cons_of_mem _ hb)) hnext _ _ _ hrest
        (fun value hvalue => hguards value (List.mem_cons_of_mem _ hvalue))⟩
termination_by structural as => as

lemma admitsEntries_of_guards : ∀ (as bs : List (Key × Value)) (path : String),
    Table.keys bs = Table.keys as → (∀ key b, (key, b) ∈ bs → b.KeysApart) →
    (∀ key b, (key, b) ∈ bs → frame.resolve scope (path ++ "[" ++ key.written ++ "]") = .ok b) →
    ∀ state wrapped after, wrapEntries config scope as path state = .ok (wrapped, after) →
      (∀ value ∈ Table.values wrapped, ∀ guard ∈ value.guards, guard.Holds frame) →
      Value.AdmitsEntries config as bs
  | [], bs, path, hsame, _, _, _, _, _, _, _ => by
      simpa [Table.keys, Value.AdmitsEntries] using hsame
  | (key, a) :: as, [], path, hsame, _, _, _, _, _, _, _ => by simp [Table.keys] at hsame
  | (key, a) :: as, (key', b) :: bs, path, hsame, hkeys, hbs, state, wrapped,
      after, h, hguards => by
    simp only [Table.keys, List.map_cons, List.cons.injEq] at hsame
    obtain ⟨rfl, hsame⟩ := hsame
    obtain ⟨first, middle, hfirst, h⟩ := bind_eq_ok.1 h
    obtain ⟨rest, last, hrest, h⟩ := bind_eq_ok.1 h
    cases pure_eq_ok.1 h
    exact ⟨b, bs, rfl,
      admits_of_guards a b _ (hkeys _ b (List.mem_cons_self ..))
        (hbs _ b (List.mem_cons_self ..)) _ _ _ hfirst
        (hguards _ (List.mem_cons_self ..)),
      admitsEntries_of_guards as bs path hsame
        (fun key b hb => hkeys key b (List.mem_cons_of_mem _ hb))
        (fun key b hb => hbs key b (List.mem_cons_of_mem _ hb)) _ _ _ hrest
        (fun value hvalue => hguards value (List.mem_cons_of_mem _ hvalue))⟩
termination_by structural as => as

end

end TraceM

/-! ### What a trace looks at -/

namespace Symbolic

/-- The value without what it keeps of the values that a trace cannot look into.  It is moved to a
frame without bindings: nothing stands there at the places of these values. -/
def outline (value : Symbolic) : Symbolic := value.moved {}

/-- Two values are supported alike and carry the same guards. -/
def Alike (value other : Symbolic) : Prop :=
  other.support = value.support ∧ other.guards = value.guards

lemma Alike.refl (value : Symbolic) : value.Alike value := ⟨rfl, rfl⟩

lemma propagate_of_alike {values others : List Symbolic} (h : List.Forall₂ Alike values others) :
    propagate others = propagate values := by
  unfold propagate
  generalize (⟨.unknown, []⟩ : Propagation) = start
  induction h generalizing start with
  | nil => rfl
  | cons hfirst _ ih =>
    simp only [List.foldl_cons, hfirst.1, hfirst.2]
    exact ih _

lemma valueAt_nothing (scope : Scope) (text : String) : Frame.valueAt {} scope text = .none := by
  have hnothing : ∀ value, Frame.resolve {} scope text ≠ .ok value := by
    intro value h
    obtain ⟨place, -, hplace⟩ := Frame.resolve_eq_ok_iff.1 h
    obtain ⟨root, hroot, -⟩ := Frame.path_resolve_eq_ok_iff.1 hplace
    cases scope <;> cases hroot
  unfold Frame.valueAt
  split
  · next value h => exact absurd h (hnothing value)
  · rfl

/-- Of a value that a trace cannot look into the outline keeps the type. -/
lemma outline_unsupported (value : Value) (type : TypeName) (check : Check) :
    ((ofKind (.unsupported value type)).boundTo path scope check).outline =
      (ofKind (.unsupported .none type)).boundTo path scope check := by
  rw [outline, moved_boundTo rfl rfl]
  simp [ofKind, movedKind, movedValue, valueAt_nothing, Kind.support]

variable {check : Check}

lemma alike_boundTo {value other : Symbolic} (h : value.Alike other) :
    (value.boundTo path scope check).Alike (other.boundTo path scope check) := by
  obtain ⟨hsupport, hguards⟩ := h
  cases scope <;> exact ⟨hsupport, congrArg (GuardSet.insert · _) hguards⟩

lemma alike_derived {kind kind' : Kind} {values others : List Symbolic}
    (hkind : kind'.support = kind.support)
    (h : List.Forall₂ Alike values others) :
    (derived kind values).Alike (derived kind' others) := by
  simp only [Alike, derived, inherit, ofKind, propagate_of_alike h, hkind, and_self]

lemma eq_iff_kind_of_derived {kind kind' : Kind} {values others : List Symbolic}
    (hkind : kind'.support = kind.support) (h : propagate others = propagate values) :
    (derived kind' others).boundTo path scope check =
      (derived kind values).boundTo path scope check ↔
      kind' = kind := by
  constructor
  · intro heq
    have := congrArg Symbolic.kind heq
    rwa [kind_boundTo, kind_boundTo] at this
  · rintro rfl
    simp only [derived, h]

/-- Two wrapped sequences of like items have one outline when they are of one kind and their items
have. -/
lemma outline_sequence_iff {kind kind' : SequenceKind} {values others : List Symbolic}
    (h : List.Forall₂ Alike values others) :
    ((sequence kind' others).boundTo path scope check).outline =
        ((sequence kind values).boundTo path scope check).outline ↔
      kind' = kind ∧ others.map outline = values.map outline := by
  unfold outline
  rw [moved_sequence_boundTo, moved_sequence_boundTo]
  unfold sequence
  rw [eq_iff_kind_of_derived (by rfl) (by simpa using propagate_of_alike h), Kind.sequence.injEq]

/-- Two wrapped dictionaries of like items have one outline when their items have. -/
lemma outline_dict_iff {entries others : List (Key × Symbolic)}
    (h : List.Forall₂ Alike (Table.values entries) (Table.values others)) :
    ((derived (.dict others) (Table.values others)).boundTo path scope check).outline =
        ((derived (.dict entries) (Table.values entries)).boundTo path scope check).outline ↔
      movedEntries {} others = movedEntries {} entries := by
  have hvalues : ∀ entries : List (Key × Symbolic), Table.values (movedEntries {} entries) =
      (Table.values entries).map (moved {}) := by
    intro entries
    simp [Table.values, movedEntries_eq_map]
  unfold outline
  rw [moved_dict_boundTo, moved_dict_boundTo,
    eq_iff_kind_of_derived (by rfl) (by simpa [hvalues] using propagate_of_alike h),
      Kind.dict.injEq]

end Symbolic

/-! ### From agreement to wrapping -/

namespace Value

variable {a b : Value}

lemma Coherent.items {items others : List Value} (h : a.Coherent b)
    (ha : a = .tuple items ∨ a = .list items) (hb : b = .tuple others ∨ b = .list others) :
    ∀ x ∈ items, ∀ y ∈ others, x.Coherent y := by
  intro x hx y hy part other hpart hother
  have hpart' : a.HasPart part := by
    rcases ha with rfl | rfl
    · exact .tuple hx hpart
    · exact .list hx hpart
  have hother' : b.HasPart other := by
    rcases hb with rfl | rfl
    · exact .tuple hy hother
    · exact .list hy hother
  exact h part other hpart' hother'

end Value

namespace TraceM

/-- The other value wraps from the same state to a like value, which has the same outline if and
only if a condition is met. -/
def WrapsAlike (config : Config) (scope : Scope) (path : String)
    (state after : Tracer) (wrapped : Symbolic)
    (other : Value) (same : Prop) : Prop :=
  ∃ result, wrap config scope other path state = .ok (result, after) ∧ wrapped.Alike result ∧
    (result.outline = wrapped.outline ↔ same)

section Leaves

variable {a b : Value} {state after : Tracer} {wrapped : Symbolic} {same : Prop}

/-- A value that wraps in the same way. -/
lemma wrapsAlike_of_eq (heq : wrap config scope b path = wrap config scope a path) (hsame : same)
    (h : wrap config scope a path state = .ok (wrapped, after)) :
    WrapsAlike config scope path state after wrapped b same :=
  ⟨wrapped, heq ▸ h, .refl _, iff_of_true rfl hsame⟩

lemma wrap_array_eq {numbers : NumArray}
    (hpasses : (Check.arrayMatch (.of numbers config.dynamicShapes)).mismatch? b = none) :
    ∃ found, b = .array found ∧
      wrap config scope b path = wrap config scope (.array numbers) path := by
  obtain ⟨found, rfl, hfound⟩ := Check.exists_of_arrayMatch hpasses
  have hspec := Check.facts_eq_of_arrayMatch hfound
  refine ⟨found, rfl, ?_⟩
  simp only [wrap, ArrayFacts.ofArray_eq_of_spec hspec, hspec]

lemma wrap_int_eq {n : Int64} (hpasses : ((Value.int n).check config).mismatch? b = none) :
    ∃ m, b = .int m ∧ wrap config scope b path = wrap config scope (.int n) path := by
  cases hscalars : config.specializeScalars with
  | true =>
    simp only [Value.check, hscalars, if_true] at hpasses
    obtain rfl := Check.eq_of_constantMatch hpasses
    exact ⟨n, rfl, rfl⟩
  | false =>
    simp only [Value.check, hscalars, Bool.false_eq_true, if_false] at hpasses
    have htype := Check.typeName_of_typeMatch hpasses
    cases b <;> simp [Value.typeName] at htype
    exact ⟨_, rfl, by simp only [wrap, hscalars, Bool.false_eq_true, if_false]⟩

lemma wrap_float_eq {x : Double} (hpasses : ((Value.float x).check config).mismatch? b = none) :
    ∃ y, b = .float y ∧ wrap config scope b path = wrap config scope (.float x) path := by
  cases hscalars : config.specializeScalars with
  | true =>
    simp only [Value.check, hscalars, if_true] at hpasses
    obtain rfl := Check.eq_of_constantMatch hpasses
    exact ⟨x, rfl, rfl⟩
  | false =>
    simp only [Value.check, hscalars, Bool.false_eq_true, if_false] at hpasses
    have htype := Check.typeName_of_typeMatch hpasses
    cases b <;> simp [Value.typeName] at htype
    exact ⟨_, rfl, by simp only [wrap, hscalars, Bool.false_eq_true, if_false]⟩

/-- Of a value that a trace cannot look into only the type is pinned down. -/
lemma wrapsAlike_sealed (hsealed : a.typeName = .method ∨ ∃ name, a.typeName = .object name)
    (hpasses : (Check.typeMatch a.typeName).mismatch? b = none) (hsame : same)
    (h : wrap config scope a path state = .ok (wrapped, after)) :
    WrapsAlike config scope path state after wrapped b same := by
  have htype := Check.typeName_of_typeMatch hpasses
  rw [wrap_eq_of_sealed hsealed] at h
  cases pure_eq_ok.1 h
  have hb : wrap config scope b path =
      pure ((Symbolic.ofKind (.unsupported b a.typeName)).boundTo path scope
      (.typeMatch a.typeName)) := by
    rw [wrap_eq_of_sealed (by rwa [htype]), htype]
  refine ⟨(Symbolic.ofKind (.unsupported b a.typeName)).boundTo path scope (.typeMatch a.typeName),
    by rw [hb]; rfl, Symbolic.alike_boundTo ⟨rfl, rfl⟩, iff_of_true ?_ hsame⟩
  rw [Symbolic.outline_unsupported, Symbolic.outline_unsupported]

/-- An object with the identity of another one is that object. -/
lemma eq_of_idMatch {id : Identity} (hcoherent : a.Coherent b) (ha : a.identity? = some id)
    (hpasses : (Check.idMatch id).mismatch? b = none) : b = a :=
  (hcoherent a b (.self a) (.self b) id ha (Check.identity_of_idMatch hpasses)).symm

end Leaves

mutual

/-- A value that the guards of another one accept wraps alike, and to the same outline exactly when
its sequences are of the same kinds. -/
lemma wrapsAlike_of_admits : ∀ (a b : Value) (path : String), a.Admits config b → a.Coherent b →
    ∀ state wrapped after, wrap config scope a path state = .ok (wrapped, after) →
      WrapsAlike config scope path state after wrapped b (a.SameSequences b)
  | a, b, path, hadmits, hcoherent, state, wrapped, after, h => by
    cases a with
    | tuple items | list items =>
      obtain ⟨found, hfound, hitems⟩ := hadmits
      obtain ⟨inner, middle, hinner, hvalue⟩ := bind_eq_ok.1 h
      cases pure_eq_ok.1 hvalue
      have hparts : ∀ x ∈ items, ∀ y ∈ found, x.Coherent y := hcoherent.items (by simp) hfound
      obtain ⟨results, hresults, halike, hlength, houtlines⟩ :=
        wrapItems_of_admits items found path 0 hitems hparts _ _ _ hinner
      rcases hfound with rfl | rfl
      all_goals
        refine ⟨_, bind_eq_ok.2 ⟨results, _, hresults, rfl⟩, ?_, ?_⟩
        · rw [hlength]
          exact Symbolic.alike_boundTo (Symbolic.alike_derived rfl halike)
        · rw [hlength, Symbolic.outline_sequence_iff halike, houtlines]
          simp [Value.SameSequences]
    | dict entries =>
      obtain ⟨found, rfl, hentries⟩ := hadmits
      obtain ⟨inner, middle, hinner, hvalue⟩ := bind_eq_ok.1 h
      cases pure_eq_ok.1 hvalue
      have hparts : ∀ key x key' y, (key, x) ∈ entries → (key', y) ∈ found → x.Coherent y :=
        fun key x key' y hx hy part other hpart hother =>
          hcoherent part other (.dict hx hpart) (.dict hy hother)
      obtain ⟨results, hresults, halike, hkeys, houtlines⟩ :=
        wrapEntries_of_admits entries found path hentries hparts _ _ _ hinner
      refine ⟨_, bind_eq_ok.2 ⟨results, _, hresults, rfl⟩, ?_, ?_⟩
      · rw [hkeys]
        exact Symbolic.alike_boundTo (Symbolic.alike_derived rfl halike)
      · rw [hkeys, Symbolic.outline_dict_iff halike, houtlines]
        rfl
    | array numbers =>
      obtain ⟨found, rfl, heq⟩ := wrap_array_eq hadmits
      exact wrapsAlike_of_eq heq trivial h
    | int n =>
      obtain ⟨m, rfl, heq⟩ := wrap_int_eq hadmits
      exact wrapsAlike_of_eq heq trivial h
    | float x =>
      obtain ⟨y, rfl, heq⟩ := wrap_float_eq hadmits
      exact wrapsAlike_of_eq heq trivial h
    | layer node | routine function | library space =>
      obtain rfl := eq_of_idMatch hcoherent rfl hadmits
      exact wrapsAlike_of_eq rfl trivial h
    | primitive function | builtin function =>
      have hcallable := Check.of_hostMatch hadmits
      cases b <;> simp [HostCallable.of?] at hcallable
      subst hcallable
      exact wrapsAlike_of_eq rfl trivial h
    | object owner =>
      exact wrapsAlike_sealed (a := .object owner) (Or.inr ⟨_, rfl⟩) hadmits trivial h
    | boundPrimitive id receiver function =>
      exact wrapsAlike_sealed (a :=
        .boundPrimitive id receiver function) (Or.inl rfl) hadmits trivial h
    | boundRoutine id receiver function =>
      exact wrapsAlike_sealed (a :=
        .boundRoutine id receiver function) (Or.inl rfl) hadmits trivial h
    | none | bool _ | str _ | slice _ | elementType _ | device _ =>
      obtain rfl := Check.eq_of_constantMatch hadmits
      exact wrapsAlike_of_eq rfl trivial h
termination_by structural a => a

lemma wrapItems_of_admits : ∀ (as bs : List Value) (path : String) (position : Nat),
    Value.AdmitsItems config as bs → (∀ x ∈ as, ∀ y ∈ bs, x.Coherent y) →
    ∀ state wrapped after, wrapItems config scope as path position state = .ok (wrapped, after) →
      ∃ results, wrapItems config scope bs path position state = .ok (results, after) ∧
        List.Forall₂ Symbolic.Alike wrapped results ∧ bs.length = as.length ∧
        (results.map Symbolic.outline = wrapped.map Symbolic.outline ↔
          Value.SameSequencesItems as bs)
  | [], bs, path, position, hadmits, _, state, wrapped, after, h => by
    obtain rfl : bs = [] := hadmits
    cases pure_eq_ok.1 h
    exact ⟨[], rfl, .nil, rfl, iff_of_true rfl trivial⟩
  | a :: as, bs, path, position, hadmits, hcoherent, state, wrapped, after, h => by
    obtain ⟨b, bs, rfl, hfirstAdmits, hrestAdmits⟩ := hadmits
    obtain ⟨first, middle, hfirst, h⟩ := bind_eq_ok.1 h
    obtain ⟨rest, last, hrest, h⟩ := bind_eq_ok.1 h
    cases pure_eq_ok.1 h
    obtain ⟨result, hresult, halike, houtline⟩ := wrapsAlike_of_admits a b _ hfirstAdmits
      (hcoherent a (List.mem_cons_self ..) b (List.mem_cons_self ..)) _ _ _ hfirst
    obtain ⟨results, hresults, halikes, hlength, houtlines⟩ :=
      wrapItems_of_admits as bs path (position + 1) hrestAdmits
        (fun x hx y hy => hcoherent x (List.mem_cons_of_mem _ hx) y (List.mem_cons_of_mem _ hy))
          _ _ _ hrest
    refine ⟨result :: results, bind_eq_ok.2 ⟨_, _, hresult, bind_eq_ok.2 ⟨_, _, hresults, rfl⟩⟩,
      .cons halike halikes, congrArg Nat.succ hlength, ?_⟩
    rw [List.map_cons, List.map_cons, List.cons.injEq, houtline, houtlines]
    rfl
termination_by structural as => as

lemma wrapEntries_of_admits : ∀ (as bs : List (Key × Value)) (path : String),
    Value.AdmitsEntries config as bs →
    (∀ key x key' y, (key, x) ∈ as → (key', y) ∈ bs → x.Coherent y) →
    ∀ state wrapped after, wrapEntries config scope as path state = .ok (wrapped, after) →
      ∃ results, wrapEntries config scope bs path state = .ok (results, after) ∧
        List.Forall₂ Symbolic.Alike (Table.values wrapped) (Table.values results) ∧
        Table.keys bs = Table.keys as ∧
        (Symbolic.movedEntries {} results = Symbolic.movedEntries {} wrapped ↔
          Value.SameSequencesEntries as bs)
  | [], bs, path, hadmits, _, state, wrapped, after, h => by
    obtain rfl : bs = [] := hadmits
    cases pure_eq_ok.1 h
    exact ⟨[], rfl, .nil, rfl, iff_of_true rfl trivial⟩
  | (key, a) :: as, bs, path, hadmits, hcoherent, state, wrapped, after, h => by
    obtain ⟨b, bs, rfl, hfirstAdmits, hrestAdmits⟩ := hadmits
    obtain ⟨first, middle, hfirst, h⟩ := bind_eq_ok.1 h
    obtain ⟨rest, last, hrest, h⟩ := bind_eq_ok.1 h
    cases pure_eq_ok.1 h
    obtain ⟨result, hresult, halike, houtline⟩ := wrapsAlike_of_admits a b _ hfirstAdmits
      (hcoherent key a key b (List.mem_cons_self ..) (List.mem_cons_self ..)) _ _ _ hfirst
    obtain ⟨results, hresults, halikes, hkeys, houtlines⟩ :=
      wrapEntries_of_admits as bs path hrestAdmits
      (fun key x key' y hx hy =>
        hcoherent key x key' y (List.mem_cons_of_mem _ hx) (List.mem_cons_of_mem _ hy)) _ _ _ hrest
    refine ⟨(key, result) :: results,
      bind_eq_ok.2 ⟨_, _, hresult, bind_eq_ok.2 ⟨_, _, hresults, rfl⟩⟩,
      .cons halike halikes, congrArg (key :: ·) hkeys, ?_⟩
    rw [Symbolic.movedEntries, Symbolic.movedEntries, List.cons.injEq, Prod.mk.injEq, houtlines]
    simp only [true_and]
    exact and_congr_left fun _ => houtline
termination_by structural as => as

end

/-- **What wrapping guards pin down.**  A value is wrapped under a name, and its guards hold on a
frame that binds another value to the name.  From the same state the other value wraps to a value
that is supported alike and carries the same guards, and leaves the same state; it has the same
outline, with all constants, facts and containers, exactly when no list stands in one of the two
where the other has a tuple. -/
theorem wrap_outline_iff {name : String}
    (hname : Text.isIdentifier name.toList = true) {a b : Value}
    (hkeys : b.KeysApart) (hcoherent : a.Coherent b) (hb : frame.lookup? scope name = some b)
    {state after : Tracer} {wrapped : Symbolic}
    (hwrap : wrap config scope a name state = .ok (wrapped, after))
    (hguards : ∀ guard ∈ wrapped.guards, guard.Holds frame) :
    ∃ other, wrap config scope b name state = .ok (other, after) ∧ other.support = wrapped.support ∧
      other.guards = wrapped.guards ∧ (other.outline = wrapped.outline ↔ a.SameSequences b) := by
  have hplace := (Frame.resolve_identifier hname).2 hb
  have hadmits := admits_of_guards a b name hkeys hplace state wrapped after hwrap hguards
  obtain ⟨other, hother, ⟨hsupport, hsame⟩, houtline⟩ :=
    wrapsAlike_of_admits a b name hadmits hcoherent state wrapped after hwrap
  exact ⟨other, hother, hsupport, hsame, houtline⟩

/-- An object and an array of one element. -/
def pairOf (number : Nat) (element : Double) : Value :=
  .tuple [.object ⟨.declared number, "Config", [("width", .int 8)]⟩,
    .array (.contiguous .float64 .cpu [1] [element])]

lemma hasPart_pairOf {number : Nat} {element : Double} {part : Value}
    (h : (pairOf number element).HasPart part) :
    part = pairOf number element ∨
      part = .object ⟨.declared number, "Config", [("width", .int 8)]⟩ ∨
      part = .array (.contiguous .float64 .cpu [1] [element]) := by
  cases h with
  | self => exact Or.inl rfl
  | tuple hitem h =>
    right
    simp only [List.mem_cons, List.not_mem_nil, or_false] at hitem
    rcases hitem with rfl | rfl <;> cases h
    · exact Or.inl rfl
    · exact Or.inr rfl

/-- A pair whose object and whose element are others wraps to the same outline. -/
theorem pairOf_outline : ∃ wrapped other after,
    wrap {} .locals (pairOf 1 ⟨0⟩) "p" {} = .ok (wrapped, after) ∧
    wrap {} .locals (pairOf 2 ⟨1⟩) "p" {} = .ok (other, after) ∧
    (∀ guard ∈ wrapped.guards, guard.Holds { locals := [("p", pairOf 2 ⟨1⟩)] }) ∧
    other.outline = wrapped.outline := by
  have hholds : (match wrap {} .locals (pairOf 1 ⟨0⟩) "p" {} with
      | .ok (wrapped, _) =>
        decide (∀ guard ∈ wrapped.guards, guard.Holds { locals := [("p", pairOf 2 ⟨1⟩)] })
      | .error _ => false) = true := by
    decide +kernel
  have hkeys : (pairOf 2 ⟨1⟩).KeysApart := by
    intro entries hpart
    rcases hasPart_pairOf hpart with heq | heq | heq <;> cases heq
  have hcoherent : (pairOf 1 ⟨0⟩).Coherent (pairOf 2 ⟨1⟩) := by
    intro x y hx hy id hid hid'
    rcases hasPart_pairOf hx with rfl | rfl | rfl
    · cases hid
    · cases hid
      rcases hasPart_pairOf hy with rfl | rfl | rfl <;> cases hid'
    · cases hid
  cases hwrap : wrap {} .locals (pairOf 1 ⟨0⟩) "p" {} with
  | error cause => simp [hwrap] at hholds
  | ok result =>
    obtain ⟨wrapped, after⟩ := result
    simp only [hwrap, decide_eq_true_eq] at hholds
    obtain ⟨other, hother, -, -, houtline⟩ :=
      wrap_outline_iff (by decide) hkeys hcoherent (by rfl) hwrap hholds
    exact ⟨wrapped, other, after, rfl, hother, hholds,
      houtline.2 (by simp [pairOf, Value.SameSequences, Value.SameSequencesItems])⟩

/-- The guards of a list accept a tuple of the same length, which is not wrapped to the same
outline. -/
theorem not_wrap_outline_eq :
    ¬ ∀ (config : Config) (scope : Scope) (name : String) (frame : Frame) (a b : Value)
    (state after : Tracer) (wrapped : Symbolic), Text.isIdentifier name.toList = true →
      b.KeysApart →
      a.Coherent b → frame.lookup? scope name = some b →
      wrap config scope a name state = .ok (wrapped, after) →
        (∀ guard ∈ wrapped.guards, guard.Holds frame) →
      ∃ other after', wrap config scope b name state = .ok (other, after') ∧
        other.outline = wrapped.outline := by
  intro h
  have hself : ∀ {value part : Value}, value = .list [] ∨ value = .tuple [] →
      value.HasPart part → part = value := by
    rintro value part (rfl | rfl) hpart
    · cases hpart with
      | self => rfl
      | list hitem => cases hitem
    · cases hpart with
      | self => rfl
      | tuple hitem => cases hitem
  have hkeys : (Value.tuple []).KeysApart := fun entries hpart => nomatch hself (Or.inr rfl) hpart
  have hcoherent : (Value.list []).Coherent (.tuple []) := by
    intro x y hx _ id hid _
    rw [hself (Or.inl rfl) hx] at hid
    cases hid
  obtain ⟨other, after, hother, houtline⟩ :=
    h {} .locals "xs" { locals := [("xs", .tuple [])] } (.list []) (.tuple [])
    {} {} ((Symbolic.sequence .list []).boundTo "xs" .locals (.lengthMatch 0))
      (by decide) hkeys hcoherent (by rfl)
    (by rfl) (by decide)
  cases pure_eq_ok.1 hother
  have hkind := congrArg Symbolic.kind houtline
  cases hkind

end TraceM

end GuardedTrace
