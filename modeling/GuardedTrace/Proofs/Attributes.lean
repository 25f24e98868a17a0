/-
Attributes of a trace beside the attributes of a run.

A trace makes sure that an attribute exists when it is read from a layer, a library or a bound
object.  Any other attribute is put off until it is used, if at all, and the run may fail where the
trace does not.  What the facts of an array say about its shape is what the run reads; what they say
about its element type and its device need not be, and a number that has the facts of an array has
none of its attributes.
-/
import GuardedTrace.Proofs.Calls

namespace GuardedTrace

/-- A value that was put off: an attribute that is read when it is used, or nothing that is
known. -/
def Symbolic.IsPutOff (value : Symbolic) : Prop :=
  value.IsUnknown ∨ ∃ holder name, value.kind = .attr holder name

/-- The attributes of arrays that the facts of an array may misjudge. -/
def placementAttrs : List String := ["dtype", "device", "is_cuda"]

/-- The constant that an attribute of an array is folded to is not the attribute. -/
def Symbolic.Misreads (holder : Symbolic) (name : String) (value : Symbolic) (v : Value) : Prop :=
  holder.constAttr? name = some value ∧ name ∈ placementAttrs ∧
    ∃ literal, value.kind = .constant literal ∧ v ≠ .ofLiteral literal

/-- What has the facts of an array is none, and has not the attribute that the facts tell. -/
def Symbolic.MistakenForArray (holder : Symbolic) (name : String) (b : Value) : Prop :=
  (holder.constAttr? name).isSome = true ∧ ∀ numbers, b ≠ .array numbers

/-! ### Arrays -/

lemma ofSize_of_narrow {size : Nat} {word : Int64} (h : narrow size = some word) :
    Value.ofSize size = .ok (.int word) := by
  rw [Value.ofSize, Value.wordOfSize, h, Option.elim, Except.map]

lemma ofSizes_of_sizesLiteral? {sizes : List Nat} {literal : Literal}
    (h : Symbolic.sizesLiteral? sizes = some literal) :
    Value.ofSizes sizes = .ok (.ofLiteral literal) := by
  obtain ⟨literals, hliterals, rfl⟩ := Option.map_eq_some_iff.1 h
  refine except_map_eq_ok.2 ⟨Value.ofLiterals literals, mapM_eq_ok.2 ?_, rfl⟩
  clear h
  induction sizes generalizing literals with
  | nil =>
    cases hliterals
    exact .nil
  | cons size rest ih =>
    simp only [List.mapM_cons, Option.bind_eq_bind, Option.pure_def, Option.bind_eq_some_iff,
      Option.map_eq_some_iff, Option.some.injEq] at hliterals
    obtain ⟨_, ⟨word, hword, rfl⟩, others, hothers, rfl⟩ := hliterals
    exact .cons (ofSize_of_narrow hword) (ih others hothers)

/-- The rank that the facts of an array know is its rank. -/
lemma ofSize_of_rank {rank : Option Nat} {literal : Literal} {numbers : NumArray}
    (hknown : ∀ found, rank = some found → some numbers.rank = some found)
    (h : (do let rank ← rank; (narrow rank).map Literal.int) = some literal) :
    Value.ofSize numbers.rank = .ok (.ofLiteral literal) := by
  obtain ⟨found, hfound, hmap⟩ := Option.bind_eq_some_iff.1 h
  obtain ⟨word, hword, rfl⟩ := Option.map_eq_some_iff.1 hmap
  rw [Option.some.inj (hknown found hfound), ofSize_of_narrow hword, Value.ofLiteral]

/-- The sizes, or the strides, that the facts of an array know are those of the array. -/
lemma ofSizes_of_known {known : Option (List Nat)} {sizes : List Nat} {literal : Literal}
    (hknown : ∀ found, known = some found → some sizes = some found)
    (h : known.bind Symbolic.sizesLiteral? = some literal) :
    Value.ofSizes sizes = .ok (.ofLiteral literal) := by
  obtain ⟨found, hfound, hsizes⟩ := Option.bind_eq_some_iff.1 h
  rw [Option.some.inj (hknown found hfound), ofSizes_of_sizesLiteral? hsizes]

namespace World

variable {world : World} {state after : Tracer} {holder value : Symbolic} {name : String}
  {b v : Value} {serial : Nat}

/-- A query of an array that is answered before it is called. -/
lemma denotes_deferred {numbers : NumArray} {function : Primitive}
    {literal : Literal} {id : Identity}
    (hobjects : world.objects) (hquery : function.isShapeQuery = true)
    (hcall : ∀ serial, function.call serial [.array numbers] = .ok (.ofLiteral literal)) :
    world.Denotes (Symbolic.derived
      (.deferred (Symbolic.derived (.constant literal) [holder])) [holder])
      (.boundPrimitive id (.array numbers) function) :=
  denotes_derived.2 ⟨hobjects, id, numbers, function, literal, rfl, rfl, hquery, hcall⟩

lemma constant_or_misreads {literal : Literal}
    (h : holder.constAttr? name = some (Symbolic.derived (.constant literal) [holder]))
    (hname : name ∈ placementAttrs) :
    world.Denotes (Symbolic.derived (.constant literal) [holder]) v ∨
      holder.Misreads name (Symbolic.derived (.constant literal) [holder]) v := by
  by_cases hsame : v = .ofLiteral literal
  · exact Or.inl (denotes_derived.2 hsame)
  · exact Or.inr ⟨h, hname, literal, rfl, hsame⟩

/-- An array has every attribute that its facts tell, and what they tell of its shape is right. -/
lemma constAttr_meets {relaxed : Prop} {numbers : NumArray} (hobjects : world.objects)
    (h : holder.constAttr? name = some value) (hb : world.Denotes holder (.array numbers))
    (serial : Nat) :
    Meets relaxed (fun v => world.Denotes value v ∨ holder.Misreads name value v)
      ((Value.array numbers).getAttr serial name) := by
  have hfolded := h
  unfold Symbolic.constAttr? at h
  split at h
  · next facts hkind =>
    have hdenotes := hb.kind
    rw [hkind] at hdenotes
    obtain ⟨-, hfits, -⟩ := hdenotes
    obtain ⟨literal, hliteral, rfl⟩ := Option.map_eq_some_iff.1 h
    have hmethod {function : Primitive} (hquery : function.isShapeQuery = true)
        (hcall : ∀ serial, function.call serial [.array numbers] = .ok (.ofLiteral literal)) :
        Meets relaxed (fun v => world.Denotes (Symbolic.derived
            (.deferred (Symbolic.derived (.constant literal) [holder])) [holder]) v ∨
          holder.Misreads name (Symbolic.derived
            (.deferred (Symbolic.derived (.constant literal) [holder])) [holder]) v)
          (.ok (.boundPrimitive (.created serial) (.array numbers) function)) :=
      Or.inl (denotes_deferred hobjects hquery hcall)
    unfold Symbolic.factsAttr? at hliteral
    split at hliteral
    · -- `ndim`
      simp only [Value.getAttr, Value.arrayAttr]
      rw [ofSize_of_rank hfits.rank hliteral]
      exact Or.inl (denotes_derived.2 rfl)
    · -- `dim`
      exact hmethod rfl fun _ => ofSize_of_rank hfits.rank hliteral
    · -- `ndimension`
      exact hmethod rfl fun _ => ofSize_of_rank hfits.rank hliteral
    · exact constant_or_misreads hfolded (by simp [placementAttrs])
    · exact constant_or_misreads hfolded (by simp [placementAttrs])
    · exact constant_or_misreads hfolded (by simp [placementAttrs])
    · -- `shape`
      simp only [Value.getAttr, Value.arrayAttr]
      rw [ofSizes_of_known hfits.shape hliteral]
      exact Or.inl (denotes_derived.2 rfl)
    · -- `size`
      exact hmethod rfl fun _ => ofSizes_of_known hfits.shape hliteral
    · -- `stride`
      exact hmethod rfl fun _ => ofSizes_of_known hfits.strides hliteral
    · cases hliteral
  · cases h

/-! ### Attributes that are read later -/

/-- An attribute that is put off denotes what the run reads, if the run finds the attribute. -/
lemma lazyAttr_meets (hobjects : world.objects) (hb : world.Denotes holder b) (serial : Nat) :
    Meets (TraceM.lazyAttr holder name).IsPutOff (world.Denotes (TraceM.lazyAttr holder name))
      (b.getAttr serial name) := by
  cases hattr : b.getAttr serial name with
  | ok v => exact denotes_derived.2 ⟨hobjects, b, serial, hb, hattr⟩
  | error error => exact Or.inr ⟨holder, name, rfl⟩

/-- An attribute does not depend on the serial number, except that a method is bound anew. -/
lemma getAttr_serial (h : b.getAttr serial name = .ok v) (other : Nat) :
    b.getAttr other name = .ok v ∨
      (v.typeName = .method ∧ ∃ v', b.getAttr other name = .ok v' ∧ v'.typeName = .method) := by
  cases b with
  | layer _ | library _ => exact Or.inl h
  | object owner =>
    simp only [Value.getAttr] at h ⊢
    split at h
    · next hlookup =>
      obtain rfl := Except.ok.inj h
      exact Or.inr ⟨rfl, _, rfl, rfl⟩
    · exact Or.inl h
    · cases h
  | array numbers =>
    simp only [Value.getAttr] at h ⊢
    unfold Value.arrayAttr at h ⊢
    split at h
    case h_6 =>
      split at h
      · next function hfunction =>
        obtain rfl := Except.ok.inj h
        exact Or.inr ⟨rfl, _, rfl, rfl⟩
      · cases h
    all_goals exact Or.inl h
  | _ => cases h

lemma getAttr_of_literalMember {member : Option Value} {literal : Literal}
    (h : Symbolic.literalMember member name = .ok literal) :
    member = some (.ofLiteral literal) := by
  unfold Symbolic.literalMember at h
  split at h
  · cases h
  · split at h
    · next hliteral =>
      obtain rfl := Except.ok.inj h
      rw [Value.eq_ofLiteral_of_literal? hliteral]
    · cases h

/-- A literal among the attributes of an object is no routine. -/
lemma getAttr_object {owner : Instance} {literal : Literal}
    (h : owner.attributes.lookup name = some (.ofLiteral literal)) :
    (Value.object owner).getAttr serial name = .ok (.ofLiteral literal) := by
  simp only [Value.getAttr, h]
  cases literal <;> rfl

/-- The layer or object that a lazy attribute leads to is what the attribute denotes. -/
lemma eq_of_attrTarget? {base target : Value}
    (h : Symbolic.attrTarget? holder.kind name = some target)
    (htarget : target.typeName ≠ .method) (hbase : world.Denotes holder base)
    (hattr : base.getAttr serial name = .ok b) : b = target := by
  have hkind := hbase.kind
  unfold Symbolic.attrTarget? at h
  split at h
  · next heq =>
    rw [heq] at hkind
    obtain ⟨-, rfl⟩ := hkind
    simp only [Value.getAttr, h] at hattr
    exact (Except.ok.inj hattr).symm
  · next held type heq =>
    rw [heq] at hkind
    cases hheld : held.getAttr 0 name with
    | error error => simp [hheld, Except.toOption] at h
    | ok found =>
      obtain rfl : found = target := by simpa [hheld, Except.toOption] using h
      rcases hkind.2 with rfl | ⟨hmethod, -⟩
      · rcases getAttr_serial hheld serial with hsame | ⟨hmethod, -⟩
        · exact Except.ok.inj (hattr.symm.trans hsame)
        · exact absurd hmethod htarget
      · -- methods have no attributes
        cases held with
        | boundPrimitive _ _ _ | boundRoutine _ _ _ => cases hheld
        | _ => cases hmethod
  · cases h

/-- A constant that is found under an attribute is what the run reads. -/
lemma getAttr_of_getConstAttr {literal : Literal} (h : holder.getConstAttr name = .ok literal)
    (hb : world.Denotes holder b) (serial : Nat) :
    b.getAttr serial name = .ok (.ofLiteral literal) := by
  have hlayer {node : Layer} (h : Symbolic.literalMember (node.member? name) name = .ok literal)
      (hb : b = .layer node) : b.getAttr serial name = .ok (.ofLiteral literal) := by
    subst hb
    simp only [Value.getAttr, getAttr_of_literalMember h]
  have hobject {owner : Instance}
      (h : Symbolic.literalMember (owner.attributes.lookup name) name = .ok literal)
      (hb : b = .object owner) : b.getAttr serial name = .ok (.ofLiteral literal) := by
    subst hb
    exact getAttr_object (getAttr_of_literalMember h)
  have hkind := hb.kind
  unfold Symbolic.getConstAttr at h
  split at h
  · next inner step heq =>
    rw [heq] at hkind
    obtain ⟨-, base, made, hbase, hstep⟩ := hkind
    split at h
    · cases h
    · next htarget =>
        exact hlayer h (eq_of_attrTarget? htarget (fun htype => by cases htype) hbase hstep)
    · next htarget =>
        exact hobject h (eq_of_attrTarget? htarget (fun htype => by cases htype) hbase hstep)
    · cases h
  · next heq =>
    rw [heq] at hkind
    exact hlayer h hkind.2
  · next heq =>
    rw [heq] at hkind
    exact hobject h (hkind.2.resolve_right fun hmethod => by cases hmethod.1)
  · cases h

lemma constOrLazyAttr_meets (hobjects : world.objects) (hb : world.Denotes holder b)
    (serial : Nat) :
    Meets (TraceM.constOrLazyAttr holder name).IsPutOff
      (world.Denotes (TraceM.constOrLazyAttr holder name)) (b.getAttr serial name) := by
  unfold TraceM.constOrLazyAttr
  split
  · next hliteral =>
    exact meets_of_eq (denotes_derived.2 rfl) (getAttr_of_getConstAttr hliteral hb serial)
  · exact lazyAttr_meets hobjects hb serial

/-! ### Attributes that are checked -/

lemma denotes_memberKind {key : String} {member : Value} (hobjects : world.objects)
    (harray : ∀ numbers, member ≠ .array numbers) (hb : world.Denotes holder b)
    (hattr : b.getAttr serial name = .ok member) :
    world.DenotesKind (TraceM.memberKind holder key name member) member := by
  have hother {member : Value} (hattr : b.getAttr serial name = .ok member) :
      world.DenotesKind ((member.literal?.map Kind.constant).getD (.attr holder name)) member := by
    cases hliteral : member.literal? with
    | none => exact ⟨hobjects, b, serial, hb, hattr⟩
    | some literal => exact Value.eq_ofLiteral_of_literal? hliteral
  cases member with
  | array numbers => exact absurd rfl (harray numbers)
  | layer _ => exact ⟨hobjects, rfl⟩
  | routine _ => exact ⟨hobjects, rfl⟩
  | primitive _ => exact rfl
  | _ => exact hother hattr

lemma denotes_wrapMember (hobjects : world.objects) (member : Value) :
    world.Denotes (TraceM.wrapMember holder member) member := by
  refine denotes_derived.2 ?_
  split
  · exact rfl
  · exact rfl
  · exact rfl
  · exact rfl
  · exact ⟨hobjects, rfl⟩
  · cases hliteral : member.literal? with
    | none => exact ⟨hobjects, Or.inl rfl⟩
    | some literal => exact Value.eq_ofLiteral_of_literal? hliteral

/-- A method that is wrapped stands for every binding of it. -/
lemma denotes_wrap_method {config : Config} {scope : Scope} {live : Value} {path : String}
    (h : TraceM.wrap config scope live path state = .ok (value, after))
    (hlive : world.Denotes value live) (hmethod : live.typeName = .method)
    (hv : v.typeName = .method) : world.Denotes value v := by
  obtain ⟨hkind, hplaced⟩ := denotes_iff.1 hlive
  refine denotes_iff.2 ⟨?_, hplaced⟩
  cases live with
  | boundPrimitive _ _ _ | boundRoutine _ _ _ =>
    obtain ⟨rfl, rfl⟩ := Prod.mk.inj (TraceM.pure_eq_ok.1 h)
    cases scope <;> exact ⟨hkind.1, Or.inr ⟨rfl, hv⟩⟩
  | _ => cases hmethod

lemma getAttr_layer_meets {config : Config} {key : String} {node : Layer} (hobjects : world.objects)
    (hkind : holder.kind = .layer key node)
    (h : TraceM.layerAttr config holder key node name state = .ok (value, after))
    (hlast : after.Extends world.last) (hb : world.Denotes holder b)
    (hserves : ∀ use, LayerUse.ofAttr? name holder = some use → world.Serves use) (serial : Nat) :
    ∃ v, world.Denotes value v ∧ b.getAttr serial name = .ok v := by
  have hdenotes := hb.kind
  rw [hkind] at hdenotes
  obtain ⟨-, rfl⟩ := hdenotes
  rcases TraceM.layerAttr_eq_ok h with ⟨numbers, id, builder, hmember, hrecord, rfl, rfl⟩ |
    ⟨member, hmember, harray, rfl, rfl⟩
  · have huse : LayerUse.ofAttr? name holder = some ⟨key, node, some (name, numbers)⟩ := by
      simp [LayerUse.ofAttr?, hkind, hmember]
    have hcovers : world.Covers builder := hlast.nodes
    obtain ⟨found, hfound, hoperation, -⟩ := hcovers.exists_node hrecord
    obtain ⟨v, hv, hresolve⟩ := world.solves.parameter hfound hoperation
    obtain rfl := Option.some.inj
      (hresolve.symm.trans ((hserves _ huse).parameter name numbers rfl))
    exact ⟨.array numbers, denotes_derived.2 ⟨hv, ArrayFacts.fits_ofArray numbers _, trivial⟩,
      by simp only [Value.getAttr, hmember]⟩
  · have hattr : (Value.layer node).getAttr serial name = .ok member := by
      simp only [Value.getAttr, hmember]
    exact ⟨member, denotes_derived.2 (denotes_memberKind hobjects harray hb hattr), hattr⟩

/-- An attribute of an object at a place is wrapped where it stands. -/
lemma getAttr_bound_meets {config : Config} {held live : Value} {type : TypeName} {base : String}
    {scope : Scope} (hname : Text.isIdentifier name.toList = true) (hobjects : world.objects)
    (hkind : holder.kind = .unsupported held type)
    (hbase : TraceM.nameAndScope? holder = some (base, scope))
    (hlive : held.getAttr 0 name = .ok live)
    (h : TraceM.wrap config scope live (base ++ "." ++ name) state = .ok (value, after))
    (hlast : after.Extends world.last) (hb : world.Denotes holder b) (serial : Nat) :
    ∃ v, world.Denotes value v ∧ b.getAttr serial name = .ok v := by
  obtain ⟨hdenotes, hplaced⟩ := denotes_iff.1 hb
  rw [hkind] at hdenotes
  have hplace := (Frame.resolve_attr hname (hplaced held type hkind base scope hbase)).2 hlive
  have hvalue := denotes_wrap config scope h hlast hplace (Or.inl hobjects)
  obtain rfl : b = held := by
    refine hdenotes.2.resolve_right fun hmethod => ?_
    cases held with
    | boundPrimitive _ _ _ | boundRoutine _ _ _ => cases hlive
    | _ => cases hmethod.1
  rcases getAttr_serial hlive serial with hsame | ⟨hmethod, v, hv, hvmethod⟩
  · exact ⟨live, hvalue, hsame⟩
  · exact ⟨v, denotes_wrap_method h hvalue hmethod hvmethod, hv⟩

/-- An attribute that a trace reads is the attribute in the run.  The run fails only if the
attribute was put off, or folded for a value that is no array. -/
lemma getAttr_meets {config : Config} (hname : Text.isIdentifier name.toList = true)
    (hobjects : world.objects) (h : TraceM.getAttr config holder name state = .ok (value, after))
    (hlast : after.Extends world.last) (hb : world.Denotes holder b)
    (hserves : ∀ use, LayerUse.ofAttr? name holder = some use → world.Serves use) (serial : Nat) :
    Meets (value.IsPutOff ∨ holder.MistakenForArray name b)
      (fun v => world.Denotes value v ∨ holder.Misreads name value v) (b.getAttr serial name) := by
  have hputOff (hmeets : Meets value.IsPutOff (world.Denotes value) (b.getAttr serial name)) :
      Meets (value.IsPutOff ∨ holder.MistakenForArray name b)
        (fun v => world.Denotes value v ∨ holder.Misreads name value v) (b.getAttr serial name) :=
    hmeets.imp Or.inl fun _ => Or.inl
  unfold TraceM.getAttr at h
  cases hkind : holder.kind with
  | layer key node =>
    simp only [hkind] at h
    obtain ⟨v, hv, hattr⟩ := getAttr_layer_meets hobjects hkind h hlast hb hserves serial
    exact meets_of_eq (Or.inl hv) hattr
  | unsupported held type =>
    simp only [hkind] at h
    cases hbase : TraceM.nameAndScope? holder with
    | some place =>
      obtain ⟨base, scope⟩ := place
      simp only [hbase, TraceM.bind_eq_ok, TraceM.ofRun_eq_ok, TraceM.pure_eq_ok,
        Prod.mk.injEq] at h
      obtain ⟨live, _, ⟨hlive, rfl⟩, wrapped, _, hwrapped, rfl, rfl⟩ := h
      obtain ⟨v, hv, hattr⟩ :=
        getAttr_bound_meets hname hobjects hkind hbase hlive hwrapped hlast hb serial
      exact meets_of_eq (Or.inl (denotes_addGuards.2 hv)) hattr
    | none =>
      simp only [hbase, TraceM.pure_eq_ok, Prod.mk.injEq] at h
      obtain ⟨rfl, rfl⟩ := h
      exact hputOff (constOrLazyAttr_meets hobjects hb serial)
  | array facts =>
    cases hconstant : holder.constAttr? name with
    | none =>
      simp only [hkind, hconstant, Option.getD_none, TraceM.pure_eq_ok, Prod.mk.injEq] at h
      obtain ⟨rfl, rfl⟩ := h
      exact hputOff (lazyAttr_meets hobjects hb serial)
    | some constant =>
      simp only [hkind, hconstant, Option.getD_some, TraceM.pure_eq_ok, Prod.mk.injEq] at h
      obtain ⟨rfl, rfl⟩ := h
      have hdenotes := hb.kind
      rw [hkind] at hdenotes
      obtain ⟨-, -, hdata⟩ := hdenotes
      cases b with
      | array numbers => exact constAttr_meets hobjects hconstant hb serial
      | layer _ | library _ | object _ => exact hdata.elim
      | _ => exact Or.inr ⟨by rw [hconstant]; rfl, by simp⟩
  | attr inner step =>
    simp only [hkind, TraceM.pure_eq_ok, Prod.mk.injEq] at h
    obtain ⟨rfl, rfl⟩ := h
    exact hputOff (constOrLazyAttr_meets hobjects hb serial)
  | scalar facts =>
    simp only [hkind, TraceM.pure_eq_ok, Prod.mk.injEq] at h
    obtain ⟨rfl, rfl⟩ := h
    exact hputOff (lazyAttr_meets hobjects hb serial)
  | library space =>
    simp only [hkind, TraceM.bind_eq_ok, TraceM.ofOption_eq_ok, TraceM.pure_eq_ok,
      Prod.mk.injEq] at h
    obtain ⟨member, _, ⟨hmember, rfl⟩, rfl, rfl⟩ := h
    have hdenotes := hb.kind
    rw [hkind] at hdenotes
    obtain ⟨-, rfl⟩ := hdenotes
    exact meets_of_eq (Or.inl (denotes_wrapMember hobjects member))
      (by simp only [Value.getAttr, hmember])
  | _ =>
    simp only [hkind] at h
    refine hputOff ?_
    cases h
    cases b.getAttr serial name with
    | ok v => exact denotes_derived.2 trivial
    | error error => exact Or.inl ⟨_, rfl⟩

end World

end GuardedTrace
