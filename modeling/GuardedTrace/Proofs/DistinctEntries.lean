/-
Literals are told apart wherever they are kept.

Literals stand in guards, in the operands of nodes and in identity keys.  Guard sets and identity
keys rely on their order, in which floats are compared as words with some bits turned over; the
nodes of a graph are looked up by equality and hash.  The order is total and only equal literals are
on a par in it, and what a literal writes to a hasher never begins what another one writes.  So a
guard set has each of its guards once, every request for a node is answered with the node that was
asked for, and only equal requests share one.
-/
import GuardedTrace.Literal.Hash
import GuardedTrace.Proofs.GroundedTraces
import GuardedTrace.Proofs.OrderedIdentities

namespace GuardedTrace

open Table (Linear)

/-! ### Floats as words -/

namespace Double

/-- The bits as a word, with those below the sign turned over where the sign is set. -/
def turned (x : Double) : Int64 := (x.bits ^^^ ((x.bits.toInt64 >>> 63).toUInt64 >>> 1)).toInt64

lemma toBitVec_turned (x : Double) :
    x.turned.toBitVec = x.bits.toBitVec ^^^ (x.bits.toBitVec.sshiftRight 63 >>> 1) := by
  simp [turned, Int64.toBitVec_shiftRight, BitVec.sshiftRight']

lemma msb_bits (x : Double) : x.bits.toBitVec.msb = x.isNegative := by
  rw [Bool.eq_iff_iff, isNegative_iff, BitVec.msb_eq_decide, decide_eq_true_iff]
  rfl

/-- Shifting by all places but one leaves copies of the sign. -/
lemma sshiftRight_sign (b : BitVec 64) :
    b.sshiftRight 63 = if b.msb then BitVec.allOnes 64 else 0#64 := by
  have hlt := b.toInt_lt
  have hle := b.le_toInt
  apply BitVec.eq_of_toInt_eq
  rw [BitVec.toInt_sshiftRight, Int.shiftRight_eq_div_pow, BitVec.msb_eq_toInt,
    apply_ite BitVec.toInt]
  by_cases hneg : b.toInt < 0
  · have hones : (BitVec.allOnes 64).toInt = -1 := by decide
    rw [if_pos (by simpa using hneg), hones]
    omega
  · have hzero : (0#64).toInt = 0 := by decide
    rw [if_neg (by simpa using hneg), hzero]
    omega

/-- Under a sign, turning the bits below it over is turning everything over but the sign. -/
lemma xor_below_sign {b : BitVec 64} (h : b.msb = true) :
    b ^^^ (BitVec.allOnes 64 >>> 1) = ~~~ (b &&& (BitVec.allOnes 64 >>> 1)) := by
  rw [BitVec.msb_eq_getLsbD_last] at h
  apply BitVec.eq_of_getLsbD_eq
  intro i hi
  simp only [BitVec.getLsbD_xor, BitVec.getLsbD_not, BitVec.getLsbD_and, BitVec.getLsbD_ushiftRight,
    BitVec.getLsbD_allOnes, hi, decide_true, Bool.true_and]
  by_cases hbelow : 1 + i < 64
  · rw [decide_eq_true hbelow, Bool.xor_true, Bool.and_true]
  · obtain rfl : i = 63 := by omega
    rw [decide_eq_false hbelow, Bool.xor_false, Bool.and_false, Bool.not_false]
    exact h

/-- The place of a double in the total order is the value of its turned bits. -/
lemma toInt_turned (x : Double) : x.turned.toInt = x.rank := by
  have hmask : BitVec.allOnes 64 >>> 1 = magnitudeMask.toBitVec := by decide
  have hmagnitude := toNat_magnitude x
  have hsign := msb_bits x
  rw [← Int64.toInt_toBitVec, toBitVec_turned, sshiftRight_sign, rank, ← hsign]
  cases hneg : x.bits.toBitVec.msb with
  | false =>
    have hbound := mt (isNegative_iff x).2 (by simp [← hsign, hneg])
    have hzero : 0#64 >>> 1 = 0#64 := by decide
    rw [if_neg Bool.false_ne_true, if_neg Bool.false_ne_true, hzero, BitVec.xor_zero,
      BitVec.toInt_eq_toNat_of_msb hneg, UInt64.toNat_toBitVec]
    omega
  | true =>
    rw [if_pos rfl, if_pos rfl, xor_below_sign hneg, hmask, ← UInt64.toBitVec_and,
      ← magnitude, BitVec.toInt_not, UInt64.toNat_toBitVec, Int.bmod_def]
    omega

lemma bits_inj {a b : Double} : a.bits = b.bits ↔ a = b := by
  cases a
  cases b
  rw [mk.injEq]

end Double

/-! ### Writes to a hasher -/

section

variable {s t : List HashWrite}

lemma Slice.hashBound_append {a b : Option Int64} :
    hashBound a ++ s = hashBound b ++ t ↔ a = b ∧ s = t := by
  cases a <;> cases b <;> simp [hashBound]

lemma Slice.hashWrites_append {a b : Slice} :
    a.hashWrites ++ s = b.hashWrites ++ t ↔ a = b ∧ s = t := by
  cases a
  cases b
  simp only [hashWrites, List.append_assoc, hashBound_append, Slice.mk.injEq, and_assoc]

lemma ElementType.hashWrites_append {a b : ElementType} :
    a.hashWrites ++ s = b.hashWrites ++ t ↔ a = b ∧ s = t := by
  simp [hashWrites, ElementType.rank_injective.eq_iff]

lemma Device.hashWrites_append {a b : Device} :
    a.hashWrites ++ s = b.hashWrites ++ t ↔ a = b ∧ s = t := by
  cases a <;> cases b <;> simp [hashWrites]

end

namespace Literal

lemma toUInt8_inj {a b : Bool} : a.toUInt8 = b.toUInt8 ↔ a = b := by cases a <;> cases b <;> decide

lemma rank_lt (a : Literal) : a.rank < UInt8.size := by cases a <;> simp [rank, UInt8.size]

/-- The place of a kind fits into a byte. -/
lemma ofNat_rank_inj {a b : Literal} :
    UInt8.ofNat a.rank = UInt8.ofNat b.rank ↔ a.rank = b.rank := by
  rw [← UInt8.toNat_inj, UInt8.toNat_ofNat_of_lt' a.rank_lt, UInt8.toNat_ofNat_of_lt' b.rank_lt]

mutual

/-- The content of a literal does not begin that of another one of its kind. -/
lemma hashContent_append : ∀ {a b : Literal} {s t : List HashWrite}, a.rank = b.rank →
    (a.hashContent ++ s = b.hashContent ++ t ↔ a = b ∧ s = t)
  | none, b, _, _, hrank => by
    cases b <;> cases hrank
    simp [hashContent]
  | bool x, b, _, _, hrank => by
    cases b <;> cases hrank
    simp [hashContent, toUInt8_inj]
  | int x, b, _, _, hrank => by
    cases b <;> cases hrank
    simp [hashContent]
  | float x, b, _, _, hrank => by
    cases b <;> cases hrank
    simp [hashContent, Double.bits_inj]
  | str x, b, _, _, hrank => by
    cases b <;> cases hrank
    simp [hashContent, ← ByteArray.ext_iff, String.toByteArray_inj]
  | tuple as, b, _, _, hrank => by
    cases b <;> cases hrank
    simp [hashContent, hashItems_append as]
  | list as, b, _, _, hrank => by
    cases b <;> cases hrank
    simp [hashContent, hashItems_append as]
  | slice x, b, _, _, hrank => by
    cases b <;> cases hrank
    simp [hashContent, Slice.hashWrites_append]
  | elementType x, b, _, _, hrank => by
    cases b <;> cases hrank
    simp [hashContent, ElementType.hashWrites_append]
  | device x, b, _, _, hrank => by
    cases b <;> cases hrank
    simp [hashContent, Device.hashWrites_append]
termination_by structural a => a

/-- Behind their number, items do not begin other items. -/
lemma hashItems_append : ∀ (as : List Literal) {bs : List Literal} {s t : List HashWrite},
    as.length = bs.length ∧ hashItems as ++ s = hashItems bs ++ t ↔ as = bs ∧ s = t
  | [], bs, s, t => by cases bs <;> simp [hashItems]
  | a :: as, [], s, t => by simp
  | a :: as, b :: bs, s, t => by
    constructor
    · rintro ⟨hlength, h⟩
      rw [hashItems, hashItems, List.append_assoc, List.append_assoc,
        List.cons_append, List.cons_append,
        List.cons.injEq, HashWrite.byte.injEq, ofNat_rank_inj] at h
      obtain ⟨hrank, hcontent⟩ := h
      obtain ⟨rfl, hrest⟩ := (hashContent_append hrank).1 hcontent
      obtain ⟨rfl, rfl⟩ := (hashItems_append as).1 ⟨Nat.succ.inj hlength, hrest⟩
      exact ⟨rfl, rfl⟩
    · rintro ⟨h, rfl⟩
      rw [h]
      exact ⟨rfl, rfl⟩
termination_by structural as => as

end

/-- Literals that write the same are the same. -/
lemma hashWrites_inj {a b : Literal} : a.hashWrites = b.hashWrites ↔ a = b := by
  refine ⟨fun h => ?_, congrArg hashWrites⟩
  rw [hashWrites, hashWrites, List.cons.injEq, HashWrite.byte.injEq, ofNat_rank_inj] at h
  obtain ⟨hrank, hcontent⟩ := h
  have happend : a.hashContent ++ [] = b.hashContent ++ [] := by rw [hcontent]
  exact ((hashContent_append hrank).1 happend).1

end Literal

/-! ### Sets of guards -/

namespace GuardSet

variable {guards : GuardSet}

lemma InOrder.insert (h : guards.InOrder) (guard : Guard) : (guards.insert guard).InOrder :=
  h.union (List.pairwise_singleton _ _)

/-- Guards that are added to a set one by one keep it in order, and are its members then. -/
lemma InOrder.insertAll (h : guards.InOrder) (added : List Guard) :
    GuardSet.InOrder (added.foldl GuardSet.insert guards) ∧
      ∀ guard, guard ∈ added.foldl GuardSet.insert guards ↔ guard ∈ guards ∨ guard ∈ added := by
  induction added generalizing guards with
  | nil => exact ⟨h, by simp⟩
  | cons first rest ih =>
    obtain ⟨horder, hmem⟩ := ih (h.insert first)
    refine ⟨horder, fun guard => ?_⟩
    rw [List.foldl_cons, hmem, mem_insert, List.mem_cons, or_assoc]

end GuardSet

/-! ### Requests for nodes -/

/-- What a node was recorded for. -/
def Node.request (node : Node) : Operation × List Operand := (node.operation, node.operands)

namespace Builder

variable {builder after last : Builder} {operation : Operation} {operands : List Operand} {id : Nat}
  {requests : List (Operation × List Operand)} {ids : List Nat}

/-- Records nodes for requests one after the other, and lists the numbers that they are answered
with. -/
def recordAll : List (Operation × List Operand) → Builder → List Nat × Builder
  | [], builder => ([], builder)
  | (operation, operands) :: rest, builder =>
    let (id, after) := builder.record operation operands
    let (ids, last) := recordAll rest after
    (id :: ids, last)

/-- No two nodes were recorded for the same request, and a node that is there is found. -/
structure Distinct (builder : Builder) : Prop where
  searchable : builder.Searchable
  nodup : (builder.nodes.toList.map Node.request).Nodup

lemma distinct_start : Distinct {} := ⟨by simp [Searchable], List.nodup_nil⟩

lemma Searchable.record (h : builder.Searchable)
    (hrecord : builder.record operation operands = (id, after)) :
    after.Searchable := by
  unfold Builder.record at hrecord
  split at hrecord
  · cases hrecord
    exact h
  · cases hrecord
    intro hordered position node hnode
    obtain ⟨hbefore, hreads⟩ := Bool.and_eq_true_iff.1 hordered
    change (builder.nodes.push _).toList[position]? = some node at hnode
    rw [Array.toList_push] at hnode
    rcases getElem?_append_one hnode with hnode | ⟨rfl, rfl⟩
    · exact h hbefore position node hnode
    · simpa using hreads

/-- A request is answered with a node that was recorded for it, and the nodes stay different. -/
lemma Distinct.record (h : builder.Distinct)
    (hrecord : builder.record operation operands = (id, after)) :
    after.Distinct ∧ builder.nodes.toList <+: after.nodes.toList ∧
      (after.nodes.toList.map Node.request)[id]? = some (operation, operands) := by
  obtain ⟨node, hnode, rfl, rfl⟩ := exists_of_record hrecord
  have hanswer : (after.nodes.toList.map Node.request)[id]? =
      some (node.operation, node.operands) := by
    rw [List.getElem?_map, hnode]
    rfl
  rcases record_cases hrecord with ⟨rfl, -⟩ | ⟨-, hnodes, -⟩
  · exact ⟨h, List.prefix_refl _, hanswer⟩
  · have hnew := not_mem_of_record h.searchable hrecord hnodes
    refine ⟨⟨h.searchable.record hrecord, ?_⟩, ⟨_, hnodes.symm⟩, hanswer⟩
    rw [hnodes, List.map_append, List.map_singleton, List.nodup_append_comm]
    exact List.nodup_cons.2 ⟨hnew, h.nodup⟩

/-- All requests are answered with nodes that were recorded for them. -/
lemma Distinct.recordAll (h : builder.Distinct)
    (hrecord : recordAll requests builder = (ids, last)) :
    last.Distinct ∧ builder.nodes.toList <+: last.nodes.toList ∧
      ids.map (fun id => (last.nodes.toList.map Node.request)[id]?) = requests.map some := by
  induction requests generalizing builder ids with
  | nil =>
    cases hrecord
    exact ⟨h, List.prefix_refl _, rfl⟩
  | cons request rest ih =>
    obtain ⟨operation, operands⟩ := request
    obtain ⟨id, after, hfirst⟩ : ∃ id after, builder.record operation operands = (id, after) :=
      ⟨_, _, rfl⟩
    obtain ⟨ids', last', hrest⟩ : ∃ ids' last', Builder.recordAll rest after = (ids', last') :=
      ⟨_, _, rfl⟩
    simp only [Builder.recordAll, hfirst, hrest, Prod.mk.injEq] at hrecord
    obtain ⟨rfl, rfl⟩ := hrecord
    obtain ⟨hafter, hprefix, hanswer⟩ := h.record hfirst
    obtain ⟨hlast, hprefix', hanswers⟩ := ih hafter hrest
    refine ⟨hlast, hprefix.trans hprefix', ?_⟩
    -- Nodes that are recorded later stand behind the one that answers.
    obtain ⟨later, hlater⟩ := hprefix'
    have hkept : (last'.nodes.toList.map Node.request)[id]? = some (operation, operands) := by
      rw [← hlater, List.map_append,
        List.getElem?_append_left (List.getElem?_eq_some_iff.1 hanswer).1, hanswer]
    rw [List.map_cons, List.map_cons, hanswers, hkept]

/-- Requests are answered with the nodes that were asked for, and share a node only when they are
the same. -/
structure KeptApart (requests : List (Operation × List Operand))
    (answers : List Nat × Builder) : Prop where
  answered : answers.1.map (fun id => (answers.2.nodes.toList.map Node.request)[id]?) =
    requests.map some
  shared : ∀ i j : Nat, answers.1[i]? = answers.1[j]? ↔ requests[i]? = requests[j]?

lemma keptApart_recordAll (requests : List (Operation × List Operand)) :
    KeptApart requests (recordAll requests {}) := by
  obtain ⟨ids, last, hrecord⟩ : ∃ ids last, recordAll requests {} = (ids, last) := ⟨_, _, rfl⟩
  obtain ⟨⟨-, hnodup⟩, -, hanswers⟩ := distinct_start.recordAll hrecord
  rw [hrecord]
  refine ⟨hanswers, fun i j => ?_⟩
  generalize last.nodes.toList.map Node.request = recorded at hanswers hnodup
  have hpoints (k : Nat) : ids[k]?.map (recorded[·]?) = requests[k]?.map some := by
    rw [← List.getElem?_map, ← List.getElem?_map, hanswers]
  constructor
  · intro heq
    have hsame : requests[i]?.map some = requests[j]?.map some := by
      rw [← hpoints i, ← hpoints j, heq]
    exact Option.map_injective (Option.some_injective _) hsame
  · intro heq
    have hsame : ids[i]?.map (recorded[·]?) = ids[j]?.map (recorded[·]?) := by
      rw [hpoints i, hpoints j, heq]
    have hi := hpoints i
    cases hid : ids[i]? with
    | none =>
      rw [hid, Option.map_none] at hsame
      exact (Option.map_eq_none_iff.1 hsame.symm).symm
    | some m =>
      rw [hid, Option.map_some] at hi hsame
      obtain ⟨n, hid', hmn⟩ := Option.map_eq_some_iff.1 hsame.symm
      obtain ⟨request, -, hrequest⟩ := Option.map_eq_some_iff.1 hi.symm
      -- Both numbers point at the request, and it is recorded only once.
      have hlt := (List.getElem?_eq_some_iff.1 hrequest.symm).1
      rw [hid', (List.getElem?_inj hlt hnodup).1 hmn.symm]

end Builder

/-! ### Literals -/

/-- **Literals are in one line, and are told apart wherever they are kept.**  The comparison of
literals is total, is turned around when its operands are, is transitive, and puts only equal
literals on a par; floats are compared by their turned bits, and the test for equality agrees.
Literals write the same to a hasher exactly when they are on a par.  A set made of guards has each
of them once, requests for nodes share a node exactly when they are the same, and identity keys are
in one line as well. -/
theorem literals_told_apart :
    (∀ a b : Literal, a.cmp b ≠ .gt ∨ b.cmp a ≠ .gt) ∧
    (∀ a b : Literal, (a.cmp b).swap = b.cmp a) ∧
    (∀ a b c : Literal, a.cmp b ≠ .gt → b.cmp c ≠ .gt → a.cmp c ≠ .gt) ∧
    (∀ a b : Literal, (a.cmp b = .eq ↔ a = b) ∧ (a.same b ↔ a.cmp b = .eq)) ∧
    (∀ x y : Double, (Literal.float x).cmp (.float y) = compare x.turned.toInt y.turned.toInt) ∧
    (∀ a b : Literal, a.hashWrites = b.hashWrites ↔ a.cmp b = .eq) ∧
    (∀ guards : List Guard, (GuardSet.ofList guards).InOrder ∧
      ∀ guard, guard ∈ GuardSet.ofList guards ↔ guard ∈ guards) ∧
    (∀ requests, Builder.KeptApart requests (Builder.recordAll requests {})) ∧
    Linear IdentityKey.cmp := by
  have hliterals := Literal.linear_cmp
  refine ⟨hliterals.total, hliterals.swap, fun _ _ _ => hliterals.not_gt_trans,
    fun a b => ?_, fun x y => ?_,
    fun a b => ?_, fun guards => ?_, Builder.keptApart_recordAll, IdentityKey.linear_cmp⟩
  · exact ⟨hliterals.eq_iff, (Literal.same_iff a b).trans hliterals.eq_iff.symm⟩
  · rw [Double.toInt_turned, Double.toInt_turned]
    rfl
  · rw [Literal.hashWrites_inj, hliterals.eq_iff]
  · have hempty : GuardSet.InOrder [] := List.Pairwise.nil
    obtain ⟨horder, hmem⟩ := hempty.insertAll guards
    refine ⟨horder, fun guard => ?_⟩
    rw [GuardSet.ofList, hmem, or_iff_right List.not_mem_nil]

/-- The two zeros are two literals: the negative one comes first, and a sum with it is a node of its
own. -/
example :
    let sum (x : Double) : Operation × List Operand :=
  (.callPrimitive .add, [.literal (.tuple [.float x])])
    (Literal.tuple [.float .negZero]).cmp (.tuple [.float .zero]) = .lt ∧
      (Builder.recordAll [sum .negZero, sum .zero, sum .negZero] {}).1 = [0, 1, 0] := by
        decide +kernel

end GuardedTrace
