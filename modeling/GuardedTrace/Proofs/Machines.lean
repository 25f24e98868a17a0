/-
Machines beside states of a trace.

`Gives` is the rule with which parts of a direct run are put together: a part fails only where it
may and leaves what is right otherwise.  A state of a trace and a machine are *related* when what
the one holds denotes what the other holds, entry by entry of the stack and name by name.
-/
import GuardedTrace.Proofs.Attributes

namespace GuardedTrace

/-! ### Parts of a direct run -/

namespace MachineM

variable {α β : Type} {relaxed : Prop} {x : MachineM α} {f : α → MachineM β} {machine : Machine}

/-- A part of a direct run that fails only where it may, and leaves what is right otherwise. -/
def Gives (relaxed : Prop) (P : α → Machine → Prop) (x : MachineM α) (machine : Machine) : Prop :=
  Meets relaxed (fun result => P result.1 result.2) (x machine)

variable {P : α → Machine → Prop}

lemma gives_pure {value : α} (h : P value machine) : Gives relaxed P (pure value) machine := h

lemma gives_fail {error : RunError} (h : relaxed) : Gives relaxed P (fail error) machine := h

lemma gives_bind {Q : β → Machine → Prop}
    (h : Gives relaxed (fun value after => Gives relaxed Q (f value) after) x machine) :
    Gives relaxed Q (x >>= f) machine := by
  show Meets relaxed _ (Except.bind (x machine) fun result => f result.1 result.2)
  unfold Gives at h
  cases hrun : x machine with
  | ok result =>
    rw [hrun] at h
    exact h
  | error error =>
    rw [hrun] at h
    exact h

lemma gives_ofRun {run : Run α} (h : Meets relaxed (fun value => P value machine) run) :
    Gives relaxed P (ofRun run) machine := by
  cases run with
  | ok value => exact h
  | error error => exact h

lemma gives_ofOption {fault : SystemFault} {option : Option α} {value : α}
    (hoption : option = some value)
    (h : P value machine) : Gives relaxed P (ofOption fault option) machine := by
  subst hoption
  exact h

lemma gives_get {P : Machine → Machine → Prop} (h : P machine machine) :
    Gives relaxed P get machine := h

lemma gives_modify {P : Unit → Machine → Prop} {change : Machine → Machine}
    (h : P () (change machine)) : Gives relaxed P (modify change) machine := h

lemma gives_serial {P : Nat → Machine → Prop}
    (h : P machine.created { machine with created := machine.created + 1 }) :
    Gives relaxed P serial machine := h

lemma gives_push {P : Unit → Machine → Prop} {value : Value}
    (h : P () { machine with stack := .value value :: machine.stack }) :
    Gives relaxed P (push value) machine := h

lemma gives_pushSlot {P : Unit → Machine → Prop} {slot : Slot}
    (h : P () { machine with stack := slot :: machine.stack }) :
    Gives relaxed P (pushSlot slot) machine := h

/-- A result is pushed, and the program goes on. -/
lemma gives_pushing {P : Request → Machine → Prop} {result : MachineM Value}
    (h : Gives relaxed (fun value after =>
      P .next { after with stack := .value value :: after.stack })
      result machine) : Gives relaxed P (pushing result) machine :=
  gives_bind (h.imp id fun _ hafter => gives_bind (gives_push (gives_pure hafter)))

end MachineM

/-! ### Stacks -/

/-- An iterator, which a trace takes where a run takes values only. -/
def Symbolic.isIterator (value : Symbolic) : Bool :=
  match value.kind with
  | .iterator .. => true
  | _ => false

namespace World

variable (world : World)

/-- An entry of the stack of a machine that a symbolic value stands for. -/
def DenotesSlot (value : Symbolic) : Slot → Prop
  | .value v => world.Denotes value v
  | .iterator rest => ∃ items position, value.kind = .iterator items position ∧
    List.Forall₂ world.Denotes (items.drop position) rest

/-- The stack of a machine holds what a list of symbolic values denotes. -/
abbrev Stacked (values : List Symbolic) (slots : List Slot) : Prop :=
  List.Forall₂ world.DenotesSlot values slots

variable {world} {value : Symbolic} {rest args : List Symbolic} {machine : Machine} {relaxed : Prop}

lemma stacked_values {values : List Value} (h : List.Forall₂ world.Denotes args values) :
    world.Stacked args (values.map .value) := by
  rw [Stacked, List.forall₂_map_right_iff]
  exact h

lemma gives_popSlot {P : Slot → Machine → Prop}
    (hstack : world.Stacked (value :: rest) machine.stack)
    (h : ∀ slot slots, world.DenotesSlot value slot → world.Stacked rest slots →
      P slot { machine with stack := slots }) :
    MachineM.Gives relaxed P MachineM.popSlot machine := by
  obtain ⟨slot, slots, hslot, hslots, heq⟩ := List.forall₂_cons_left_iff.1 hstack
  simp only [MachineM.Gives, MachineM.popSlot, heq]
  exact h slot slots hslot hslots

/-- The value on top of the stack is popped; only an iterator is none. -/
lemma gives_popTop {P : Value → Machine → Prop}
    (hstack : world.Stacked (value :: rest) machine.stack)
    (hiterator : value.isIterator = true → relaxed)
    (h : ∀ v slots, machine.stack = .value v :: slots → world.Denotes value v →
      world.Stacked rest slots → P v { machine with stack := slots }) :
    MachineM.Gives relaxed P MachineM.pop machine := by
  obtain ⟨slot, slots, hslot, hslots, heq⟩ := List.forall₂_cons_left_iff.1 hstack
  unfold MachineM.pop
  refine MachineM.gives_bind ?_
  simp only [MachineM.Gives, MachineM.popSlot, heq]
  cases slot with
  | value v => exact h v slots heq hslot hslots
  | iterator items =>
    obtain ⟨all, position, hkind, -⟩ := hslot
    exact hiterator (by simp only [Symbolic.isIterator, hkind])

lemma gives_pop {P : Value → Machine → Prop} (hstack : world.Stacked (value :: rest) machine.stack)
    (hiterator : value.isIterator = true → relaxed)
    (h : ∀ v slots, world.Denotes value v → world.Stacked rest slots →
      P v { machine with stack := slots }) :
    MachineM.Gives relaxed P MachineM.pop machine :=
  gives_popTop hstack hiterator fun v slots _ => h v slots

lemma gives_popOnto {P : List Value → Machine → Prop} {taken : List Symbolic} {values : List Value}
    (hstack : world.Stacked (taken ++ rest) machine.stack)
    (hiterator : ∀ value ∈ taken, value.isIterator = true → relaxed)
    (hvalues : List.Forall₂ world.Denotes args values)
    (h : ∀ (popped : List Value) slots, machine.stack = popped.map .value ++ slots →
      List.Forall₂ world.Denotes (taken.reverse ++ args) (popped.reverse ++ values) →
      world.Stacked rest slots → P (popped.reverse ++ values) { machine with stack := slots }) :
    MachineM.Gives relaxed P (MachineM.popOnto taken.length values) machine := by
  induction taken generalizing machine args values with
  | nil => exact MachineM.gives_pure (h [] machine.stack rfl hvalues hstack)
  | cons value taken ih =>
    refine MachineM.gives_bind (gives_popTop hstack (hiterator value (by simp)) ?_)
    intro v slots htop hv hslots
    refine ih hslots (fun value hvalue => hiterator value (by simp [hvalue])) (.cons hv hvalues) ?_
    intro popped slots' hpopped hfound hslots'
    have hstack' : machine.stack = (v :: popped).map .value ++ slots' :=
      htop.trans (congrArg (Slot.value v :: ·) hpopped)
    simpa using h (v :: popped) slots' hstack' (by simpa using hfound) hslots'

lemma gives_popMany {P : List Value → Machine → Prop} {count : Nat}
    (hstack : world.Stacked (args.reverse ++ rest) machine.stack) (hcount : args.length = count)
    (hiterator : ∀ value ∈ args, value.isIterator = true → relaxed)
    (h : ∀ values slots, machine.stack = values.reverse.map .value ++ slots →
      List.Forall₂ world.Denotes args values → world.Stacked rest slots →
      P values { machine with stack := slots }) :
    MachineM.Gives relaxed P (MachineM.popMany count) machine := by
  have hlength : count = args.reverse.length := by simp [hcount]
  rw [MachineM.popMany, hlength]
  refine gives_popOnto hstack (fun value hvalue => hiterator value (by simpa using hvalue)) .nil ?_
  intro popped slots hpopped hfound hslots
  simpa using h popped.reverse slots (by simpa using hpopped) (by simpa using hfound) hslots

lemma gives_pushAll {P : Unit → Machine → Prop} {values : List Value}
    (h : P () { machine with stack := values.map .value ++ machine.stack }) :
    MachineM.Gives relaxed P (MachineM.pushAll values) machine := by
  induction values generalizing P with
  | nil => exact h
  | cons value rest ih => exact MachineM.gives_bind (ih (MachineM.gives_push h))

/-! ### Related states -/

variable (world) in
/-- What a global name stands for: its value, or the builtin of that name. -/
def DenotesGlobal (name : String) (value : Symbolic) : Prop :=
  (∃ v, world.frame.lookup? .globals name = some v ∧ world.Denotes value v) ∨
    (world.frame.lookup? .globals name = none ∧
      ∃ function, Builtin.ofName? name = some function ∧ world.Denotes value (.builtin function))

variable (world) in
/-- What a state of a trace holds denotes what a machine holds. -/
structure Related (state : Tracer) (machine : Machine) : Prop where
  stack : world.Stacked state.stack machine.stack
  locals : ∀ name value, state.locals.lookup name = some value →
    ∃ v, machine.locals.lookup name = some v ∧ world.Denotes value v
  /-- A variable that the trace has not met is as it was at the start. -/
  unread : ∀ name, state.locals.lookup name = none →
    machine.locals.lookup name = world.frame.lookup? .locals name
  globals : ∀ name value, state.globals.lookup name = some value → world.DenotesGlobal name value

variable {state after : Tracer} {machine' : Machine}

lemma related_start : world.Related {} { locals := world.frame.locals } where
  stack := .nil
  locals := nofun
  unread _ _ := rfl
  globals := nofun

/-- Only the stacks are others. -/
lemma Related.of_stack (h : world.Related state machine) (hlocals : after.locals = state.locals)
    (hglobals : after.globals = state.globals) (hmachine : machine'.locals = machine.locals)
    (hstack : world.Stacked after.stack machine'.stack) : world.Related after machine' where
  stack := hstack
  locals := by
    rw [hlocals, hmachine]
    exact h.locals
  unread := by
    rw [hlocals, hmachine]
    exact h.unread
  globals := by
    rw [hglobals]
    exact h.globals

/-- A value is stored under a name in both. -/
lemma Related.store (h : world.Related state machine) {name : String} {v : Value}
    (hv : world.Denotes value v) {slots : List Slot} (hstack : world.Stacked rest slots) :
    world.Related { state with stack := rest, locals := state.locals.put name value }
      { machine with stack := slots, locals := machine.locals.put name v } where
  stack := hstack
  locals other found hfound := by
    by_cases hother : other = name
    · subst hother
      rw [Table.lookup_put_self] at hfound
      obtain rfl := Option.some.inj hfound
      exact ⟨v, Table.lookup_put_self .., hv⟩
    · rw [Table.lookup_put_of_ne _ _ hother] at hfound
      simpa only [Table.lookup_put_of_ne _ _ hother] using h.locals other found hfound
  unread other hother := by
    by_cases hname : other = name
    · subst hname
      rw [Table.lookup_put_self] at hother
      cases hother
    · rw [Table.lookup_put_of_ne _ _ hname] at hother
      simpa only [Table.lookup_put_of_ne _ _ hname] using h.unread other hother
  globals := h.globals

/-- A variable is met for the first time. -/
lemma Related.read (h : world.Related state machine) {name : String} {v : Value}
    (hnone : state.locals.lookup name = none) (hv : world.frame.lookup? .locals name = some v)
    (hvalue : world.Denotes value v) :
    world.Related { state with locals := state.locals.put name value } machine where
  stack := h.stack
  locals other found hfound := by
    by_cases hother : other = name
    · subst hother
      rw [Table.lookup_put_self] at hfound
      obtain rfl := Option.some.inj hfound
      exact ⟨v, (h.unread other hnone).trans hv, hvalue⟩
    · rw [Table.lookup_put_of_ne _ _ hother] at hfound
      exact h.locals other found hfound
  unread other hother := by
    by_cases hname : other = name
    · subst hname
      rw [Table.lookup_put_self] at hother
      cases hother
    · rw [Table.lookup_put_of_ne _ _ hname] at hother
      exact h.unread other hother
  globals := h.globals

/-- A global name is met for the first time. -/
lemma Related.readGlobal (h : world.Related state machine) {name : String}
    (hvalue : world.DenotesGlobal name value) :
    world.Related { state with globals := state.globals.put name value } machine where
  stack := h.stack
  locals := h.locals
  unread := h.unread
  globals other found hfound := by
    by_cases hother : other = name
    · subst hother
      rw [Table.lookup_put_self] at hfound
      obtain rfl := Option.some.inj hfound
      exact hvalue
    · rw [Table.lookup_put_of_ne _ _ hother] at hfound
      exact h.globals other found hfound

end World

end GuardedTrace
