/-
Rebuilding of symbolic values from the inside out.
-/
import GuardedTrace.Symbolic.Basic

namespace GuardedTrace.Symbolic

variable {m : Type → Type} [Monad m]

mutual

/-- Rebuilds a value with a function applied to every value inside it and then to the value itself:
parts before wholes, items from left to right, entries in the order of their keys. -/
def transform (f : Symbolic → m Symbolic) : Symbolic → m Symbolic
  | ⟨kind, support, guards, localName, globalName⟩ => do
    let kind ← transformKind f kind
    f ⟨kind, support, guards, localName, globalName⟩
termination_by structural value => value

def transformKind (f : Symbolic → m Symbolic) : Kind → m Kind
  | .deferred payload => do
    let payload ← transform f payload
    pure (.deferred payload)
  | .iterator items position => do
    let items ← transformItems f items
    pure (.iterator items position)
  | .attr holder name => do
    let holder ← transform f holder
    pure (.attr holder name)
  | .sequence kind items => do
    let items ← transformItems f items
    pure (.sequence kind items)
  | .dict entries => do
    let entries ← transformEntries f entries
    pure (.dict entries)
  | .method function receiver => do
    let receiver ← transform f receiver
    pure (.method function receiver)
  | kind => pure kind
termination_by structural kind => kind

def transformItems (f : Symbolic → m Symbolic) : List Symbolic → m (List Symbolic)
  | [] => pure []
  | item :: rest => do
    let item ← transform f item
    let rest ← transformItems f rest
    pure (item :: rest)
termination_by structural items => items

def transformEntries (f : Symbolic → m Symbolic) :
    List (Key × Symbolic) → m (List (Key × Symbolic))
  | [] => pure []
  | (key, item) :: rest => do
    let item ← transform f item
    let rest ← transformEntries f rest
    pure ((key, item) :: rest)
termination_by structural entries => entries

end

end GuardedTrace.Symbolic
