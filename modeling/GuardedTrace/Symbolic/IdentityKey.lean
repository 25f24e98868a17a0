/-
Identity keys: what remains of a symbolic value for the purposes of a graph.

Two values with the same key are interchangeable as operands.  A key forgets guards, support states,
names and array facts, and keeps the nodes, literals and objects.
-/
import GuardedTrace.Symbolic.Basic

namespace GuardedTrace

/-- The identity of a symbolic value. -/
inductive IdentityKey where
  | array (node : Nat)
  | scalar (node : Nat)
  | layer (key : String)
  | constant (literal : Literal)
  | deferred (payload : IdentityKey)
  | builtin (function : Builtin)
  | iterator (items : List IdentityKey) (position : Nat)
  | attr (holder : IdentityKey) (name : String)
  | sequence (kind : SequenceKind) (items : List IdentityKey)
  | dict (entries : List (Key × IdentityKey))
  | routine (id : Identity)
  | method (id : Identity) (receiver : IdentityKey)
  | host (item : HostItem)
  | library (id : Identity)
  /-- Values that a trace cannot look into are the same only as the same object under the same
  name. -/
  | unsupported (type : TypeName) (id : Option Identity) (name : Option String)
  | unknown (token : Identity)

namespace Symbolic

mutual

/-- The identity key of a value. -/
def identityKey : Symbolic → IdentityKey
  | ⟨kind, _, _, localName, globalName⟩ => identityKeyOfKind (localName.or globalName) kind
termination_by structural value => value

def identityKeyOfKind (name : Option String) : Kind → IdentityKey
  | .array facts => .array facts.node
  | .scalar facts => .scalar facts.node
  | .layer key _ => .layer key
  | .constant literal => .constant literal
  | .deferred payload => .deferred (identityKey payload)
  | .builtin function => .builtin function
  | .iterator items position => .iterator (identityKeys items) position
  | .attr holder attr => .attr (identityKey holder) attr
  | .sequence kind items => .sequence kind (identityKeys items)
  | .dict entries => .dict (identityKeyEntries entries)
  | .routine function => .routine function.id
  | .method function receiver => .method function.id (identityKey receiver)
  | .host item => .host item
  | .library space => .library space.id
  | .unsupported value type => .unsupported type value.identity? name
  | .unknown token => .unknown token
termination_by structural kind => kind

def identityKeys : List Symbolic → List IdentityKey
  | [] => []
  | item :: rest => identityKey item :: identityKeys rest
termination_by structural items => items

def identityKeyEntries : List (Key × Symbolic) → List (Key × IdentityKey)
  | [] => []
  | (key, item) :: rest => (key, identityKey item) :: identityKeyEntries rest
termination_by structural entries => entries

end

end Symbolic

namespace IdentityKey

/-- The name of a key's kind, which is that of the values with the key. -/
def label : IdentityKey → String
  | array _ => "NumericArray"
  | scalar _ => "Scalar"
  | layer _ => "StructuredObject"
  | constant _ => "Constant"
  | deferred _ => "DerivedConstant"
  | builtin _ => "Builtin"
  | iterator .. => "ListIterator"
  | attr .. => "GetAttr"
  | sequence .. => "Sequence"
  | dict _ => "ConstDict"
  | routine _ => "UserFunction"
  | method .. => "UserMethod"
  | host _ => "AllowedHost"
  | library _ => "PythonModule"
  | unsupported .. => "Unsupported"
  | unknown _ => "Unknown"

/-- The place of a key's kind in the order. -/
def rank : IdentityKey → Nat
  | array _ => 0
  | scalar _ => 1
  | layer _ => 2
  | constant _ => 3
  | deferred _ => 4
  | builtin _ => 5
  | iterator .. => 6
  | attr .. => 7
  | sequence .. => 8
  | dict _ => 9
  | routine _ => 10
  | method .. => 11
  | host _ => 12
  | library _ => 13
  | unsupported .. => 14
  | unknown _ => 15

/-- The order of optional parts: an absent one first. -/
def cmpOption {α : Type} (cmp : α → α → Ordering) : Option α → Option α → Ordering
  | none, none => .eq
  | none, some _ => .lt
  | some _, none => .gt
  | some a, some b => cmp a b

mutual

/-- The order of identity keys: by kind, then part by part. -/
def cmp : IdentityKey → IdentityKey → Ordering
  | array a, array b => compare a b
  | scalar a, scalar b => compare a b
  | layer a, layer b => compare a b
  | constant a, constant b => a.cmp b
  | deferred a, deferred b => cmp a b
  | builtin a, builtin b => compare a.rank b.rank
  | iterator as i, iterator bs j => (cmpItems as bs).then (compare i j)
  | attr a x, attr b y => (cmp a b).then (compare x y)
  | sequence k as, sequence l bs => (compare k.rank l.rank).then (cmpItems as bs)
  | dict as, dict bs => cmpEntries as bs
  | routine a, routine b => a.cmp b
  | method i a, method j b => (i.cmp j).then (cmp a b)
  | host a, host b => a.cmp b
  | library a, library b => a.cmp b
  | unsupported t i x, unsupported u j y =>
    ((t.cmp u).then (cmpOption Identity.cmp i j)).then (cmpOption compare x y)
  | unknown a, unknown b => a.cmp b
  | a, b => compare a.rank b.rank
termination_by structural a => a

def cmpItems : List IdentityKey → List IdentityKey → Ordering
  | [], [] => .eq
  | [], _ :: _ => .lt
  | _ :: _, [] => .gt
  | a :: as, b :: bs => (cmp a b).then (cmpItems as bs)
termination_by structural as => as

def cmpEntries : List (Key × IdentityKey) → List (Key × IdentityKey) → Ordering
  | [], [] => .eq
  | [], _ :: _ => .lt
  | _ :: _, [] => .gt
  | (k, a) :: as, (l, b) :: bs => ((k.cmp l).then (cmp a b)).then (cmpEntries as bs)
termination_by structural as => as

end

end IdentityKey

end GuardedTrace
