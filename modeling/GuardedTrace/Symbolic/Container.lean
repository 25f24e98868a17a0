/-
Containers among symbolic values: items, indexing and iteration.

Whatever is taken out of a container carries the guards of the container.
-/
import GuardedTrace.Symbolic.Constant

namespace GuardedTrace.Symbolic

open Text (showNat)

/-- A layer under a key. -/
def ofLayer (key : String) (node : Layer) : Symbolic := ofKind (.layer key node)

/-- The children of a list-like layer.  A child's key is the key of the list and the position of
the child among the children. -/
def layerItems (value : Symbolic) : Answer (List Symbolic) :=
  match value.kind with
  | .layer key node =>
    if node.isListLike then
      .ok (node.children.mapIdx fun position child =>
        derived (.layer (key ++ "." ++ showNat position) child) [value])
    else .error (.notConstant (.notLayerList node.typeName))
  | _ => .error (.notConstant (.notLayer value.shown))

/-- The child of a list-like layer at a constant index.  Its key is the key of the list and the
position among the members. -/
def layerItem (value : Symbolic) (index : Int64) (key : Symbolic) : Answer Symbolic :=
  match value.kind with
  | .layer path node =>
    match node.length? with
    | none => .error (.notConstant (.notLayerList node.typeName))
    | some size =>
      match position? index size, node.child? index with
      | some position, some child =>
        .ok (derived (.layer (path ++ "." ++ showNat position) child) [value, key])
      | _, _ => .error (.notConstant (.layerIndexRange index))
  | _ => .error (.notConstant (.notLayer value.shown))

/-- The items of a known sequence. -/
def items (value : Symbolic) : Answer (List Symbolic) :=
  match value.kind with
  | .sequence .list items | .sequence .tuple items =>
    .ok (items.map (·.addGuards value.guards))
  | .constant literal =>
    match literal.items? with
    | some items => .ok (items.map fun item => derived (.constant item) [value])
    | none => .error (.notConstant (.notIterable value.shown))
  | .layer .. => value.layerItems
  | _ => .error (.notConstant (.notSequence value.shown))

/-- An item of a list or tuple of known items. -/
def sequenceItem (value : Symbolic) (kind : SequenceKind) (items : List Symbolic)
    (key : Symbolic) (index : Literal) : Answer Symbolic :=
  match index with
  | .slice bounds =>
    match bounds.positions items.length with
    | .ok positions => .ok (derived (.sequence kind (Slice.pick items positions)) [value, key])
    | .error error => .error (.notConstant (.run error))
  | other =>
    match other.toInt? with
    | none => .error (.notConstant (.index other))
    | some index =>
      match (position? index items.length).bind (items[·]?) with
      | some item => .ok (item.inherit (propagate [value, key]))
      | none => .error (.notConstant (.indexRange index))

/-- `value[key]` for a constant key. -/
def getItem (value key : Symbolic) : Answer Symbolic := do
  let index ← key.constant?
  match value.kind with
  | .sequence .list items => value.sequenceItem .list items key index
  | .sequence .tuple items => value.sequenceItem .tuple items key index
  | .dict entries =>
    match index.toKey? with
    | none => .error (.notConstant (.unhashable index))
    | some entry =>
      match entries.lookup entry with
      | some item => .ok (item.inherit (propagate [value, key]))
      | none => .error (.notConstant (.missingKey entry))
  | .constant literal =>
    match literal.getItem index with
    | .ok item => .ok (derived (.constant item) [value, key])
    | .error error => .error (.notConstant (.run error))
  | .layer .. =>
    match index with
    | .int position => value.layerItem position key
    | other => .error (.notConstant (.layerIndex other))
  | _ => .error (.notConstant (.notIndexable value.shown))

/-- An iterator over the items of a known sequence. -/
def iterate (value : Symbolic) : Answer Symbolic :=
  value.items.map fun items => derived (.iterator items 0) [value]

/-- The next item of an iterator and the iterator after it; nothing at the end.  The advanced
iterator is no longer bound to a name. -/
def advance (value : Symbolic) : Answer (Option (Symbolic × Symbolic)) :=
  match value.kind with
  | .iterator items position =>
    match items[position]? with
    | none => .ok none
    | some item =>
      let next : Symbolic :=
        { kind := .iterator items (position + 1)
          support := value.support
          guards := value.guards
          localName := none
          globalName := none }
      .ok (some (item.addGuards value.guards, next))
  | _ => .error (.notConstant (.notIterator value.shown))

/-- The number of items of a known container. -/
def length? (value : Symbolic) : Option Nat :=
  match value.kind with
  | .sequence .list items | .sequence .tuple items => some items.length
  | .dict entries => some entries.length
  | .constant literal => literal.items?.map List.length
  | .layer _ node => node.length?
  | .array facts => facts.shape.bind List.head?
  | _ => none

end GuardedTrace.Symbolic
