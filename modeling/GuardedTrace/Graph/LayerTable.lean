/-
The layers that a graph calls or reads parameters from, under the paths that lead to them.
-/
import GuardedTrace.Table
import GuardedTrace.Value.Basic

namespace GuardedTrace

/-- Layers by key, such as `m.layers.2`, in the order of their registration. -/
abbrev LayerTable : Type := Table String Layer

namespace LayerTable

/-- Registers a layer under a key; a key that is taken keeps its layer. -/
def register (layers : LayerTable) (key : String) (layer : Layer) : LayerTable :=
  layers.putIfNew key layer

/-- Registers a layer under the key of another one and a name. -/
def registerUnder (layers : LayerTable) (base name : String) (layer : Layer) : LayerTable :=
  layers.register (base ++ "." ++ name) layer

/-- Splits a text at its last point. -/
def splitLast (target : String) : Option (String × String) :=
  let reversed := target.toList.reverse
  match reversed.dropWhile (· != '.') with
  | [] => none
  | _ :: key =>
    some (String.ofList key.reverse, String.ofList (reversed.takeWhile (· != '.')).reverse)

/-- The member that a parameter's target `<key>.<member>` denotes. -/
def resolve? (layers : LayerTable) (target : String) : Option Value := do
  let (key, member) ← splitLast target
  let layer ← layers.lookup key
  layer.member? member

end LayerTable

end GuardedTrace
