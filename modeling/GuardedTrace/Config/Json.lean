/-
Settings as a JSON text.

An object names the settings, in any order and each at most once; names that are no setting are
passed over.  An array lists them in the order of their declaration.  A setting that is left out
keeps its default.
-/
import GuardedTrace.Config
import GuardedTrace.Number.Word
import GuardedTrace.Text.Json

namespace GuardedTrace

/-- A switch. -/
def Json.switch? : Json → Option Bool
  | .bool value => some value
  | _ => none

/-- A count that a machine word holds. -/
def Json.count? : Json → Option Nat
  | .natural value => if value ≤ maxSize then some value else none
  | _ => none

namespace Config

/-- A setting. -/
inductive Field where
  | dynamicShapes
  | minimumCallCount
  | cacheSizeCeiling
  | specializeScalars
deriving DecidableEq

namespace Field

/-- The settings, in their order. -/
def all : List Field := [dynamicShapes, minimumCallCount, cacheSizeCeiling, specializeScalars]

def name : Field → String
  | dynamicShapes => "dynamic_shapes"
  | minimumCallCount => "minimum_call_count"
  | cacheSizeCeiling => "cache_size_ceiling"
  | specializeScalars => "specialize_scalars"

def ofName? (text : String) : Option Field := all.find? fun field => field.name == text

end Field

/-- Gives a setting the value that is stored for it; nothing when the value has the wrong kind. -/
def set? (config : Config) (value : Json) : Field → Option Config
  | .dynamicShapes => value.switch?.map fun b => { config with dynamicShapes := b }
  | .minimumCallCount => value.count?.map fun n => { config with minimumCallCount := n }
  | .cacheSizeCeiling => value.count?.map fun n => { config with cacheSizeCeiling := n }
  | .specializeScalars => value.switch?.map fun b => { config with specializeScalars := b }

/-- Takes settings from named entries, given those that were named before. -/
def setNamed (config : Config) (named : List Field) :
    List (Option String × Json) → Option Config
  | [] => some config
  | (none, _) :: _ => none
  | (some name, value) :: rest =>
    match Field.ofName? name with
    | none => setNamed config named rest
    | some field =>
      if field ∈ named then none
      else (config.set? value field).bind fun config => setNamed config (field :: named) rest

/-- Takes settings from a list, given those that are still to come. -/
def setListed (config : Config) : List Field → List Json → Option Config
  | _, [] => some config
  | [], _ :: _ => none
  | field :: fields, value :: rest =>
    (config.set? value field).bind fun config => setListed config fields rest

/-- The settings that a JSON value stands for. -/
def ofJson? : Json → Option Config
  | .object entries => setNamed {} [] entries
  | .array items => setListed {} Field.all items
  | _ => none

def shownSwitch (value : Bool) : String := if value then "true" else "false"

/-- The settings as a text. -/
def json (config : Config) : String :=
  let shown : Field → String
    | .dynamicShapes => shownSwitch config.dynamicShapes
    | .minimumCallCount => Text.showNat config.minimumCallCount
    | .cacheSizeCeiling => Text.showNat config.cacheSizeCeiling
    | .specializeScalars => shownSwitch config.specializeScalars
  "\x7b" ++ Text.joinWith ","
    (Field.all.map fun field => "\"" ++ field.name ++ "\":" ++ shown field)
    ++ "\x7d"

/-- The settings of a text. -/
def read (text : String) : Option Config := (Json.read text).bind ofJson?

end Config

end GuardedTrace
