import Offload.Config
import Offload.Json.Reader

/-!
Settings from JSON: an object in which every setting may be missing, or an array of the first few
settings in order. Unknown members do not matter; a setting may not be given twice.
-/
namespace Offload
namespace Config

def word? (j : Json) : Option Nat := j.natural? UInt64.size

/-- The settings by name and in order. -/
def setters : List (Text × (Config → Json → Option Config)) := [
  ("framework", fun c j => do return { c with framework := ← j.text? }),
  ("block_open", fun c j => do return { c with markers.opening := ← j.text? }),
  ("block_close", fun c j => do return { c with markers.closing := ← j.text? }),
  ("tab_width", fun c j => do return { c with tabWidth := ← word? j }),
  ("entry", fun c j => do return { c with entry := ← j.text? }),
  ("default_gangs", fun c j => do return { c with gangs := ← word? j }),
  ("backend", fun c j =>
    if j.unitTag? = some BackendKind.host.name then some { c with backend := .host } else none)]

/-- Sets what the members say, where the settings in `seen` may not come again. -/
def setMembers (c : Config) (seen : List Text) : List (Text × Json) → Option Config
  | [] => some c
  | (name, value) :: rest =>
    match setters.lookup name with
    | none => setMembers c seen rest
    | some setter =>
      if seen.contains name then none
      else do setMembers (← setter c value) (name :: seen) rest

/-- Sets the first settings in order. -/
def setItems (c : Config) :
    List (Text × (Config → Json → Option Config)) → List Json → Option Config
  | _, [] => some c
  | [], _ :: _ => none
  | (_, setter) :: setters, value :: rest => do setItems (← setter c value) setters rest

def ofJson? : Json → Option Config
  | .object members => setMembers {} [] members
  | .array items => setItems {} setters items
  | _ => none

def parse? (t : Text) : Option Config := Json.parse? t >>= ofJson?

end Config
end Offload
