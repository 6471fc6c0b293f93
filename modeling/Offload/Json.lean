import Offload.Text.Basic

/-! JSON values. Members of an object keep their order. -/
namespace Offload

inductive Json
  | null
  | bool (b : Bool)
  /-- A number written with digits only. -/
  | natural (n : Nat)
  /-- Any other number, as written. -/
  | number (text : Text)
  | string (text : Text)
  /-- A string without a text, because half of a surrogate pair stands alone in it, or an object
  with such a name. -/
  | broken
  | array (items : List Json)
  | object (members : List (Text × Json))

namespace Json

def ofOption {α : Type} (f : α → Json) : Option α → Json
  | some a => f a
  | none => .null

/-- An object with a single member, which tells the sort of its value. -/
def tagged (tag : Text) (value : Json) : Json := .object [(tag, value)]

def ofTexts (ts : List Text) : Json := .array (ts.map .string)

/-! Reading values of a known sort. -/

def bool? : Json → Option Bool
  | .bool b => some b
  | _ => none

def text? : Json → Option Text
  | .string t => some t
  | _ => none

/-- A natural number below `bound`. -/
def natural? (bound : Nat) : Json → Option Nat
  | .natural n => if n < bound then some n else none
  | _ => none

def list? {α : Type} (f : Json → Option α) : Json → Option (List α)
  | .array items => items.mapM f
  | _ => none

def texts? : Json → Option (List Text) := list? text?

/-- A value that may be null. -/
def nullable? {α : Type} (f : Json → Option α) : Json → Option (Option α)
  | .null => some none
  | value => (f value).map some

/-- A member that may be absent or null. -/
def optional? {α : Type} (f : Json → Option α) : Option Json → Option (Option α)
  | none => some none
  | some value => nullable? f value

/-- The fields of a record: the members of an object by name, where others do not matter, or the
items of an array of the right length. -/
def fields? (names : List Text) : Json → Option (List (Option Json))
  | .object members => some (names.map fun name => members.lookup name)
  | .array items => if items.length = names.length then some (items.map some) else none
  | _ => none

/-- The tag and the value of a tagged value; a bare tag has no value. -/
def variant? : Json → Option (Text × Option Json)
  | .string tag => some (tag, none)
  | .object [(tag, value)] => some (tag, some value)
  | _ => none

/-- A tag without a value, or with null for it. -/
def unitTag? (j : Json) : Option Text :=
  match j.variant? with
  | some (tag, none) => some tag
  | some (tag, some .null) => some tag
  | _ => none

end Json
end Offload
