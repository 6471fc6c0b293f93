import Offload.Clause.Set
import Offload.Json

/-! Clauses as JSON. Values of several sorts are tagged with their sort. -/
namespace Offload

namespace Json

def word32? (j : Json) : Option UInt32 := (j.natural? UInt32.size).map .ofNat

def word64? (j : Json) : Option UInt64 := (j.natural? UInt64.size).map .ofNat

/-- A line number, which is below 2^64. -/
def line? (j : Json) : Option Nat := j.natural? UInt64.size

def ofWord32 (n : UInt32) : Json := .natural n.toNat

end Json

namespace IntExpr

def toJson : IntExpr → Json
  | .literal value => .tagged "Literal" (.natural value.toNat)
  | .expr text => .tagged "Expr" (.string text)

def ofJson? (j : Json) : Option IntExpr := do
  let (tag, value) ← j.variant?
  let value ← value
  if tag = "Literal" then value.word64?.map .literal
  else if tag = "Expr" then value.text?.map .expr
  else none

end IntExpr

namespace SizeExpr

def toJson : SizeExpr → Json
  | .auto => .string "Auto"
  | .fixed size => .tagged "Fixed" size.toJson

def ofJson? (j : Json) : Option SizeExpr :=
  if j.unitTag? = some "Auto".toList then some .auto
  else match j.variant? with
    | some (tag, some value) => if tag = "Fixed" then (IntExpr.ofJson? value).map .fixed else none
    | _ => none

end SizeExpr

namespace VarList

def toJson (v : VarList) : Json :=
  .object [("readonly", .bool v.readonly), ("vars", .ofTexts v.vars)]

def ofJson? (j : Json) : Option VarList := do
  match ← j.fields? ["readonly", "vars"] with
  | [some readonly, some vars] => return ⟨← readonly.bool?, ← vars.texts?⟩
  | _ => none

end VarList

namespace ReductionOp

def ofTag? (tag : Text) : Option ReductionOp := all.find? (·.tag == tag)

end ReductionOp

namespace Reduction

def toJson (r : Reduction) : Json :=
  .object [("operator", .string r.operator.tag), ("variables", .ofTexts r.vars)]

def ofJson? (j : Json) : Option Reduction := do
  match ← j.fields? ["operator", "variables"] with
  | [some operator, some vars] =>
    return ⟨← ReductionOp.ofTag? (← operator.unitTag?), ← vars.texts?⟩
  | _ => none

end Reduction

namespace AssociatedLoop

def toJson (l : AssociatedLoop) : Json :=
  .object [
    ("line", .natural l.line),
    ("source", .string l.source),
    ("variables", .ofTexts l.vars.names),
    ("target", .string l.target),
    ("iterable", .string l.iterable)]

def ofJson? (j : Json) : Option AssociatedLoop := do
  match ← j.fields? ["line", "source", "variables", "target", "iterable"] with
  | [some line, some source, some vars, some target, some iterable] =>
    return {
      line := ← line.line?
      source := ← source.text?
      vars := .ofList (← vars.texts?)
      target := ← target.text?
      iterable := ← iterable.text? }
  | _ => none

end AssociatedLoop

namespace Gang

def toJson (g : Gang) : Json :=
  .object [
    ("num", .ofOption IntExpr.toJson g.num),
    ("static_size", .ofOption SizeExpr.toJson g.static)]

def ofJson? (j : Json) : Option Gang := do
  match ← j.fields? ["num", "static_size"] with
  | [num, size] =>
    return ⟨← Json.optional? IntExpr.ofJson? num, ← Json.optional? SizeExpr.ofJson? size⟩
  | _ => none

end Gang

namespace DefaultRule

def tag : DefaultRule → Text
  | .none => "None"
  | .present => "Present"

def ofTag? (t : Text) : Option DefaultRule := [DefaultRule.none, .present].find? (·.tag == t)

end DefaultRule

namespace Clause

def toJson : Clause → Json
  | .async queue => .tagged "Async" (.ofOption IntExpr.toJson queue)
  | .wait queues => .tagged "Wait" (.array (queues.map IntExpr.toJson))
  | .int value => .tagged "Int" value.toJson
  | .deviceTypes types => .tagged "DeviceTypes" (.ofTexts types)
  | .condition text => .tagged "Condition" (.string text)
  | .unconditional => .string "Unconditional"
  | .reduction reductions => .tagged "Reduction" (.array (reductions.map Reduction.toJson))
  | .vars list => .tagged "Vars" list.toJson
  | .default rule => .tagged "Default" (.string rule.tag)
  | .collapse count loops =>
    .tagged "Collapse" (.object [
      ("loop_count", .ofWord32 count),
      ("associated_loops", .array (loops.map AssociatedLoop.toJson))])
  | .tile sizes loops =>
    .tagged "Tile" (.object [
      ("sizes", .array (sizes.map SizeExpr.toJson)),
      ("associated_loops", .array (loops.map AssociatedLoop.toJson))])
  | .gang g => .tagged "Gang" g.toJson
  | .worker count => .tagged "Worker" (.object [("count", .ofOption .ofWord32 count)])
  | .vector length => .tagged "Vector" (.object [("length", .ofOption .ofWord32 length)])
  | .bind name => .tagged "Bind" (.string name)
  | .flag => .string "Flag"

def collapseOfJson? (j : Json) : Option Clause := do
  match ← j.fields? ["loop_count", "associated_loops"] with
  | [some count, some loops] =>
    return .collapse (← count.word32?) (← Json.list? AssociatedLoop.ofJson? loops)
  | _ => none

def tileOfJson? (j : Json) : Option Clause := do
  match ← j.fields? ["sizes", "associated_loops"] with
  | [some sizes, some loops] =>
    return .tile (← Json.list? SizeExpr.ofJson? sizes) (← Json.list? AssociatedLoop.ofJson? loops)
  | _ => none

/-- A record with a single number, which may be missing. -/
def countOfJson? (name : Text) (j : Json) : Option (Option UInt32) := do
  match ← j.fields? [name] with
  | [count] => Json.optional? Json.word32? count
  | _ => none

/-- A clause by its tag and the value behind it. -/
def ofTagged? (tag : Text) (value : Json) : Option Clause :=
  if tag = "Async" then (Json.nullable? IntExpr.ofJson? value).map .async
  else if tag = "Wait" then (Json.list? IntExpr.ofJson? value).map .wait
  else if tag = "Int" then (IntExpr.ofJson? value).map .int
  else if tag = "DeviceTypes" then value.texts?.map .deviceTypes
  else if tag = "Condition" then value.text?.map .condition
  else if tag = "Reduction" then (Json.list? Reduction.ofJson? value).map .reduction
  else if tag = "Vars" then (VarList.ofJson? value).map .vars
  else if tag = "Default" then (value.unitTag?.bind DefaultRule.ofTag?).map .default
  else if tag = "Collapse" then collapseOfJson? value
  else if tag = "Tile" then tileOfJson? value
  else if tag = "Gang" then (Gang.ofJson? value).map .gang
  else if tag = "Worker" then (countOfJson? "count" value).map .worker
  else if tag = "Vector" then (countOfJson? "length" value).map .vector
  else if tag = "Bind" then value.text?.map .bind
  else none

def ofJson? (j : Json) : Option Clause :=
  if j.unitTag? = some "Unconditional".toList then some .unconditional
  else if j.unitTag? = some "Flag".toList then some .flag
  else match j.variant? with
    | some (tag, some value) => ofTagged? tag value
    | _ => none

end Clause

namespace ClauseKind

def ofTag? (tag : Text) : Option ClauseKind := all.find? (·.tag == tag)

end ClauseKind

namespace ClauseSet

def toJson (s : ClauseSet) : Json :=
  .object [("clauses", .object (s.toList.map fun (kind, clause) => (kind.tag, clause.toJson)))]

def memberOfJson? (member : Text × Json) : Option (ClauseKind × Clause) := do
  return (← ClauseKind.ofTag? member.1, ← Clause.ofJson? member.2)

def ofJson? (j : Json) : Option ClauseSet := do
  match ← j.fields? ["clauses"] with
  | [some (.object members)] => return .ofList (← members.mapM memberOfJson?)
  | _ => none

end ClauseSet
end Offload
