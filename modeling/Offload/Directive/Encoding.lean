import Offload.Clause.Encoding
import Offload.Directive.Tree

/-! Directives and outlines as JSON. -/
namespace Offload

namespace Span

def toJson (s : Span) : Json :=
  .object [("start_line", .natural s.start), ("end_line", .natural s.stop)]

def ofJson? (j : Json) : Option Span := do
  match ← j.fields? ["start_line", "end_line"] with
  | [some start, some stop] => return ⟨← start.line?, ← stop.line?⟩
  | _ => none

end Span

namespace DirectiveKind

def ofTag? (tag : Text) : Option DirectiveKind := (.root :: written).find? (·.tag == tag)

end DirectiveKind

namespace DirectiveArgument

def toJson : DirectiveArgument → Json
  | .vars items => .tagged "Vars" (.ofTexts items)
  | .queues items => .tagged "Queues" (.ofTexts items)
  | .name text => .tagged "Name" (.string text)

def ofJson? (j : Json) : Option DirectiveArgument := do
  let (tag, value) ← j.variant?
  let value ← value
  if tag = "Vars" then value.texts?.map .vars
  else if tag = "Queues" then value.texts?.map .queues
  else if tag = "Name" then value.text?.map .name
  else none

end DirectiveArgument

namespace Directive

def members (d : Directive) : List (Text × Json) := [
  ("kind", .string d.kind.tag),
  ("line", .natural d.line),
  ("region", .ofOption Span.toJson d.region),
  ("clauses", d.clauses.toJson),
  ("argument", .ofOption DirectiveArgument.toJson d.argument),
  ("hybrid", .bool d.fused),
  ("delimited", .bool d.delimited)]

def toJson (d : Directive) : Json := .object d.members

def ofJson? (j : Json) : Option Directive := do
  match ← j.fields? ["kind", "line", "region", "clauses", "argument", "hybrid", "delimited"] with
  | [some kind, some line, region, some clauses, argument, some fused, some delimited] =>
    return {
      kind := ← DirectiveKind.ofTag? (← kind.unitTag?)
      line := ← line.line?
      region := ← Json.optional? Span.ofJson? region
      clauses := ← ClauseSet.ofJson? clauses
      argument := ← Json.optional? DirectiveArgument.ofJson? argument
      fused := ← fused.bool?
      delimited := ← delimited.bool? }
  | _ => none

end Directive

namespace Outline

mutual

/-- A directive with its children behind its own members. -/
def toJson : Outline → Json
  | .node directive children =>
    .object (directive.members ++ [("children".toList, Json.array (toJsonAll children))])

def toJsonAll : List Outline → List Json
  | [] => []
  | first :: rest => toJson first :: toJsonAll rest

end

end Outline
end Offload
