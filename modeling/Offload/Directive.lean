import Offload.Clause.Set
import Offload.Directive.Kind
import Offload.Span

/-! Directives: what one annotation says and which lines it governs. -/
namespace Offload

/-- An argument on the directive's own keyword. -/
inductive DirectiveArgument
  | vars (names : List Text)
  | queues (queues : List Text)
  | name (text : Text)
deriving DecidableEq, Repr

def DirectiveArgument.render : DirectiveArgument → Text
  | .vars items | .queues items => "(" ++ Text.join ", " items ++ ")"
  | .name text => "(" ++ text ++ ")"

structure Directive where
  kind : DirectiveKind
  /-- The line of the annotation. -/
  line : Nat
  /-- The governed lines; the annotation itself is not one of them. -/
  region : Option Span := none
  clauses : ClauseSet := ∅
  argument : Option DirectiveArgument := none
  /-- One of the two halves of a compute construct fused with `loop`. -/
  fused : Bool := false
  /-- The region was given by block markers. -/
  delimited : Bool := false
deriving DecidableEq

namespace Directive

/-- The root over the given number of lines. -/
def root (lineCount : Nat) : Directive :=
  { kind := .root, line := 0, region := some ⟨0, lineCount⟩ }

def withClauses (d : Directive) (clauses : ClauseSet) : Directive := { d with clauses }

def isRoot (d : Directive) : Bool := d.kind == .root

def governs (d : Directive) (line : Nat) : Bool :=
  match d.region with
  | some region => region.contains line
  | none => false

def render (d : Directive) : Text :=
  let argument : Text := match d.argument with
    | some argument => argument.render
    | none => []
  let clauses : Text := if d.clauses.isEmpty then [] else " " ++ d.clauses.render
  let region : Text := match d.region with
    | some region => " " ++ region.render
    | none => []
  let fused : Text := if d.fused then " hybrid" else ""
  d.kind.keyword ++ argument ++ clauses ++ " @" ++ Text.decimal d.line ++ region ++ fused

end Directive
end Offload
