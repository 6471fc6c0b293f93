import Offload.Directive.Tree
import Offload.Logged
import Offload.Target
import Offload.Text.Quoted

/-!
Backends: generators of code for directives. A tree is generated level by level, so that a construct
comes before all that is nested in it.
-/
namespace Offload

abbrev Generator := Directive → DirectiveTree → Target → Logged Error Target

structure Backend where
  name : Text
  generate : Generator

namespace Backend

/-- Generates one node. -/
def visit (b : Backend) (tree : DirectiveTree) (target : Target) (id : Nat) :
    Logged Error Target := do
  let d := tree.get id
  .log .debug (b.name ++ ": generating #" ++ Text.decimal id ++ " for " ++ d.render)
  b.generate d tree target

/-- Generates all nodes of a tree. -/
def dispatch (b : Backend) (tree : DirectiveTree) (target : Target) : Logged Error Target :=
  tree.breadthFirst.foldlM (b.visit tree) target

/-- The module that a backend makes for a function. -/
def emit (b : Backend) (tree : DirectiveTree) (f : FunctionContext) (target : Target) :
    Logged Error Text := do
  return (← b.dispatch tree target).finalize f

end Backend

/-- A backend put together from generators for single kinds of directives. -/
structure Registry where
  name : Text
  generators : List (DirectiveKind × Generator) := []

namespace Registry

/-- Registers a generator in place of any earlier one. -/
def register (r : Registry) (kind : DirectiveKind) (generator : Generator) : Registry :=
  { r with generators := r.generators.filter (·.1 != kind) ++ [(kind, generator)] }

def generator? (r : Registry) (kind : DirectiveKind) : Option Generator :=
  (r.generators.find? (·.1 == kind)).map (·.2)

def handles (r : Registry) (kind : DirectiveKind) : Bool := (r.generator? kind).isSome

def generate (r : Registry) : Generator := fun d tree target =>
  match r.generator? d.kind with
  | some generator => generator d tree target
  | none => .ofExcept (.error (.notImplemented d.line r.name d.kind))

def toBackend (r : Registry) : Backend := ⟨r.name, r.generate⟩

/-- The directives that are generated before the first one without a generator. -/
def handled (r : Registry) (tree : DirectiveTree) : List Directive :=
  (tree.breadthFirst.map tree.get).takeWhile fun d => r.handles d.kind

/-- The name and the kinds in alphabetical order. -/
def render (r : Registry) : Text :=
  let kinds := NameSet.ofList (r.generators.map (·.1.keyword))
  "Registry \x7b name: " ++ r.name.quoted ++ ", kinds: [" ++
    Text.join ", " (kinds.names.map Text.quoted) ++ "] \x7d"

end Registry
end Offload
