import Offload.Directive.Parser

/-! The whole way from source to generated code. -/
namespace Offload

/-- An error under the headings of what was being done, from the outermost inwards. -/
structure Failure where
  contexts : List Text
  error : Error
deriving DecidableEq

namespace Failure

def chain (f : Failure) : List Text := f.contexts ++ f.error.chain

def within (context : Text) (e : Error) : Failure := ⟨[context], e⟩

end Failure

/-- The tree of directives of a source text. -/
def parse (config : Config) (source : Text) : Logged Failure DirectiveTree :=
  (parseDirectives config (.ofText config.tabWidth source)).mapError
    (.within "failed to parse directives")

/-- The code for a function in its context. -/
def compile (config : Config) (f : FunctionContext) : Logged Failure Text := do
  let tree ← parse config f.source
  let backend := config.backend.create config.gangs
  let target := Target.ofContext f config.tabWidth config.entry
  (backend.emit tree f target).mapError (.within (backend.name ++ " backend failed"))

/-- The code for the first function that a source defines. -/
def compileFunction (config : Config) (source : Text) : Logged Failure Text := do
  let f ← (FunctionContext.ofSource source).mapError
    (Failure.within "failed to read function signature")
  compile config f

end Offload
