import Offload.Error
import Offload.Source

/-!
Functions to compile: their source, the parameters of their signature, and the functions and modules
that are visible around them.
-/
namespace Offload

/-- A module under the name by which it is known. -/
structure ModuleAlias where
  localName : Text
  moduleName : Text
deriving DecidableEq, Repr

def ModuleAlias.importLine (m : ModuleAlias) : Text :=
  if m.localName = m.moduleName then "import " ++ m.moduleName
  else "import " ++ m.moduleName ++ " as " ++ m.localName

namespace Signature

/-- The text before the bracket that closes the one before the text. -/
def beforeClose? (depth : Nat) : Text → Option Text
  | [] => none
  | c :: cs =>
    let after := bracketStep depth c
    if isClosing c && after == 0 then some [] else (beforeClose? after cs).map (c :: ·)

/-- A parameter without its annotation, and with its default behind an equals sign. -/
def parameter (t : Text) : Text :=
  let (head, default) := (Text.cutAtDepth? "=" 0 t).getD (t, [])
  let name := Text.trim (head.takeWhile (· != ':'))
  match Text.trim default with
  | [] => name
  | default => name ++ "=" ++ default

/-- The name and the parameters of a definition. -/
def parse? (t : Text) : Option (Text × List Text) := do
  let t := Text.trimStart t
  let t := (Text.after? "async " t).getD t
  let (name, rest) ← Text.cut? "(" (Text.trimStart (← Text.after? "def " t))
  let inner ← beforeClose? 1 rest
  let parameters := ((inner.splitOutside ',').map parameter).filter fun p => !p.isEmpty
  return (Text.trim name, parameters)

/-- The bare name of a parameter, without stars and default. -/
def bareName (parameter : Text) : Text :=
  (Text.trim (parameter.takeWhile (· != '='))).dropWhile (· == '*')

end Signature

namespace Source

def definesFunction (line : Line) : Bool :=
  let t := Text.trimStart line.text
  line.startsStatement && (Text.startsWith "def " t || Text.startsWith "async def " t)

/-- The line of the first definition. -/
def definition? (s : Source) : Option Nat := s.findFrom? definesFunction 0

end Source

structure FunctionContext where
  source : Text
  name : Text := []
  /-- Parameters with defaults and stars, without annotations. -/
  parameters : List Text := []
  /-- Functions of the function's own module, as source texts. -/
  calleeFunctions : List Text := []
  /-- Functions of the caller's module, as source texts. -/
  callerFunctions : List Text := []
  calleeModules : List ModuleAlias := []
  callerModules : List ModuleAlias := []
deriving DecidableEq, Repr

namespace FunctionContext

/-- The context of the first function that a source defines. -/
def ofSource (source : Text) : Except Error FunctionContext :=
  let s := Source.ofText Source.defaultTabWidth source
  match s.definition? with
  | none => .error (.malformed 0 .noFunction)
  | some line =>
    match Signature.parse? (s.textOf ⟨line, s.logicalEnd line + 1⟩) with
    | none => .error (.malformed line .malformedSignature)
    | some (name, parameters) => .ok { source, name, parameters }

/-- The first line behind the signature; zero if there is none. -/
def bodyStart (f : FunctionContext) : Nat :=
  let s := Source.ofText Source.defaultTabWidth f.source
  match s.definition? with
  | some line => s.logicalEnd line + 1
  | none => 0

def bareParameters (f : FunctionContext) : List Text :=
  (f.parameters.map Signature.bareName).filter fun name => !name.isEmpty && name != "/"

end FunctionContext
end Offload
