import Offload.Function
import Offload.Target.Body
import Offload.Target.Controls
import Offload.Text.Writer

/-!
Compilation targets: the module that is being generated for a function. It starts with imports, then
come helpers, functions of the context and kernels, and last the entry function.
-/
namespace Offload

/-- Appends an item that is not yet there. -/
def pushNew (items : List Text) (item : Text) : List Text :=
  if items.contains item then items else items ++ [item]

structure Target where
  source : Source
  entry : Text
  /-- Bare parameter names of the function. -/
  parameters : List Text
  imports : List Text := []
  helpers : List Text := []
  kernels : List Text := []
  body : PatchedBody
  controls : Controls := {}

namespace Target

def defaultEntry : Text := "execute"

def ofContext (f : FunctionContext) (tabWidth : Nat) (entry : Text) : Target :=
  let source := Source.ofText tabWidth f.source
  { source
    entry
    parameters := f.bareParameters
    body := { span := ⟨min f.bodyStart source.size, source.size⟩ } }

def addImport (t : Target) (moduleName : Text) : Target :=
  { t with imports := pushNew t.imports moduleName }

def addHelper (t : Target) (helper : Text) : Target :=
  { t with helpers := pushNew t.helpers helper }

def addKernel (t : Target) (kernel : Text) : Target := { t with kernels := t.kernels ++ [kernel] }

def patch (t : Target) (span : Span) (lines : List Text) : Except Error Target := do
  return { t with body := ← t.body.patch span lines }

/-- Neither a blank line nor a comment runs anything. -/
def isIdle (line : Text) : Bool :=
  match Text.trimStart line with
  | [] => true
  | c :: _ => c == '#'

/-- Import statements of the context's modules, each once. -/
def aliasImports (f : FunctionContext) : List Text :=
  ((f.calleeModules ++ f.callerModules).map ModuleAlias.importLine).foldl pushNew []

/-- What stands between the imports and the entry function. -/
def sections (t : Target) (f : FunctionContext) : List Text :=
  t.helpers ++ f.calleeFunctions ++ f.callerFunctions ++ t.kernels

def writeEntry (t : Target) (f : FunctionContext) (w : Writer) : Writer :=
  let body := Text.unindent (t.body.render t.source)
  w.block ("def " ++ t.entry ++ "(" ++ Text.join ", " f.parameters ++ ")") fun w =>
    let w := w.writeBlock (Text.unlines body)
    if body.all isIdle then w.writeLine "pass" else w

/-- The text of the module. Empty lines stand between its parts. -/
def finalize (t : Target) (f : FunctionContext) : Text :=
  let imports := t.imports.map ("import ".toList ++ ·) ++ aliasImports f
  let w : Writer := imports.foldl Writer.writeLine {}
  let (w, separate) := (t.sections f).foldl (fun (w, separate) part =>
    let w := if separate then w.newLine else w
    (w.writeBlock (Text.unindentText part), true)) (w, !imports.isEmpty)
  let w := if separate then w.newLine else w
  (t.writeEntry f w).output

end Target
end Offload
