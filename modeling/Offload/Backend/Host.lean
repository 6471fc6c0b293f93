import Offload.Backend
import Offload.Backend.Host.Control
import Offload.Backend.Host.Kernel
import Offload.Backend.Host.LoopNest
import Offload.Backend.Host.Lock

/-!
The host backend. Loops of parallel constructs run as kernels on a pool of threads, atomic regions
run under a lock, and what concerns devices has no effect.
-/
namespace Offload.Host

def defaultGangs : Nat := 4

/-- The size of the pool: the number on the loop, else that on its construct, else the default. -/
def gangsFor (fallback : Nat) (d construct : Directive) : Nat :=
  let own := (d.clauses.gang?.bind Gang.num).bind IntExpr.literal?
  let outer := (construct.clauses.int? .numGangs).bind IntExpr.literal?
  max 1 (match own <|> outer with
    | some n => n.toNat
    | none => fallback)

/-- The reductions of a loop, variable by variable. -/
def reductionsOf (d : Directive) : Except Error (List ReductionVar) :=
  (d.clauses.reductions.flatMap fun r => r.vars.map (ReductionVar.mk r.operator)).mapM fun r =>
    if isIdentifier r.name then .ok r else .error (.generation d.line (.reductionTarget r.name))

/-- The atomic regions that are annotated inside a body. -/
def atomicsIn (tree : DirectiveTree) (body : Span) : List Span :=
  (tree.toList.filter fun d => d.kind == .atomic && body.contains d.line).filterMap Directive.region

/-- The names that a kernel can take from the function around its loop. -/
def visibleNames (target : Target) (nest : LoopNest) : NameSet :=
  (bindings (target.source.textOf ⟨target.body.span.start, nest.span.start⟩)).union
    target.parameters

/-- The visible names that a body refers to, other than those the kernel binds itself. -/
def capturedNames (visible : NameSet) (headers : List ForHeader) (reductions : List ReductionVar)
    (body : List Text) : List Text :=
  let targets := headers.flatMap fun header => identifiers header.target
  (referencedNames (Text.unlines body)).names.filter fun name =>
    name ∈ visible && !targets.contains name && !(reductions.map ReductionVar.name).contains name

/-- The kernel of a loop nest. -/
def kernelOf (d : Directive) (target : Target) (nest : LoopNest) (reductions : List ReductionVar)
    (atomics : List Span) : Except Error Kernel := do
  let lines := Text.unindent (lockAtomics target.source atomics nest.body.start nest.body.stop)
  let body ← (functionBody (resultTuple reductions) lines).mapError (.generation d.line)
  let captured := capturedNames (visibleNames target nest) nest.headers reductions body
  return { line := d.line, captured, headers := nest.headers, reductions, body }

def requireLock (target : Target) : Target :=
  (target.addImport "threading").addHelper lockDefinition

/-- Adds a kernel and puts its launch in the place of its loop. -/
def placeKernel (target : Target) (kernel : Kernel) (nest : LoopNest) (gangs : Nat)
    (locked : Bool) : Except Error Target :=
  let margin := Text.margin (target.source.textAt nest.span.start)
  let target := kernel.imports.foldl Target.addImport target
  let target := if locked then requireLock target else target
  (target.addKernel kernel.render).patch nest.span (kernel.launch margin gangs)

/-- The construct on whose behalf a loop runs in parallel. -/
def parallelConstruct? (tree : DirectiveTree) (d : Directive) : Option Directive :=
  ((tree.constructOf? d).map tree.get).filter (·.kind != .serial)

def place (d : Directive) : Text := "line " ++ Text.decimal d.line ++ ": "

def moveLoop (fallback : Nat) (d construct : Directive) (region : Span) (tree : DirectiveTree)
    (target : Target) : Logged Error Target := do
  let gangs := gangsFor fallback d construct
  let nest ← LoopNest.find target.source d region
  let reductions ← reductionsOf d
  let atomics := atomicsIn tree nest.body
  let kernel ← kernelOf d target nest reductions atomics
  let target ← placeKernel target kernel nest gangs !atomics.isEmpty
  .log .info (place d ++ Text.decimal nest.headers.length ++ "-deep loop nest moved into `" ++
    kernel.name ++ "` on " ++ Text.decimal gangs ++ " gangs")
  return target

/-- Loops stay as they are inside moved code, outside parallel constructs and under `seq`. -/
def expandLoop (fallback : Nat) (d : Directive) (tree : DirectiveTree) (target : Target) :
    Logged Error Target :=
  match d.region with
  | none => .ofExcept (.error (.generation d.line (.governsNothing .loop)))
  | some region =>
    if target.body.isPatched region.start then do
      .log .debug (place d ++ "loop runs sequentially inside an enclosing kernel")
      return target
    else match parallelConstruct? tree d with
      | none => do
        .log .debug (place d ++ "loop outside a parallel construct runs sequentially")
        return target
      | some construct =>
        if d.clauses.contains .seq then do
          .log .debug (place d ++ "`seq` loop runs sequentially")
          return target
        else moveLoop fallback d construct region tree target

def expandAtomic (d : Directive) (target : Target) : Logged Error Target :=
  match d.region.filter fun region => !region.isEmpty with
  | none => .ofExcept (.error (.generation d.line (.governsNothing .atomic)))
  | some region =>
    if target.body.isPatched d.line then do
      .log .trace (place d ++ "atomic already locked inside a kernel")
      return target
    else .ofExcept ((requireLock target).patch region (lockedLines target.source region))

def applySet (d : Directive) (target : Target) : Logged Error Target := do
  let controls := target.controls.set d.clauses
  if controls ≠ target.controls then .log .debug (place d ++ controls.render)
  if !controls.targetsHost then
    .log .warn (place d ++ "device type `" ++ controls.deviceType ++ "` runs on the host pool")
  return { target with controls }

def generate (fallback : Nat) : Generator := fun d tree target =>
  match d.kind with
  | .root | .serial => pure target
  | .parallel | .kernels => pure (target.addImport "concurrent.futures")
  | .loop => expandLoop fallback d tree target
  | .atomic => expandAtomic d target
  | .set => applySet d target
  | _ => do
    .log .trace (place d ++ "`" ++ d.kind.keyword ++ "` is a no-op on the host")
    return target

/-- The pool size for loops that give none; zero counts as one. -/
def poolSize (gangs : Nat) : Nat := max gangs 1

def backend (gangs : Nat) : Backend := ⟨"host", generate (poolSize gangs)⟩

end Offload.Host
