import Offload.Clause.Argument
import Offload.Clause.Dump
import Offload.Clause.Written
import Offload.Identifier
import Offload.Logged
import Offload.Loop.Nest

/-!
Reading the clauses of a directive. Each clause is read on its own; then the whole set is checked
for clauses that exclude each other and for clauses that the directive needs.
-/
namespace Offload

/-- What the reading of a clause may depend on. -/
structure ClauseContext where
  kind : DirectiveKind
  line : Nat
  region : Option Span
  source : Source
  /-- The directives around, from the nearest outwards. -/
  ancestors : List Directive

namespace ClauseContext

/-- The nearest compute construct around. -/
def constructAbove? (ctx : ClauseContext) : Option Directive :=
  ctx.ancestors.find? (·.kind.isCompute)

def located {α : Type} (ctx : ClauseContext) (x : Except SyntaxFault α) : Except Error α :=
  x.mapError (.malformed ctx.line)

/-- The lines whose loops a clause speaks of. -/
def loopSpan (ctx : ClauseContext) (clause : ClauseKind) : Except SyntaxFault Span :=
  match ctx.region with
  | some span => .ok span
  | none => .error (.noLoopNest clause)

/-- Why a loop may not set a size: sizes belong to loops inside a `kernels` construct that does not
set the size itself with `constructClause`. -/
def sizeFault? (ctx : ClauseContext) (clause constructClause : ClauseKind) (written : Text) :
    Option ClauseFault :=
  match ctx.constructAbove? with
  | none => some (.sizeOutside clause written)
  | some construct =>
    if construct.kind ≠ .kernels then
      some (.sizeInside clause written construct.kind construct.line constructClause)
    else if construct.clauses.contains constructClause then
      some (.sizeTwice clause written constructClause construct.line)
    else none

def checkSize (ctx : ClauseContext) (clause constructClause : ClauseKind) (argument : Text) :
    Except Error Unit :=
  let written := clause.keyword ++ "(" ++ Text.trim argument ++ ")"
  match if ctx.kind = .loop then ctx.sizeFault? clause constructClause written else none with
  | some fault => .error (.clause ctx.line fault)
  | none => .ok ()

/-- Sizes may be given on loops only. -/
def checkSizeAllowed (ctx : ClauseContext) (clause : ClauseKind) (argument : Text) :
    Except Error Unit :=
  if ctx.kind = .loop then .ok ()
  else ctx.located (Argument.absent clause (some argument))

/-- The size of `worker` or `vector`. -/
def size (ctx : ClauseContext) (clause constructClause : ClauseKind) (modifier : Text) :
    Option Text → Except Error (Option UInt32)
  | none => .ok none
  | some argument => do
    ctx.checkSizeAllowed clause argument
    let value ← ctx.located
      (Argument.count clause (Argument.takeModifier modifier argument).2)
    ctx.checkSize clause constructClause argument
    return some value

def gang (ctx : ClauseContext) : Option Text → Except Error Gang
  | none => .ok {}
  | some argument => do
    ctx.checkSizeAllowed .gang argument
    let gang ← ctx.located (Argument.gang argument)
    if gang.num.isSome then ctx.checkSize .gang .numGangs argument
    return gang

def collapse (ctx : ClauseContext) (argument : Option Text) : Except Error Clause := do
  let text ← ctx.located (Argument.present .collapse argument)
  let count ← ctx.located (Argument.count .collapse text)
  let span ← ctx.located (ctx.loopSpan .collapse)
  return .collapse count (← associateLoops ctx.source span count.toNat ctx.line)

def tile (ctx : ClauseContext) (argument : Option Text) : Except Error Clause := do
  let text ← ctx.located (Argument.present .tile argument)
  let sizes ← ctx.located ((argumentItems text).mapM (Argument.size .tile))
  if sizes.isEmpty then .error (.malformed ctx.line .noTileSizes)
  let span ← ctx.located (ctx.loopSpan .tile)
  return .tile sizes (← associateLoops ctx.source span sizes.length ctx.line)

def vars (clause : ClauseKind) (argument : Option Text) : Except SyntaxFault Clause := do
  let text ← Argument.present clause argument
  return .vars { vars := ← Argument.names clause text }

def defaultRule (argument : Option Text) : Except SyntaxFault DefaultRule := do
  let text ← Argument.present .default argument
  if text = "none" then return .none
  else if text = "present" then return .present
  else .error (.unknownDefault text)

def bindName (argument : Option Text) : Except SyntaxFault Text := do
  let text ← Argument.present .bind argument
  let name := Text.stripWhile (fun c => c == '"' || c == '\'') text
  if isIdentifier name then return name else .error (.notFunctionName text)

/-- A condition, where an empty one counts as none. -/
def selfCondition (argument : Option Text) : Clause :=
  match argument.map Text.trim with
  | some (c :: cs) => .condition (c :: cs)
  | _ => .unconditional

/-- The value of a clause of the given kind. -/
def read (ctx : ClauseContext) (clause : ClauseKind) (argument : Option Text) :
    Except Error Clause :=
  match clause with
  | .collapse => ctx.collapse argument
  | .tile => ctx.tile argument
  | .gang => (ctx.gang argument).map .gang
  | .worker => (ctx.size .worker .numWorkers "num" argument).map .worker
  | .vector => (ctx.size .vector .vectorLength "length" argument).map .vector
  | .async => .ok (.async (argument.map Argument.int))
  | .wait =>
    .ok (.wait (match argument with
      | some text => (argumentItems text).map Argument.int
      | none => []))
  | .numGangs | .numWorkers | .vectorLength => ctx.located do
    let text ← Argument.present clause argument
    return .int (← Argument.positive clause text)
  | .defaultAsync | .deviceNum => ctx.located do
    return .int (Argument.int (← Argument.present clause argument))
  | .deviceType => ctx.located do
    let text ← Argument.present clause argument
    return .deviceTypes (← Argument.names clause text)
  | .ifCondition => ctx.located do return .condition (← Argument.present clause argument)
  | .self =>
    if ctx.kind = .update then ctx.located (vars clause argument)
    else .ok (selfCondition argument)
  | .reduction => ctx.located do
    let text ← Argument.present clause argument
    return .reduction [← Argument.reduction text]
  | .default => ctx.located ((defaultRule argument).map .default)
  | .bind => ctx.located ((bindName argument).map .bind)
  | .copyIn => ctx.located do
    let text ← Argument.present clause argument
    let (readonly, text) := Argument.takeModifier "readonly" text
    return .vars ⟨readonly, ← Argument.names clause text⟩
  | .copy | .copyOut | .create | .noCreate | .present | .devicePointer | .attach | .detach
  | .delete | .deviceResident | .link | .useDevice | .host | .device | .privateCopy
  | .firstPrivate => ctx.located (vars clause argument)
  | .seq | .auto | .independent | .read | .write | .update | .capture | .noHost | .ifPresent
  | .finalize => ctx.located do
    Argument.absent clause argument
    return .flag

/-- The kind of a clause that the directive accepts. -/
def resolve (ctx : ClauseContext) (w : WrittenClause) : Except Error ClauseKind :=
  match (ClauseKind.ofKeyword? w.keyword).filter ctx.kind.accepts with
  | some kind => .ok kind
  | none =>
    let name := if w.keyword.isEmpty then w.token else w.keyword
    .error (.clause ctx.line (.unrecognized name ctx.kind))

/-- Reads one clause. -/
def readWritten (ctx : ClauseContext) (w : WrittenClause) : Except Error (ClauseKind × Clause) := do
  let kind ← ctx.resolve w
  return (kind, ← ctx.read kind w.argument)

/-- Adds a clause to those read so far, joining it to one of its kind where that is allowed. -/
def add (ctx : ClauseContext) (set : ClauseSet) (kind : ClauseKind) (clause : Clause) :
    Except Error ClauseSet :=
  match set.get? kind with
  | none => .ok (set.insert kind clause)
  | some earlier =>
    match if kind.isRepeatable then earlier.merge? clause else none with
    | some merged => .ok (set.insert kind merged)
    | none => .error (.clause ctx.line (.duplicate kind ctx.kind))

/-- The first two clauses that exclude each other. -/
def conflict? (kind : DirectiveKind) (set : ClauseSet) : Option ClauseFault :=
  kind.exclusions.findSome? fun (first, excluded) =>
    if set.contains first then
      (excluded.find? set.contains).map fun other => .conflicting other first kind
    else none

/-- A needed clause is absent. -/
def lack? (kind : DirectiveKind) (set : ClauseSet) : Option ClauseFault :=
  match kind.requiredClauses with
  | [] => none
  | required => if required.any set.contains then none else some (.missing kind)

def check (ctx : ClauseContext) (set : ClauseSet) : Except Error ClauseSet :=
  match conflict? ctx.kind set <|> lack? ctx.kind set with
  | some fault => .error (.clause ctx.line fault)
  | none => .ok set

/-- Reads one clause and records it. -/
def readLogged (ctx : ClauseContext) (w : WrittenClause) : Logged Error (ClauseKind × Clause) := do
  let (kind, clause) ← ctx.readWritten w
  .log .trace ("line " ++ Text.decimal ctx.line ++ ": clause `" ++ kind.keyword ++ "` -> " ++
    clause.dump)
  return (kind, clause)

def readAndAdd (ctx : ClauseContext) (set : ClauseSet) (w : WrittenClause) :
    Logged Error ClauseSet := do
  let (kind, clause) ← ctx.readLogged w
  ctx.add set kind clause

/-- Reads all clauses of a directive from its tokens. -/
def readAll (ctx : ClauseContext) (tokens : List Text) : Logged Error ClauseSet := do
  let set ← (WrittenClause.group tokens).foldlM ctx.readAndAdd ∅
  ctx.check set

end ClauseContext
end Offload
