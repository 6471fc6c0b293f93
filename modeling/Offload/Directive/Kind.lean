import Offload.Clause.Kind

/-! Kinds of directives: how each finds the lines it governs and which clauses it accepts. -/
namespace Offload

/-- How a directive finds the lines it governs. -/
inductive RegionStrategy
  /-- It stands alone. -/
  | none
  /-- The next statement. -/
  | scope
  /-- The block between markers, if one follows, else the next statement. -/
  | scopeOrBlock
deriving DecidableEq, Repr

inductive DirectiveKind
  /-- The root of a tree, which no annotation writes. -/
  | root
  | parallel
  | kernels
  | serial
  | data
  | hostData
  | loop
  | atomic
  | cache
  | declare
  | routine
  | update
  | wait
  | set
  | init
  | shutdown
  | enterData
  | exitData
deriving DecidableEq, Repr

namespace DirectiveKind

/-- The kinds that an annotation can write. -/
def written : List DirectiveKind := [
    .parallel, .kernels, .serial, .data, .hostData, .loop, .atomic, .cache, .declare, .routine,
    .update, .wait, .set, .init, .shutdown, .enterData, .exitData]

def keyword : DirectiveKind → Text
  | .root => "root"
  | .parallel => "parallel"
  | .kernels => "kernels"
  | .serial => "serial"
  | .data => "data"
  | .hostData => "host_data"
  | .loop => "loop"
  | .atomic => "atomic"
  | .cache => "cache"
  | .declare => "declare"
  | .routine => "routine"
  | .update => "update"
  | .wait => "wait"
  | .set => "set"
  | .init => "init"
  | .shutdown => "shutdown"
  | .enterData => "enter_data"
  | .exitData => "exit_data"

def ofKeyword? (word : Text) : Option DirectiveKind := written.find? (·.keyword == word)

/-- The name in encoded values. -/
def tag : DirectiveKind → Text
  | .root => "Root"
  | .parallel => "Parallel"
  | .kernels => "Kernels"
  | .serial => "Serial"
  | .data => "Data"
  | .hostData => "HostData"
  | .loop => "Loop"
  | .atomic => "Atomic"
  | .cache => "Cache"
  | .declare => "Declare"
  | .routine => "Routine"
  | .update => "Update"
  | .wait => "Wait"
  | .set => "Set"
  | .init => "Init"
  | .shutdown => "Shutdown"
  | .enterData => "EnterData"
  | .exitData => "ExitData"

/-- Compute constructs: they have children, and fuse with `loop` on one annotation. -/
def isCompute : DirectiveKind → Bool
  | .parallel | .kernels | .serial => true
  | _ => false

def holdsChildren (kind : DirectiveKind) : Bool := kind == .root || kind.isCompute

def strategy : DirectiveKind → RegionStrategy
  | .loop | .routine => .scope
  | .parallel | .kernels | .serial | .data | .hostData | .atomic => .scopeOrBlock
  | _ => .none

/-- The clauses of every compute construct. -/
def computeClauses : List ClauseKind := [
    .async, .wait, .deviceType, .ifCondition, .self, .copy, .copyIn, .copyOut, .create,
    .noCreate, .present, .devicePointer, .attach, .default]

def acceptedClauses : DirectiveKind → List ClauseKind
  | .root | .cache => []
  | .parallel => computeClauses ++ [
      .numGangs, .numWorkers, .vectorLength, .reduction, .privateCopy, .firstPrivate]
  | .kernels => computeClauses ++ [.numGangs, .numWorkers, .vectorLength]
  | .serial => computeClauses ++ [.reduction, .privateCopy, .firstPrivate]
  | .data => [
      .ifCondition, .copy, .copyIn, .copyOut, .create, .noCreate, .present, .devicePointer,
      .attach, .default]
  | .hostData => [.useDevice, .ifCondition, .ifPresent]
  | .loop => [
      .collapse, .gang, .worker, .vector, .seq, .auto, .tile, .deviceType, .independent,
      .privateCopy, .reduction]
  | .atomic => [.read, .write, .update, .capture]
  | .declare => [
      .copy, .copyIn, .copyOut, .create, .present, .devicePointer, .deviceResident, .link]
  | .routine => [.gang, .worker, .vector, .seq, .bind, .deviceType, .noHost]
  | .update => [.async, .wait, .deviceType, .ifCondition, .ifPresent, .self, .host, .device]
  | .wait => [.async]
  | .set => [.defaultAsync, .deviceNum, .deviceType]
  | .init | .shutdown => [.deviceType, .deviceNum, .ifCondition]
  | .enterData => [.ifCondition, .async, .wait, .copyIn, .create, .attach]
  | .exitData => [.ifCondition, .async, .wait, .copyOut, .delete, .detach, .finalize]

def accepts (kind : DirectiveKind) (clause : ClauseKind) : Bool :=
  kind.acceptedClauses.contains clause

/-- Each clause with those that may not stand beside it. -/
def exclusions : DirectiveKind → List (ClauseKind × List ClauseKind)
  | .loop => [(.seq, [.gang, .worker, .vector, .auto, .independent]), (.auto, [.independent])]
  | .routine =>
    [(.seq, [.gang, .worker, .vector]), (.gang, [.worker, .vector]), (.worker, [.vector])]
  | .atomic =>
    [(.read, [.write, .update, .capture]), (.write, [.update, .capture]), (.update, [.capture])]
  | _ => []

/-- The clauses of which one must be present; none for kinds that need no clause. -/
def requiredClauses : DirectiveKind → List ClauseKind
  | .update => [.self, .host, .device]
  | .set => [.defaultAsync, .deviceNum, .deviceType]
  | .enterData => [.copyIn, .create, .attach]
  | .exitData => [.copyOut, .delete, .detach]
  | _ => []

/-- Kinds that take an argument of their own. -/
def takesArgument : DirectiveKind → Bool
  | .cache | .wait | .routine => true
  | _ => false

end DirectiveKind
end Offload
