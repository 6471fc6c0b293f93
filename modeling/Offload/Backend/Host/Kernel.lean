import Offload.Identifier.Occurrence
import Offload.Loop.Header
import Offload.Text.Writer
import Offload.Clause.Value

/-!
Kernels: functions that run one iteration of a loop nest. A kernel takes the captured variables and
the element of the iteration space, and returns the values of its reductions.
-/
namespace Offload

namespace ReductionOp

/-- The value that leaves every other value as it is. -/
def identity : ReductionOp → Text
  | .add | .bitOr | .bitXor => "0"
  | .mul => "1"
  | .max => "float(\"-inf\")"
  | .min => "float(\"inf\")"
  | .bitAnd => "~0"
  | .and => "True"
  | .or => "False"

/-- The function that joins two values. -/
def fold : ReductionOp → Text
  | .add => "operator.add"
  | .mul => "operator.mul"
  | .max => "max"
  | .min => "min"
  | .bitAnd => "operator.and_"
  | .bitOr => "operator.or_"
  | .bitXor => "operator.xor"
  | .and => "lambda x, y: x and y"
  | .or => "lambda x, y: x or y"

end ReductionOp

namespace Host

def indexName : Text := "_acc_index"

def poolName : Text := "_acc_pool"

/-- A variable with the operator by which its values are joined. -/
structure ReductionVar where
  operator : ReductionOp
  name : Text
deriving DecidableEq, Repr

/-- What follows `return` in a kernel: nothing, a variable, or a tuple. -/
def resultTuple : List ReductionVar → Text
  | [] => []
  | [r] => " " ++ r.name
  | rs => " (" ++ Text.join ", " (rs.map ReductionVar.name) ++ ")"

/-- The pattern that takes an element of the iteration space apart. -/
def targetPattern : List ForHeader → Text
  | [header] => header.target
  | headers =>
    Text.join ", " (headers.map fun header =>
      let target := Text.trim header.target
      if target.contains ',' && target.head? != some '(' then "(" ++ target ++ ")" else target)

/-- An iterable refers to the target of a loop around it. -/
def isDependent : List ForHeader → Bool
  | [] => false
  | outer :: inner =>
    (inner.any fun header =>
      (identifiers outer.target).any fun name => name ∈ referencedNames header.iterable) ||
    isDependent inner

/-- The elements over which a nest runs. -/
inductive IterationSpace
  | single (iterable : Text)
  /-- The product of independent iterables. -/
  | product (iterables : List Text)
  /-- A generator expression, when inner loops depend on outer ones. -/
  | generator (pattern : Text) (headers : List ForHeader)

namespace IterationSpace

def ofHeaders : List ForHeader → IterationSpace
  | [header] => .single header.iterable
  | headers =>
    if isDependent headers then .generator (targetPattern headers) headers
    else .product (headers.map ForHeader.iterable)

def isProduct : IterationSpace → Bool
  | .product _ => true
  | _ => false

def render : IterationSpace → Text
  | .single iterable => iterable
  | .product iterables => "itertools.product(" ++ Text.join ", " iterables ++ ")"
  | .generator pattern headers =>
    "((" ++ pattern ++ ") " ++
      Text.join " " (headers.map fun h => "for ".toList ++ h.target ++ " in " ++ h.iterable) ++ ")"

end IterationSpace

structure Kernel where
  /-- The line of the directive, which names the kernel. -/
  line : Nat
  /-- Variables of the function that the body needs. -/
  captured : List Text
  headers : List ForHeader
  reductions : List ReductionVar
  body : List Text
deriving DecidableEq, Repr

namespace Kernel

def name (k : Kernel) : Text := "_acc_kernel_" ++ Text.decimal k.line

def resultsName (k : Kernel) : Text := "_acc_results_" ++ Text.decimal k.line

def render (k : Kernel) : Text :=
  let parameters := Text.join ", " (k.captured ++ [indexName])
  let w : Writer := {}
  Writer.output <| w.block ("def " ++ k.name ++ "(" ++ parameters ++ ")") fun w =>
    let w := w.writeLine (targetPattern k.headers ++ " = " ++ indexName)
    let w := k.reductions.foldl (fun w r => w.writeLine (r.name ++ " = " ++ r.operator.identity)) w
    let w := w.writeBlock (Text.unlines k.body)
    match resultTuple k.reductions with
    | [] => w
    | returned => w.writeLine ("return" ++ returned)

/-- The kernel with its captured variables supplied. -/
def callable (k : Kernel) : Text :=
  match k.captured with
  | [] => k.name
  | captured => "functools.partial(" ++ k.name ++ ", " ++ Text.join ", " captured ++ ")"

/-- The statement that folds the results of one reduction into its variable. -/
def foldStatement (k : Kernel) (position : Nat) (r : ReductionVar) : Text :=
  let values : Text :=
    if k.reductions.length = 1 then k.resultsName
    else "(r[" ++ Text.decimal position ++ "] for r in " ++ k.resultsName ++ ")"
  r.name ++ " = functools.reduce(" ++ r.operator.fold ++ ", " ++ values ++ ", " ++ r.name ++ ")"

/-- The lines that stand for the loop: they run the kernel on a pool. -/
def launch (k : Kernel) (margin : Text) (gangs : Nat) : List Text :=
  let space := (IterationSpace.ofHeaders k.headers).render
  let map := poolName ++ ".map(" ++ k.callable ++ ", " ++ space ++ ")"
  let pool := margin ++ "with concurrent.futures.ThreadPoolExecutor(max_workers=" ++
    Text.decimal gangs ++ ") as " ++ poolName ++ ":"
  if k.reductions.isEmpty then [pool, margin ++ "    list(" ++ map ++ ")"]
  else
    [pool, margin ++ "    " ++ k.resultsName ++ " = list(" ++ map ++ ")"] ++
      k.reductions.zipIdx.map fun (r, position) => margin ++ k.foldStatement position r

/-- The modules that a launch needs. -/
def imports (k : Kernel) : List Text :=
  ["concurrent.futures".toList] ++
    (if k.captured.isEmpty && k.reductions.isEmpty then [] else ["functools".toList]) ++
    (if (IterationSpace.ofHeaders k.headers).isProduct then ["itertools".toList] else []) ++
    (if k.reductions.any fun r => Text.startsWith "operator." r.operator.fold then
      ["operator".toList] else [])

end Kernel
end Host
end Offload
