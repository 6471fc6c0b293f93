import Offload.Clause.Kind
import Offload.Text.NameSet

/-!
Values of clauses, and how they are written back: the argument that a clause would have in an
annotation.
-/
namespace Offload

/-- An integer argument: a numeral, or any other expression as it was written. -/
inductive IntExpr
  | literal (value : UInt64)
  | expr (text : Text)
deriving DecidableEq, Repr

def IntExpr.literal? : IntExpr → Option UInt64
  | .literal value => some value
  | .expr _ => none

def IntExpr.render : IntExpr → Text
  | .literal value => Text.decimal value.toNat
  | .expr text => text

/-- A size for tiles or static chunks, where `*` leaves the choice open. -/
inductive SizeExpr
  | auto
  | fixed (size : IntExpr)
deriving DecidableEq, Repr

def SizeExpr.render : SizeExpr → Text
  | .auto => "*"
  | .fixed size => size.render

structure VarList where
  readonly : Bool := false
  vars : List Text := []
deriving DecidableEq, Repr

def VarList.render (v : VarList) : Text :=
  (if v.readonly then "readonly: " else "") ++ Text.join ", " v.vars

inductive ReductionOp
  | add
  | mul
  | max
  | min
  | bitAnd
  | bitOr
  | bitXor
  | and
  | or
deriving DecidableEq, Repr

namespace ReductionOp

def all : List ReductionOp := [.add, .mul, .max, .min, .bitAnd, .bitOr, .bitXor, .and, .or]

def symbol : ReductionOp → Text
  | .add => "+"
  | .mul => "*"
  | .max => "max"
  | .min => "min"
  | .bitAnd => "&"
  | .bitOr => "|"
  | .bitXor => "^"
  | .and => "&&"
  | .or => "||"

def ofSymbol? (t : Text) : Option ReductionOp := all.find? (·.symbol == t)

/-- The name in encoded values. -/
def tag : ReductionOp → Text
  | .add => "Add"
  | .mul => "Mul"
  | .max => "Max"
  | .min => "Min"
  | .bitAnd => "BitAnd"
  | .bitOr => "BitOr"
  | .bitXor => "BitXor"
  | .and => "And"
  | .or => "Or"

end ReductionOp

structure Reduction where
  operator : ReductionOp
  vars : List Text
deriving DecidableEq, Repr

def Reduction.render (r : Reduction) : Text :=
  r.operator.symbol ++ ": " ++ Text.join ", " r.vars

/-- A loop that `collapse` or `tile` speaks of. -/
structure AssociatedLoop where
  /-- The line of the `for`. -/
  line : Nat
  /-- The whole statement, moved to the left margin. -/
  source : Text
  vars : NameSet
  target : Text
  iterable : Text
deriving DecidableEq

structure Gang where
  num : Option IntExpr := none
  static : Option SizeExpr := none
deriving DecidableEq, Repr

def Gang.arguments (g : Gang) : List Text :=
  (g.num.map fun n => "num: ".toList ++ n.render).toList ++
    (g.static.map fun s => "static: ".toList ++ s.render).toList

/-- What holds for variables that no clause names. -/
inductive DefaultRule
  | none
  | present
deriving DecidableEq, Repr

def DefaultRule.render : DefaultRule → Text
  | .none => "none"
  | .present => "present"

inductive Clause
  | async (queue : Option IntExpr)
  | wait (queues : List IntExpr)
  | int (value : IntExpr)
  | deviceTypes (types : List Text)
  | condition (text : Text)
  /-- `self` without a condition. -/
  | unconditional
  | reduction (reductions : List Reduction)
  | vars (list : VarList)
  | default (rule : DefaultRule)
  /-- The loops are given from the outermost inwards. -/
  | collapse (count : UInt32) (loops : List AssociatedLoop)
  | tile (sizes : List SizeExpr) (loops : List AssociatedLoop)
  | gang (g : Gang)
  | worker (count : Option UInt32)
  | vector (length : Option UInt32)
  | bind (name : Text)
  | flag
deriving DecidableEq

namespace Clause

/-- Joins a repeated clause to an earlier one, where the two are lists of the same sort. -/
def merge? : Clause → Clause → Option Clause
  | .vars a, .vars b => some (.vars ⟨a.readonly || b.readonly, a.vars ++ b.vars⟩)
  | .reduction a, .reduction b => some (.reduction (a ++ b))
  | .wait a, .wait b => some (.wait (a ++ b))
  | .deviceTypes a, .deviceTypes b => some (.deviceTypes (a ++ b))
  | _, _ => none

/-- The argument in parentheses, where there is one. -/
def argument? : Clause → Option Text
  | .async queue => queue.map IntExpr.render
  | .wait [] => none
  | .wait queues => some (Text.join ", " (queues.map IntExpr.render))
  | .int value => some value.render
  | .deviceTypes types => some (Text.join ", " types)
  | .condition text => some text
  | .unconditional | .flag => none
  | .reduction reductions => some (Text.join ", " (reductions.map Reduction.render))
  | .vars list => some list.render
  | .default rule => some rule.render
  | .collapse count _ => some (Text.decimal count.toNat)
  | .tile sizes _ => some (Text.join ", " (sizes.map SizeExpr.render))
  | .gang g =>
    match g.arguments with
    | [] => none
    | arguments => some (Text.join ", " arguments)
  | .worker count => count.map fun n => Text.decimal n.toNat
  | .vector length => length.map fun n => Text.decimal n.toNat
  | .bind name => some name

/-- The clause as an annotation writes it. -/
def render (kind : ClauseKind) (clause : Clause) : Text :=
  match clause.argument? with
  | some argument => kind.keyword ++ "(" ++ argument ++ ")"
  | none => kind.keyword

end Clause
end Offload
