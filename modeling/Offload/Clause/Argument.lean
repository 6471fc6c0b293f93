import Offload.Pragma.Token
import Offload.Text.Numeral

/-! Arguments of clauses, read from the text between the parentheses. -/
namespace Offload
namespace Argument

/-- The argument without blanks around it; it must not be empty. -/
def present (clause : ClauseKind) (argument : Option Text) : Except SyntaxFault Text :=
  match argument.map Text.trim with
  | some (c :: cs) => .ok (c :: cs)
  | _ => .error (.missingArgument clause)

def absent (clause : ClauseKind) : Option Text → Except SyntaxFault Unit
  | some argument => .error (.needlessArgument clause argument)
  | none => .ok ()

/-- A numeral below 2^64, or else an expression. -/
def int (t : Text) : IntExpr :=
  let t := Text.trim t
  match t.word64? with
  | some value => .literal value
  | none => .expr t

/-- A numeral from 1 to 2^32 - 1. -/
def count (clause : ClauseKind) (t : Text) : Except SyntaxFault UInt32 :=
  let t := Text.trim t
  match t.word32? with
  | some value => if value = 0 then .error (.notPositive clause t) else .ok value
  | none => .error (.notPositive clause t)

/-- Any expression other than the numeral zero. -/
def positive (clause : ClauseKind) (t : Text) : Except SyntaxFault IntExpr :=
  let e := int t
  if e.literal? = some 0 then .error (.zeroSize clause) else .ok e

def names (clause : ClauseKind) (t : Text) : Except SyntaxFault (List Text) :=
  match argumentItems t with
  | [] => .error (.emptyList clause)
  | vars => .ok vars

/-- Takes the modifier `name:` from the front of an argument. -/
def takeModifier (name t : Text) : Bool × Text :=
  match Text.cutAtDepth? ":" 0 t with
  | some (before, rest) => if Text.trim before = name then (true, Text.trim rest) else (false, t)
  | none => (false, t)

/-- An operator, a colon and the variables. -/
def reduction (t : Text) : Except SyntaxFault Reduction :=
  match Text.cut? ":" t with
  | none => .error .noOperator
  | some (symbol, vars) =>
    match ReductionOp.ofSymbol? (Text.trim symbol) with
    | none => .error (.unknownOperator (Text.trim symbol))
    | some operator =>
      match argumentItems vars with
      | [] => .error (.emptyReduction operator)
      | vars => .ok ⟨operator, vars⟩

def size (clause : ClauseKind) (t : Text) : Except SyntaxFault SizeExpr :=
  if Text.trim t = "*" then .ok .auto else (positive clause t).map .fixed

/-- One item of a `gang` argument, by the name that stands before its colon; a bare value is a
number of gangs. -/
def gangItem (gang : Gang) (item : Text) : Except SyntaxFault Gang :=
  let (name, value) : Text × Text := match item.splitOutside ':' with
    | [value] => ("num", Text.trim value)
    | [name, value] => (Text.trim name, Text.trim value)
    | _ => ([], [])
  if name = "num" then
    if gang.num.isSome then .error (.repeatedGangArgument name)
    else (positive .gang value).map fun n => { gang with num := some n }
  else if name = "static" then
    if gang.static.isSome then .error (.repeatedGangArgument name)
    else (size .gang value).map fun size => { gang with static := some size }
  else .error (.unknownGangArgument item)

def gang (t : Text) : Except SyntaxFault Gang := (argumentItems t).foldlM gangItem {}

end Argument
end Offload
