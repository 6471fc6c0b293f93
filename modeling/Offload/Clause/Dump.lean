import Offload.Clause.Value
import Offload.Text.Quoted

/-! Clause values in full, for records of what was read. -/
namespace Offload
namespace Dump

def apply (name argument : Text) : Text := name ++ "(" ++ argument ++ ")"

def option (value : Option Text) : Text :=
  match value with
  | some text => apply "Some" text
  | none => "None"

def list (items : List Text) : Text := "[" ++ Text.join ", " items ++ "]"

def record (name : Text) (fields : List (Text × Text)) : Text :=
  name ++ " \x7b " ++ Text.join ", " (fields.map fun (field, value) => field ++ ": " ++ value) ++
    " \x7d"

def bool (b : Bool) : Text := if b then "true" else "false"

def intExpr : IntExpr → Text
  | .literal value => apply "Literal" (Text.decimal value.toNat)
  | .expr text => apply "Expr" text.quoted

def sizeExpr : SizeExpr → Text
  | .auto => "Auto"
  | .fixed size => apply "Fixed" (intExpr size)

def texts (ts : List Text) : Text := list (ts.map Text.quoted)

def reduction (r : Reduction) : Text :=
  record "ReductionClause" [("operator", r.operator.tag), ("variables", texts r.vars)]

def loop (l : AssociatedLoop) : Text :=
  record "AssociatedLoop" [
    ("line", Text.decimal l.line),
    ("source", l.source.quoted),
    ("variables", "\x7b" ++ Text.join ", " (l.vars.names.map Text.quoted) ++ "\x7d"),
    ("target", l.target.quoted),
    ("iterable", l.iterable.quoted)]

def loops (ls : List AssociatedLoop) : Text := list (ls.map loop)

def word32 (n : UInt32) : Text := Text.decimal n.toNat

end Dump

def Clause.dump : Clause → Text
  | .async queue => Dump.apply "Async" (Dump.option (queue.map Dump.intExpr))
  | .wait queues => Dump.apply "Wait" (Dump.list (queues.map Dump.intExpr))
  | .int value => Dump.apply "Int" (Dump.intExpr value)
  | .deviceTypes types => Dump.apply "DeviceTypes" (Dump.texts types)
  | .condition text => Dump.apply "Condition" text.quoted
  | .unconditional => "Unconditional"
  | .reduction reductions => Dump.apply "Reduction" (Dump.list (reductions.map Dump.reduction))
  | .vars v =>
    Dump.apply "Vars" (Dump.record "VarList" [
      ("readonly", Dump.bool v.readonly), ("vars", Dump.texts v.vars)])
  | .default .none => Dump.apply "Default" "None"
  | .default .present => Dump.apply "Default" "Present"
  | .collapse count loops =>
    Dump.apply "Collapse" (Dump.record "CollapseClause" [
      ("loop_count", Dump.word32 count), ("associated_loops", Dump.loops loops)])
  | .tile sizes loops =>
    Dump.apply "Tile" (Dump.record "TileClause" [
      ("sizes", Dump.list (sizes.map Dump.sizeExpr)),
      ("associated_loops", Dump.loops loops)])
  | .gang g =>
    Dump.apply "Gang" (Dump.record "GangClause" [
      ("num", Dump.option (g.num.map Dump.intExpr)),
      ("static_size", Dump.option (g.static.map Dump.sizeExpr))])
  | .worker count =>
    Dump.apply "Worker" (Dump.record "WorkerClause" [
      ("count", Dump.option (count.map Dump.word32))])
  | .vector length =>
    Dump.apply "Vector" (Dump.record "VectorClause" [
      ("length", Dump.option (length.map Dump.word32))])
  | .bind name => Dump.apply "Bind" name.quoted
  | .flag => "Flag"

end Offload
