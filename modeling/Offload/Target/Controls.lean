import Offload.Clause.Set

/-! Control variables: the device and queue meant where a construct leaves them open. -/
namespace Offload

structure Controls where
  deviceType : Text := "host"
  deviceNum : IntExpr := .literal 0
  /-- The queue of an `async` without argument; none is synchronous. -/
  defaultAsync : Option IntExpr := none
deriving DecidableEq, Repr

namespace Controls

/-- The control variables behind a `set` directive; of several device types the first counts. -/
def set (c : Controls) (clauses : ClauseSet) : Controls where
  deviceType :=
    match clauses.get? .deviceType with
    | some (.deviceTypes (first :: _)) => first
    | _ => c.deviceType
  deviceNum := (clauses.int? .deviceNum).getD c.deviceNum
  defaultAsync := clauses.int? .defaultAsync <|> c.defaultAsync

def targetsHost (c : Controls) : Bool := c.deviceType == "host" || c.deviceType == "*"

def render (c : Controls) : Text :=
  let queue : Text := match c.defaultAsync with
    | some queue => queue.render
    | none => "sync"
  "device_type=" ++ c.deviceType ++ " device_num=" ++ c.deviceNum.render ++ " default_async=" ++
    queue

end Controls
end Offload
