import Offload.Text.Basic

/-! Kinds of clauses, across all directives. -/
namespace Offload

inductive ClauseKind
  | async
  | wait
  | numGangs
  | numWorkers
  | vectorLength
  | deviceType
  | ifCondition
  /-- A condition on compute constructs, a variable list on `update`. -/
  | self
  | reduction
  | copy
  | copyIn
  | copyOut
  | create
  | noCreate
  | present
  | devicePointer
  | attach
  | detach
  | delete
  | deviceResident
  | link
  | useDevice
  | host
  | device
  | privateCopy
  | firstPrivate
  | default
  | collapse
  | gang
  | worker
  | vector
  | seq
  | auto
  | tile
  | independent
  | read
  | write
  /-- The form of an atomic, not the directive. -/
  | update
  | capture
  | bind
  | noHost
  | ifPresent
  | finalize
  | defaultAsync
  | deviceNum
deriving DecidableEq, Repr

namespace ClauseKind

/-- All kinds in the order in which clauses are listed. -/
def all : List ClauseKind := [
    .async, .wait, .numGangs, .numWorkers, .vectorLength, .deviceType, .ifCondition, .self,
    .reduction, .copy, .copyIn, .copyOut, .create, .noCreate, .present, .devicePointer, .attach,
    .detach, .delete, .deviceResident, .link, .useDevice, .host, .device, .privateCopy,
    .firstPrivate, .default, .collapse, .gang, .worker, .vector, .seq, .auto, .tile,
    .independent, .read, .write, .update, .capture, .bind, .noHost, .ifPresent, .finalize,
    .defaultAsync, .deviceNum]

/-- The word in an annotation. -/
def keyword : ClauseKind → Text
  | .async => "async"
  | .wait => "wait"
  | .numGangs => "num_gangs"
  | .numWorkers => "num_workers"
  | .vectorLength => "vector_length"
  | .deviceType => "device_type"
  | .ifCondition => "if"
  | .self => "self"
  | .reduction => "reduction"
  | .copy => "copy"
  | .copyIn => "copyin"
  | .copyOut => "copyout"
  | .create => "create"
  | .noCreate => "no_create"
  | .present => "present"
  | .devicePointer => "deviceptr"
  | .attach => "attach"
  | .detach => "detach"
  | .delete => "delete"
  | .deviceResident => "device_resident"
  | .link => "link"
  | .useDevice => "use_device"
  | .host => "host"
  | .device => "device"
  | .privateCopy => "private"
  | .firstPrivate => "firstprivate"
  | .default => "default"
  | .collapse => "collapse"
  | .gang => "gang"
  | .worker => "worker"
  | .vector => "vector"
  | .seq => "seq"
  | .auto => "auto"
  | .tile => "tile"
  | .independent => "independent"
  | .read => "read"
  | .write => "write"
  | .update => "update"
  | .capture => "capture"
  | .bind => "bind"
  | .noHost => "nohost"
  | .ifPresent => "if_present"
  | .finalize => "finalize"
  | .defaultAsync => "default_async"
  | .deviceNum => "device_num"

def ofKeyword? (word : Text) : Option ClauseKind := all.find? (·.keyword == word)

/-- The name in encoded values. -/
def tag : ClauseKind → Text
  | .async => "Async"
  | .wait => "Wait"
  | .numGangs => "NumGangs"
  | .numWorkers => "NumWorkers"
  | .vectorLength => "VectorLength"
  | .deviceType => "DeviceType"
  | .ifCondition => "If"
  | .self => "SelfClause"
  | .reduction => "Reduction"
  | .copy => "Copy"
  | .copyIn => "Copyin"
  | .copyOut => "Copyout"
  | .create => "Create"
  | .noCreate => "NoCreate"
  | .present => "Present"
  | .devicePointer => "Deviceptr"
  | .attach => "Attach"
  | .detach => "Detach"
  | .delete => "Delete"
  | .deviceResident => "DeviceResident"
  | .link => "Link"
  | .useDevice => "UseDevice"
  | .host => "Host"
  | .device => "Device"
  | .privateCopy => "Private"
  | .firstPrivate => "Firstprivate"
  | .default => "Default"
  | .collapse => "Collapse"
  | .gang => "Gang"
  | .worker => "Worker"
  | .vector => "Vector"
  | .seq => "Seq"
  | .auto => "Auto"
  | .tile => "Tile"
  | .independent => "Independent"
  | .read => "Read"
  | .write => "Write"
  | .update => "Update"
  | .capture => "Capture"
  | .bind => "Bind"
  | .noHost => "Nohost"
  | .ifPresent => "IfPresent"
  | .finalize => "Finalize"
  | .defaultAsync => "DefaultAsync"
  | .deviceNum => "DeviceNum"

/-- Repeated clauses of these kinds are joined; the others may stand only once. -/
def isRepeatable : ClauseKind → Bool
  | .wait | .deviceType | .reduction | .copy | .copyIn | .copyOut | .create | .noCreate
  | .present | .devicePointer | .attach | .detach | .delete | .deviceResident | .link
  | .useDevice | .host | .device | .privateCopy | .firstPrivate => true
  | _ => false

end ClauseKind
end Offload
