import Offload.Pragma.Line
import Offload.Backend.Host
import Offload.Region

/-! Settings of a compilation. -/
namespace Offload

inductive BackendKind
  | host
deriving DecidableEq, Repr

namespace BackendKind

def name : BackendKind → Text
  | .host => "host"

/-- The backend with the pool size for loops that give none. -/
def create (gangs : Nat) : BackendKind → Backend
  | .host => Host.backend gangs

end BackendKind

structure Config where
  framework : Text := PragmaLine.defaultFramework
  markers : Markers := {}
  tabWidth : Nat := Source.defaultTabWidth
  /-- The name of the generated function. -/
  entry : Text := Target.defaultEntry
  gangs : Nat := Host.defaultGangs
  backend : BackendKind := .host
deriving DecidableEq, Repr

end Offload
