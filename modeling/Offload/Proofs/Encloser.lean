import Offload.Proofs.Jump

/-!
Jumps and the lines around them. Whether a jump of a loop body stays, becomes a return or is refused
depends on the lines that enclose it: lines that begin with the word of a loop or a definition and
stand further left than every statement behind them, down to the jump.
-/
namespace Offload.Host

section

variable {jump : Jump} {returned line statement word word' : Text} {lines out : List Text}
  {j k : Nat}

end

end Offload.Host
