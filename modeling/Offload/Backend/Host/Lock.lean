import Offload.Source

/-! Atomic regions run under a lock, one level deeper than before. -/
namespace Offload.Host

def lockName : Text := "_acc_lock"

def lockDefinition : Text := lockName ++ " = threading.Lock()"

/-- The lines of a region under the lock. -/
def lockedLines (s : Source) (region : Span) : List Text :=
  let first := (s.firstStatement? region).getD region.start
  (Text.margin (s.textAt first) ++ "with " ++ lockName ++ ":") ::
    (s.slice region).map fun line => if Text.blank line then [] else "    " ++ line

/-- The lines from `line` to `stop`, with each atomic region among them under the lock. -/
def lockAtomics (s : Source) (atomics : List Span) (line stop : Nat) : List Text :=
  if line < stop then
    match _h : atomics.find? fun region => region.start == line && !region.isEmpty with
    | some region => lockedLines s region ++ lockAtomics s atomics region.stop stop
    | none => s.textAt line :: lockAtomics s atomics (line + 1) stop
  else []
termination_by stop - line
decreasing_by
  · have := List.find?_some _h
    simp only [Span.isEmpty, Span.length, Bool.and_eq_true, beq_iff_eq, Bool.not_eq_true',
      beq_eq_false_iff_ne] at this
    omega
  · omega

end Offload.Host
