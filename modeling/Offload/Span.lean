import Offload.Text.Basic

/-!
Half-open spans of line numbers, counted from zero. A span may be given backwards and is then empty.
-/
namespace Offload

structure Span where
  start : Nat
  stop : Nat
deriving DecidableEq, Repr

namespace Span

def contains (s : Span) (line : Nat) : Bool := s.start ≤ line && line < s.stop

/-- The ends of `t` lie within those of `s`, even when `t` is empty. -/
def encloses (s t : Span) : Bool := s.start ≤ t.start && t.stop ≤ s.stop

def overlaps (s t : Span) : Bool := s.start < t.stop && t.start < s.stop

def length (s : Span) : Nat := s.stop - s.start

def isEmpty (s : Span) : Bool := s.length == 0

def render (s : Span) : Text :=
  "[" ++ Text.decimal s.start ++ ", " ++ Text.decimal s.stop ++ ")"

end Span
end Offload
