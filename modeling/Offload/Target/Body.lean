import Offload.Error
import Offload.Source

/-! Function bodies in which spans of lines have been replaced. Replaced spans do not overlap. -/
namespace Offload

structure Patch where
  span : Span
  lines : List Text
deriving DecidableEq, Repr

structure PatchedBody where
  /-- The lines of the body. -/
  span : Span
  patches : List Patch := []
deriving DecidableEq, Repr

namespace PatchedBody

/-- The replaced span that a line lies in. -/
def covering? (b : PatchedBody) (line : Nat) : Option Span :=
  (b.patches.map Patch.span).find? (·.contains line)

def isPatched (b : PatchedBody) (line : Nat) : Bool := (b.covering? line).isSome

/-- Replaces a span of lines that lies in the body and touches no replaced line. -/
def patch (b : PatchedBody) (span : Span) (lines : List Text) : Except Error PatchedBody :=
  let outside := span.start < b.span.start || b.span.stop < span.stop
  if outside || b.patches.any (span.overlaps ·.span) || span.isEmpty then
    .error (.generation span.start (.patch span b.span))
  else .ok { b with patches := b.patches ++ [⟨span, lines⟩] }

/-- What stands for a line: the new lines at the start of a replaced span, nothing in the rest of
it, and the line itself elsewhere. -/
def renderLine (b : PatchedBody) (s : Source) (line : Nat) : List Text :=
  match b.patches.find? (·.span.start == line) with
  | some p => p.lines
  | none => if b.isPatched line then [] else [s.textAt line]

/-- The lines of the body with all patches. -/
def render (b : PatchedBody) (s : Source) : List Text :=
  (List.range' b.span.start b.span.length).flatMap (b.renderLine s)

end PatchedBody
end Offload
