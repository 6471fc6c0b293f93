import Offload.Error
import Offload.Identifier.Occurrence
import Offload.Loop.Header
import Offload.Source.Extent

/-!
Tight loop nests: each loop is the first statement of the body around it, and no code follows it
there.
-/
namespace Offload

namespace Source

theorem of_findFrom?_eq_some {s : Source} {p : Line → Bool} {i j : Nat}
    (h : s.findFrom? p i = some j) : i ≤ j ∧ j < s.size := by
  simp only [findFrom?, Option.map_eq_some_iff] at h
  obtain ⟨k, hk, rfl⟩ := h
  have := (List.findIdx?_eq_some_iff_findIdx_eq.1 hk).1
  simp only [List.length_drop] at this
  simp only [size]
  omega

theorem le_logicalEnd (s : Source) (i : Nat) : i ≤ s.logicalEnd i := by
  simp only [logicalEnd]
  split <;> omega

/-- The line of a `for` statement has its header. -/
def forHeader? (s : Source) (line : Nat) : Option ForHeader :=
  ForHeader.parse? (s.textOf ⟨line, s.logicalEnd line + 1⟩)

/-- The end of the span from `first` to `stop` without the trivia at its end. -/
def codeStop (s : Source) (first stop : Nat) : Nat :=
  let inner := (s.lines.take stop).drop (first + 1)
  first + 1 + (inner.reverse.dropWhile Line.isTrivia).length

end Source

/-- A loop of a nest. -/
structure NestedLoop where
  line : Nat
  header : ForHeader
  /-- The line behind the whole statement. -/
  stop : Nat
deriving DecidableEq, Repr

namespace NestedLoop

/-- The nest that starts at `line` and whose code has to end at `codeStop`, if that is given. -/
def nestFrom (s : Source) (codeStop : Option Nat) (line : Nat) : List NestedLoop :=
  match s.forHeader? line with
  | none => []
  | some header =>
    let stop := s.statementStop line
    let ownEnd := s.codeStop line stop
    if codeStop.any (· != ownEnd) then []
    else
      ⟨line, header, stop⟩ ::
        match _h : s.findFrom? Line.startsStatement (s.logicalEnd line + 1) with
        | some next => if next < stop then nestFrom s (some ownEnd) next else []
        | none => []
termination_by s.size - line
decreasing_by
  have := Source.of_findFrom?_eq_some _h
  have := s.le_logicalEnd line
  omega

/-- The tight nest at the first statement of a span, from the outermost loop inwards. -/
def nestIn (s : Source) (span : Span) : List NestedLoop :=
  match s.firstStatement? span with
  | some line => nestFrom s none line
  | none => []

def associate (s : Source) (l : NestedLoop) : Except Error AssociatedLoop :=
  if isCountable l.header.iterable then
    let source := Text.unlines (Text.unindent (s.slice ⟨l.line, l.stop⟩))
    .ok {
      line := l.line
      source
      vars := referencedNames source
      target := l.header.target
      iterable := l.header.iterable }
  else .error (.malformed l.line (.uncountable l.header.iterable))

end NestedLoop

/-- The loops of a nest that has to be exactly `count` deep and countable. -/
def associateLoops (s : Source) (span : Span) (count line : Nat) :
    Except Error (List AssociatedLoop) :=
  let nest := NestedLoop.nestIn s span
  if nest.length = count then nest.mapM (NestedLoop.associate s)
  else .error (.malformed line (.loopCount count nest.length))

end Offload
