import Offload.Loop.Nest

/-! Loop nests that a `loop` directive parallelises. -/
namespace Offload.Host

structure LoopNest where
  /-- From the outermost loop inwards. -/
  headers : List ForHeader
  /-- The lines of the outermost loop. -/
  span : Span
  /-- The lines of the innermost body. -/
  body : Span
deriving DecidableEq, Repr

namespace LoopNest

/-- The loops of a `collapse` or else of a `tile`. -/
def associated (d : Directive) : List AssociatedLoop :=
  match d.clauses.collapse? with
  | some (_, loops) => loops
  | none =>
    match d.clauses.tile? with
    | some (_, loops) => loops
    | none => []

/-- The single loop that a directive governs. -/
def single (s : Source) (d : Directive) (region : Span) : Except Error (ForHeader × Nat) :=
  match s.firstStatement? region with
  | none => .error (.generation d.line (.governsNothing .loop))
  | some line =>
    match s.forHeader? line with
    | none => .error (.generation line .notForLoop)
    | some header => .ok (header, line)

/-- A nest by its headers and the lines of its outermost and innermost loop. Only a body that starts
on a line of its own and stands deeper than its loop throughout can be moved. -/
def ofLines (s : Source) (headers : List ForHeader) (outer inner : Nat) : Except Error LoopNest :=
  let first := s.logicalEnd inner + 1
  let stop := s.statementStop inner
  if stop ≤ first then .error (.generation inner .bodyOnHeaderLine)
  else
    let shallow (line : Line) : Bool := line.startsStatement && line.indent ≤ s.indentAt inner
    match (s.findFrom? shallow first).filter (· < stop) with
    | some line => .error (.generation line .elseBranch)
    | none => .ok { headers, span := ⟨outer, s.statementStop outer⟩, body := ⟨first, stop⟩ }

def find (s : Source) (d : Directive) (region : Span) : Except Error LoopNest :=
  match associated d with
  | [] => do
    let (header, line) ← single s d region
    ofLines s [header] line line
  | outermost :: rest =>
    let loops := outermost :: rest
    ofLines s (loops.map fun l => ⟨l.target, l.iterable⟩) outermost.line
      (loops.getLast (List.cons_ne_nil _ _)).line

end LoopNest
end Offload.Host
