import Offload.Source

/-!
Extents of statements. A compound statement reaches over the deeper lines behind it and over the
parts that go on with it at its own indentation. Comments belong to it if they are deeper; blank
lines and shallower comments at its end do not.
-/
namespace Offload

namespace Line

/-- A part of a compound statement that stands at the statement's own indentation. -/
def resumesStatement (line : Line) : Bool :=
  let t := Text.trimStart line.text
  (["elif", "else", "except", "finally"].map String.toList).any fun keyword =>
    match Text.after? keyword t with
    | some (c :: _) => c == ':' || isBlank c || c == '('
    | _ => false

/-- The line belongs to a statement of the given indentation that stands before it. -/
def belongsTo (depth : Nat) (line : Line) : Bool :=
  line.inString || line.continuation ||
    match line.kind with
    | .blank => false
    | .comment => depth < line.indent
    | .code => depth < line.indent || (line.indent == depth && line.resumesStatement)

/-- The line starts a new statement behind the one of the given indentation. -/
def leaves (depth : Nat) (line : Line) : Bool := line.kind == .code && !line.belongsTo depth

end Line

namespace Source

/-- The number of lines behind a statement of the given indentation that belong to it. -/
def reach (depth : Nat) (lines : List Line) : Nat :=
  let candidates := lines.takeWhile fun line => !line.leaves depth
  (candidates.reverse.dropWhile fun line => !line.belongsTo depth).length

/-- The line behind the statement that starts at line `first`. -/
def statementStop (s : Source) (first : Nat) : Nat :=
  let next := s.logicalEnd first + 1
  next + reach (s.indentAt first) (s.lines.drop next)

end Source
end Offload
