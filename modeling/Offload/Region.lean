import Offload.Error
import Offload.Source.Extent

/-!
Regions: the lines that an annotation governs. They are the next statement, or the lines between two
block markers, which are comments of their own on lines of their own.
-/
namespace Offload

structure Markers where
  opening : Text := "\x7b"
  closing : Text := "\x7d"
deriving DecidableEq, Repr

namespace Markers

/-- A comment that holds nothing but the marker. -/
def isMarker (marker line : Text) : Bool :=
  match Text.trim line with
  | '#' :: rest => Text.trim rest == marker
  | _ => false

def opens (m : Markers) (line : Text) : Bool := isMarker m.opening line

def closes (m : Markers) (line : Text) : Bool := isMarker m.closing line

end Markers

structure Region where
  span : Span
  delimited : Bool
deriving DecidableEq, Repr

namespace Region

/-- The next statement behind an annotation, with the trivia before it. -/
def scope (s : Source) (line : Nat) : Except SyntaxFault Span :=
  match s.findFrom? (fun l => !l.isTrivia) (line + 1) with
  | none => .error .noStatement
  | some first =>
    if s.indentAt first < s.indentAt line then .error .noStatementInBlock
    else .ok ⟨line + 1, s.statementStop first⟩

/-- How many lines stand before the one that closes the block, when `depth` blocks are open. -/
def closingOffset? (m : Markers) (depth : Int) : List Line → Option Nat
  | [] => none
  | line :: lines =>
    if line.inString then (closingOffset? m depth lines).map (· + 1)
    else if m.opens line.text then (closingOffset? m (depth + 1) lines).map (· + 1)
    else if m.closes line.text then
      if depth - 1 = 0 then some 0 else (closingOffset? m (depth - 1) lines).map (· + 1)
    else (closingOffset? m depth lines).map (· + 1)

/-- The lines between the markers, if the line behind the annotation opens a block. -/
def block? (m : Markers) (s : Source) (line : Nat) : Except SyntaxFault (Option Span) :=
  match s.text? (line + 1) with
  | none => .ok none
  | some text =>
    if m.opens text then
      match closingOffset? m 0 (s.lines.drop (line + 1)) with
      | some offset => .ok (some ⟨line + 2, line + 1 + offset⟩)
      | none => .error (.unterminatedBlock (line + 1))
    else .ok none

/-- The region of an annotation of the given kind; none for kinds that stand alone. -/
def find (m : Markers) (s : Source) (kind : DirectiveKind) (line : Nat) :
    Except SyntaxFault (Option Region) :=
  match kind.strategy with
  | .none => .ok none
  | .scope => do return some ⟨← scope s line, false⟩
  | .scopeOrBlock => do
    match ← block? m s line with
    | some span => return some ⟨span, true⟩
    | none => return some ⟨← scope s line, false⟩

end Region
end Offload
