import Offload.Source.Line
import Offload.Span

/-!
Source texts: their lines, the statements that start on them, and how far statements reach.
-/
namespace Offload

structure Source where
  tabWidth : Nat
  lines : List Line
deriving DecidableEq, Repr

namespace Source

def defaultTabWidth : Nat := 8

/-- A tab width of zero counts as one. -/
def ofText (tabWidth : Nat) (t : Text) : Source :=
  let tabWidth := max tabWidth 1
  ⟨tabWidth, Line.scan tabWidth {} t.lines⟩

def size (s : Source) : Nat := s.lines.length

def text? (s : Source) (i : Nat) : Option Text := s.lines[i]?.map Line.text

/-- The text of a line, empty beyond the end. -/
def textAt (s : Source) (i : Nat) : Text := (s.text? i).getD []

def indent? (s : Source) (i : Nat) : Option Nat := s.lines[i]?.map Line.indent

def indentAt (s : Source) (i : Nat) : Nat := (s.indent? i).getD 0

/-- The lines of a span, as far as they exist. -/
def slice (s : Source) (span : Span) : List Text :=
  ((s.lines.take span.stop).drop span.start).map Line.text

def textOf (s : Source) (span : Span) : Text := Text.unlines (s.slice span)

/-- The last line of the statement that line `i` belongs to. -/
def logicalEnd (s : Source) (i : Nat) : Nat :=
  let openLines := ((s.lines.drop i).takeWhile Line.continues).length
  if i < s.size then min (i + openLines) (s.size - 1) else i

/-- The first line from `i` on that satisfies `p`. -/
def findFrom? (s : Source) (p : Line → Bool) (i : Nat) : Option Nat :=
  ((s.lines.drop i).findIdx? p).map (i + ·)

/-- The first line from `i` on that starts a statement. -/
def nextStatement? (s : Source) (i : Nat) : Option Nat := s.findFrom? Line.startsStatement i

/-- The first line of a span that starts a statement. -/
def firstStatement? (s : Source) (span : Span) : Option Nat :=
  (s.nextStatement? span.start).filter (· < span.stop)

/-- Each line behind its number, which is padded to four places. -/
def render (s : Source) : Text :=
  (s.lines.zipIdx.map fun (line, i) =>
    let number := Text.decimal i
    Text.spaces (4 - number.length) ++ number ++ " | " ++ line.text ++ ['\n']).flatten

end Source
end Offload
