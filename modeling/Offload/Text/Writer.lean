import Offload.Text.Blank

/-!
Indented output. The indentation of a line is written with its first character, so an empty line
stays empty.
-/
namespace Offload

structure Writer where
  unit : Text := "    "
  level : Nat := 0
  atLineStart : Bool := true
  output : Text := []

namespace Writer

/-- A text as it stands in the output, with `pad` in front of each line that has characters, and
whether a new line is due behind it. -/
def padded (pad : Text) : Bool → Text → Text × Bool
  | atStart, [] => ([], atStart)
  | _, '\n' :: cs =>
    let (out, atEnd) := padded pad true cs
    ('\n' :: out, atEnd)
  | atStart, c :: cs =>
    let (out, atEnd) := padded pad false cs
    (if atStart then pad ++ c :: out else c :: out, atEnd)

def write (w : Writer) (t : Text) : Writer :=
  let (out, atEnd) := padded (List.replicate w.level w.unit).flatten w.atLineStart t
  { w with output := w.output ++ out, atLineStart := atEnd }

def writeLine (w : Writer) (t : Text) : Writer := (w.write t).write ['\n']

def newLine (w : Writer) : Writer := { w with output := w.output ++ ['\n'], atLineStart := true }

/-- Every line of a text on a line of its own; blank lines become empty. -/
def writeBlock (w : Writer) (t : Text) : Writer :=
  t.lines.foldl (fun w line => if Text.blank line then w.newLine else w.writeLine line) w

/-- A header with a colon, and what `body` writes one level deeper. -/
def block (w : Writer) (header : Text) (body : Writer → Writer) : Writer :=
  let inner := body { (w.write header).writeLine [':'] with level := w.level + 1 }
  { inner with level := inner.level - 1 }

end Writer
end Offload
