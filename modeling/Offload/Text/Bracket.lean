import Offload.Text.Basic

/-!
Bracket depth. The three kinds of brackets are counted alike, and a closing bracket without an
opening one leaves the depth at zero.
-/
namespace Offload

def isOpening (c : Char) : Bool := c == '(' || c == '[' || c == '\x7b'

def isClosing (c : Char) : Bool := c == ')' || c == ']' || c == '\x7d'

/-- The depth behind a character. -/
def bracketStep (depth : Nat) (c : Char) : Nat :=
  if isOpening c then depth + 1 else if isClosing c then depth - 1 else depth

namespace Text

/-- Splits at the separators that stand at depth zero, where the text starts at `depth`. A bracket
is never a separator. -/
def splitAtDepth (separator : Char) : Nat → Text → List Text
  | _, [] => [[]]
  | depth, c :: cs =>
    if c == separator && depth == 0 && !isOpening c && !isClosing c then
      [] :: splitAtDepth separator depth cs
    else consHead c (splitAtDepth separator (bracketStep depth c) cs)

/-- Splits at the separators outside all brackets; the pieces are not trimmed. -/
def splitOutside (separator : Char) (t : Text) : List Text := splitAtDepth separator 0 t

/-- The texts before and behind the first `mark` at depth zero, where the text starts at `depth`. -/
def cutAtDepth? (mark : Text) (depth : Nat) : Text → Option (Text × Text)
  | [] => none
  | c :: cs =>
    if isOpening c || isClosing c then
      (cutAtDepth? mark (bracketStep depth c) cs).map fun (before, rest) => (c :: before, rest)
    else
      match if depth = 0 then after? mark (c :: cs) else none with
      | some rest => some ([], rest)
      | none => (cutAtDepth? mark depth cs).map fun (before, rest) => (c :: before, rest)

end Text
end Offload
