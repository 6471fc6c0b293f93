import Offload.Text.Blank

/-!
Indentation of blocks. Blank lines carry no indentation: they become empty and do not count for the
common margin, which is measured in spaces.
-/
namespace Offload.Text

def spaces (n : Nat) : Text := List.replicate n ' '

def indent (n : Nat) (t : Text) : Text :=
  unlines (t.lines.map fun line => if blank line then [] else spaces n ++ line)

def leadingSpaces (line : Text) : Nat := (line.takeWhile (· == ' ')).length

/-- The least number of leading spaces of a line that is not blank, or zero. -/
def commonMargin (ls : List Text) : Nat :=
  (((ls.filter fun line => !blank line).map leadingSpaces).min?).getD 0

def unindent (ls : List Text) : List Text :=
  let margin := commonMargin ls
  ls.map fun line => if blank line then [] else line.drop margin

def unindentText (t : Text) : Text := unlines (unindent t.lines)

/-- Columns of indentation when a tab reaches to the next multiple of `tabWidth`. The sum has no
bound; a machine word holds it as long as the tab width times the length of the text is in range. -/
def indentWidth (tabWidth : Nat) (t : Text) : Nat := go 0 t
where
  go (width : Nat) : Text → Nat
    | ' ' :: rest => go (width + 1) rest
    | '\t' :: rest => go (width + (tabWidth - width % tabWidth)) rest
    | _ => width

end Offload.Text
