import Offload.Text.Basic

/-!
Reports of failures: the outermost heading, then the causes below it, numbered if there are several.
Further lines of a cause are moved under its first line.
-/
namespace Offload.CommandLine

/-- Puts `first` before the first line of a text and `further` before the others. -/
def hang (first further text : Text) : Text :=
  first ++ Text.join ("\n" ++ further) (text.splitOn '\n')

def causes : List Text → List Text
  | [cause] => [hang "    " "    " cause]
  | several => several.zipIdx.map fun (cause, i) =>
    let number := Text.decimal i
    hang (List.replicate (5 - number.length) ' ' ++ number ++ ": ") "       " cause

def report (heading : Text) (below : List Text) : Text :=
  match below with
  | [] => "Error: " ++ heading ++ "\n"
  | below => "Error: " ++ heading ++ "\n\nCaused by:\n" ++ Text.join "\n" (causes below) ++ "\n"

end Offload.CommandLine
