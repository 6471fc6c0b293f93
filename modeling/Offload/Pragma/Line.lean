import Offload.Error
import Offload.Source

/-!
Annotations: comment lines of the form `# acc …` or `# pragma acc …`, where `acc` stands for the
framework's keyword. Lines that start inside a string are never annotations.
-/
namespace Offload

structure PragmaLine where
  line : Nat
  /-- The whole line. -/
  text : Text
  /-- What stands behind the framework's keyword. -/
  body : Text
deriving DecidableEq, Repr

namespace PragmaLine

def defaultFramework : Text := "acc"

/-- A framework's keyword is a single word. -/
def isFramework (word : Text) : Bool := !word.isEmpty && !word.any isBlank

/-- The text behind the keyword, which ends with the line or before a blank. -/
def afterKeyword? (framework t : Text) : Option Text :=
  match Text.after? framework t with
  | some [] => some []
  | some (c :: rest) => if isBlank c then some (Text.trim (c :: rest)) else none
  | none => none

/-- The text behind `pragma` and the keyword. -/
def afterPragma? (framework t : Text) : Option Text :=
  match Text.after? "pragma" t with
  | some (c :: rest) => if isBlank c then afterKeyword? framework (Text.trimStart rest) else none
  | _ => none

/-- The body of a line that is an annotation. The word `pragma` is taken as such if the line is then
an annotation; otherwise it may still be the keyword itself. -/
def body? (framework line : Text) : Option Text :=
  match Text.trimStart line with
  | '#' :: rest =>
    let t := Text.trimStart rest
    afterPragma? framework t <|> afterKeyword? framework t
  | _ => none

/-- The annotations of a source in the order of their lines. -/
def scan (framework : Text) (s : Source) : List PragmaLine :=
  s.lines.zipIdx.filterMap fun (line, i) =>
    if line.inString then none
    else (body? framework line.text).map fun body => ⟨i, line.text, body⟩

/-- The keyword, if it is a single word. -/
def checkFramework (word : Text) : Except Error Text :=
  if isFramework word then .ok word else .error (.internal (.badFramework word))

end PragmaLine
end Offload
