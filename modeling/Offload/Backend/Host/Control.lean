import Offload.Error
import Offload.Text.Blank

/-!
Control flow of a loop body that becomes a function. A `continue` of the loop turns into a return;
a `break` of the loop and a `return` of the surrounding function have no counterpart.
-/
namespace Offload.Host

/-- The statement starts with the keyword as a word of its own. -/
def beginsWithWord (keyword statement : Text) : Bool :=
  match Text.after? keyword statement with
  | some [] => true
  | some (c :: _) => isBlank c || c == ':'
  | none => false

/-- A loop or a definition inside the body. -/
structure InnerScope where
  indent : Nat
  /-- A function or a class. -/
  isDefinition : Bool
deriving DecidableEq, Repr

namespace InnerScope

/-- The scope that a statement opens. -/
def opened? (indent : Nat) (statement : Text) : Option InnerScope :=
  if beginsWithWord "for" statement || beginsWithWord "while" statement then
    some ⟨indent, false⟩
  else if beginsWithWord "def" statement || beginsWithWord "async" statement ||
      beginsWithWord "class" statement then some ⟨indent, true⟩
  else none

end InnerScope

/-- The lines of a loop body as lines of a function, given the scopes around them from the innermost
outwards. Indentation counts in bytes, whatever the blanks are. -/
def functionBodyFrom (returned : Text) (scopes : List InnerScope) :
    List Text → Except GenerationFault (List Text)
  | [] => .ok []
  | line :: lines =>
    let statement := Text.trim line
    if statement.isEmpty || statement.head? == some '#' then
      (functionBodyFrom returned scopes lines).map (line :: ·)
    else
      let margin := Text.margin line
      let indent := margin.byteLength
      let scopes := scopes.dropWhile fun scope => indent ≤ scope.indent
      if scopes.isEmpty && statement == "continue" then
        (functionBodyFrom returned scopes lines).map ((margin ++ "return" ++ returned) :: ·)
      else if scopes.isEmpty && statement == "break" then .error .escapingBreak
      else if !scopes.any (·.isDefinition) && beginsWithWord "return" statement then
        .error .escapingReturn
      else
        let scopes := (InnerScope.opened? indent statement).toList ++ scopes
        (functionBodyFrom returned scopes lines).map (line :: ·)

def functionBody (returned : Text) (lines : List Text) :
    Except GenerationFault (List Text) := functionBodyFrom returned [] lines

end Offload.Host
