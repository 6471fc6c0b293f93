import Offload.Error
import Offload.Text.Blank
import Offload.Text.Bracket

/-!
Tokens of an annotation: the pieces between blanks and commas that stand outside all parentheses.
-/
namespace Offload
namespace Token

/-- The pieces of a text that starts inside `depth` parentheses; pieces may be empty. -/
def pieces : Nat → Text → Except SyntaxFault (List Text)
  | 0, [] => .ok [[]]
  | _ + 1, [] => .error .unclosedOpen
  | depth, c :: cs =>
    if c = '(' then (pieces (depth + 1) cs).map (Text.consHead c)
    else if c = ')' then
      match depth with
      | 0 => .error .unexpectedClose
      | depth + 1 => (pieces depth cs).map (Text.consHead c)
    else if depth = 0 ∧ (isBlank c ∨ c = ',') then (pieces depth cs).map ([] :: ·)
    else (pieces depth cs).map (Text.consHead c)

end Token

def tokenize (t : Text) : Except SyntaxFault (List Text) :=
  (Token.pieces 0 t).map (·.filter fun piece => !piece.isEmpty)

namespace Token

/-- The keyword and the argument in parentheses; a token that does not end in a parenthesis is all
keyword. -/
def split (token : Text) : Text × Option Text :=
  match Text.cut? "(" token with
  | some (keyword, rest) =>
    if rest.getLast? = some ')' then (keyword, some rest.dropLast) else (token, none)
  | none => (token, none)

/-- A token that can be the argument of the token before it. -/
def isArgument (token : Text) : Bool := Text.startsWith "(" token

end Token

/-- The items of a list of arguments, without blanks around them; empty items are left out. -/
def argumentItems (t : Text) : List Text :=
  ((t.splitOutside ',').map Text.trim).filter fun item => !item.isEmpty

end Offload
