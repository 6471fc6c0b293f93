import Offload.Pragma.Token

/-!
Clauses as written: a keyword and an argument. A clause whose token has no argument takes the
following token as its argument, if that starts with a parenthesis.
-/
namespace Offload

structure WrittenClause where
  token : Text
  keyword : Text
  argument : Option Text
  /-- The argument is a token of its own. -/
  detached : Bool := false
deriving DecidableEq, Repr

namespace WrittenClause

/-- How many tokens the clause takes up. -/
def width (w : WrittenClause) : Nat := if w.detached then 2 else 1

def attached (token : Text) : WrittenClause :=
  { token, keyword := (Token.split token).1, argument := (Token.split token).2 }

/-- Groups the tokens of an annotation. -/
def group : List Text → List WrittenClause
  | [] => []
  | [token] => [attached token]
  | token :: next :: rest =>
    if (Token.split token).2.isNone && Token.isArgument next then
      { token
        keyword := (Token.split token).1
        argument := (Token.split next).2
        detached := true } :: group rest
    else attached token :: group (next :: rest)

end WrittenClause
end Offload
