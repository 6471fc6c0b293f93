import Offload.Pragma.Token

/-!
Pragmas: the body of an annotation, split into its directive, the directive's own argument and the
tokens of its clauses.
-/
namespace Offload

structure Pragma where
  kind : DirectiveKind
  argument : Option DirectiveArgument
  /-- A compute construct with `loop` on the same annotation. -/
  fused : Bool
  tokens : List Text
deriving DecidableEq, Repr

namespace Pragma

def argumentOf (kind : DirectiveKind) : Option Text → Except SyntaxFault (Option DirectiveArgument)
  | none => if kind = .cache then .error .cacheWithoutVariables else .ok none
  | some text =>
    if kind.takesArgument then
      match kind, argumentItems text with
      | _, [] => .error (.emptyDirectiveArgument kind)
      | .cache, items => .ok (some (.vars items))
      | .wait, items => .ok (some (.queues items))
      | _, [item] => .ok (some (.name item))
      | _, _ => .error .routineWithNames
    else .error (.directiveWithArgument kind)

/-- Joins `enter data` and `exit data` to one keyword. -/
def joinData (keyword : Text) (argument : Option Text) (rest : List Text) : Text × List Text :=
  match argument, rest with
  | none, next :: more =>
    if (keyword = "enter" ∨ keyword = "exit") ∧ next = "data" then (keyword ++ "_data", more)
    else (keyword, rest)
  | _, _ => (keyword, rest)

/-- Takes a detached argument from the tokens behind the directive. -/
def takeArgument (kind : DirectiveKind) (argument : Option Text) (rest : List Text) :
    Option Text × List Text :=
  match argument, rest with
  | none, next :: more =>
    if kind.takesArgument ∧ Token.isArgument next then ((Token.split next).2, more)
    else (argument, rest)
  | _, _ => (argument, rest)

/-- Takes the word `loop` behind a compute construct. -/
def takeLoop (kind : DirectiveKind) (rest : List Text) : Bool × List Text :=
  match rest with
  | next :: more => if kind.isCompute ∧ next = "loop" then (true, more) else (false, rest)
  | [] => (false, rest)

def ofTokens : List Text → Except SyntaxFault Pragma
  | [] => .error .noDirective
  | first :: rest => do
    let (keyword, argument) := Token.split first
    let (keyword, rest) := joinData keyword argument rest
    match DirectiveKind.ofKeyword? keyword with
    | none => .error (.unknownDirective keyword)
    | some kind =>
      let (argument, rest) := takeArgument kind argument rest
      let argument ← argumentOf kind argument
      let (fused, tokens) := takeLoop kind rest
      return { kind, argument, fused, tokens }

def read (body : Text) : Except SyntaxFault Pragma := tokenize body >>= ofTokens

end Pragma
end Offload
