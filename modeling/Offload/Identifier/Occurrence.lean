import Offload.Identifier
import Offload.Text.Blank
import Offload.Text.Literal
import Offload.Text.NameSet

/-!
Identifiers in a piece of source text. Comments, string literals, numbers, reserved words and names
behind a dot do not count.
-/
namespace Offload
namespace Identifier

/-- Letters that may stand in front of a string literal. -/
def isLiteralMark (word : Text) : Bool :=
  word.length ≤ 2 && word.all fun c => "rbufRBUF".toList.contains c

/-- What follows a word, when it marks the string literal that starts behind it. -/
def afterMarked? (word rest : Text) : Option Text :=
  match rest with
  | c :: cs => if Text.isQuote c && isLiteralMark word then some (Text.afterLiteral c cs) else none
  | [] => none

theorem length_afterMarked?_le {word rest tail : Text} (h : afterMarked? word rest = some tail) :
    tail.length ≤ rest.length := by
  unfold afterMarked? at h
  split at h
  · next c cs =>
    split at h
    · obtain rfl := Option.some.inj h
      exact Nat.le_succ_of_le (Text.length_afterLiteral_le c cs)
    · simp at h
  · simp at h

/-- The identifiers of a text that stands behind a dot or not. -/
def occurrencesFrom (afterDot : Bool) (t : Text) : List Text :=
  match t with
  | [] => []
  | c :: cs =>
    if c = '#' then occurrencesFrom afterDot (cs.dropWhile (· ≠ '\n'))
    else if Text.isQuote c then occurrencesFrom false (Text.afterLiteral c cs)
    else if isStart c then
      let word := c :: cs.takeWhile isXidContinue
      let rest := cs.dropWhile isXidContinue
      match _h : afterMarked? word rest with
      | some tail => occurrencesFrom false tail
      | none =>
        if afterDot || isKeyword word then occurrencesFrom false rest
        else word :: occurrencesFrom false rest
    else if '0' ≤ c ∧ c ≤ '9' then
      occurrencesFrom false (cs.dropWhile fun d => isXidContinue d || d == '.')
    else occurrencesFrom (if isBlank c then afterDot else c == '.') cs
termination_by t.length
decreasing_by
  · exact Nat.lt_succ_of_le (List.dropWhile_suffix _).length_le
  · exact Nat.lt_succ_of_le (Text.length_afterLiteral_le c cs)
  · exact Nat.lt_succ_of_le
      (Nat.le_trans (length_afterMarked?_le _h) (List.dropWhile_suffix _).length_le)
  · exact Nat.lt_succ_of_le (List.dropWhile_suffix _).length_le
  · exact Nat.lt_succ_of_le (List.dropWhile_suffix _).length_le
  · exact Nat.lt_succ_of_le (List.dropWhile_suffix _).length_le
  · exact Nat.lt_succ_self _

end Identifier

/-- The identifiers of a text in order of appearance, with repeats. -/
def identifiers (t : Text) : List Text := Identifier.occurrencesFrom false t

/-- The names a text refers to, other than builtins. -/
def referencedNames (t : Text) : NameSet :=
  .ofList ((identifiers t).filter fun name => !isBuiltin name)

/-- The identifiers among comma-separated assignment targets, with or without parentheses. -/
def targetNames (t : Text) : List Text :=
  ((t.splitOn ',').map fun target =>
    Text.trim ((Text.trim target).stripWhile fun c => c == '(' || c == ')')).filter isIdentifier

/-- The names bound by one line: the targets of a `for`, or those left of the first `=` unless that
sign belongs to a comparison or an augmented assignment. -/
def lineBindings (line : Text) : List Text :=
  let line := Text.trim line
  match Text.after? "for " line with
  | some rest =>
    match Text.cut? " in " rest with
    | some (targets, _) => targetNames targets
    | none => []
  | none =>
    match Text.cut? "=" line with
    | some (left, right) =>
      let compound := match left.getLast? with
        | some c => "+-*/%&|^<>!:".toList.contains c
        | none => false
      if Text.startsWith "=" right || compound then [] else targetNames left
    | none => []

/-- The names bound by the lines of a text. -/
def bindings (t : Text) : NameSet := .ofList (t.lines.flatMap lineBindings)

end Offload
