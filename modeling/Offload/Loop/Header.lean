import Offload.Text.Blank
import Offload.Text.Bracket
import Offload.Text.Literal

/-! Headers of `for` loops, and iterables whose number of elements is known beforehand. -/
namespace Offload

structure ForHeader where
  target : Text
  iterable : Text
deriving DecidableEq, Repr

namespace Text

/-- The text before the first `#` outside string literals, if there is one. -/
def beforeComment? (quote : Option Char) (escaped : Bool) : Text → Option Text
  | [] => none
  | c :: cs =>
    match quote with
    | some q =>
      (beforeComment? (if !escaped && c == q then none else quote) (!escaped && c == '\\') cs).map
        (c :: ·)
    | none =>
      if isQuote c then (beforeComment? (some c) false cs).map (c :: ·)
      else if c = '#' then some []
      else (beforeComment? none false cs).map (c :: ·)

/-- Cuts off a comment and the blanks before it. -/
def withoutComment (t : Text) : Text :=
  match beforeComment? none false t with
  | some code => trimEnd code
  | none => t

end Text

namespace ForHeader

/-- The target and iterable behind the word `for`. -/
def ofClause? (rest : Text) : Option ForHeader := do
  let (target, rest) ← Text.cutAtDepth? " in " 0 rest
  let (iterable, _) ← Text.cutAtDepth? ":" 0 rest
  let target := Text.trim target
  let iterable := Text.trim iterable
  if target.isEmpty || iterable.isEmpty then none else some ⟨target, iterable⟩

/-- Reads a statement that is a `for` loop. -/
def parse? (statement : Text) : Option ForHeader :=
  match Text.after? "for" (Text.withoutComment (Text.trim statement)) with
  | some (c :: rest) => if isBlank c then ofClause? (c :: rest) else none
  | _ => none

end ForHeader

namespace Countable

def isNameStart (c : Char) : Bool := c.isAlpha || c == '_'

def isNameRest (c : Char) : Bool := c.isAlphanum || c == '_'

/-- Nothing but subscripts without a bracket inside; `inside` tells whether one is open. -/
def subscripts (inside : Bool) : Text → Bool
  | [] => !inside
  | c :: cs => if inside then subscripts (c != ']') cs else c == '[' && subscripts true cs

/-- The rest of a dotted name and its subscripts; `fresh` tells whether a new part has to start. -/
def dotted (fresh : Bool) : Text → Bool
  | [] => !fresh
  | c :: cs =>
    if fresh then isNameStart c && dotted false cs
    else if isNameRest c then dotted false cs
    else if c == '.' then dotted true cs
    else subscripts false (c :: cs)

end Countable

/-- Ranges, bracketed literals, and dotted names with subscripts. -/
def isCountable (iterable : Text) : Bool :=
  let t := Text.trim iterable
  let last := t.getLast?
  (Text.startsWith "range(" t && last == some ')') ||
    (t.head? == some '[' && last == some ']') || (t.head? == some '(' && last == some ')') ||
    Countable.dotted true t

end Offload
