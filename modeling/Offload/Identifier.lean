import Offload.Identifier.Ranges
import Offload.Text.Basic

/-! Identifiers, reserved words and builtins of the annotated language. -/
namespace Offload

/-- Reserved words. -/
def keywords : List Text := [
  "False", "None", "True", "and", "as", "assert", "async", "await", "break", "class",
  "continue", "def", "del", "elif", "else", "except", "finally", "for", "from", "global",
  "if", "import", "in", "is", "lambda", "nonlocal", "not", "or", "pass", "raise", "return",
  "try", "while", "with", "yield"].map String.toList

/-- Builtins, which are in scope everywhere. -/
def builtins : List Text := [
  "abs", "all", "any", "bool", "dict", "enumerate", "filter", "float", "int", "len", "list",
  "map", "max", "min", "print", "range", "reversed", "round", "set", "sorted", "str", "sum",
  "tuple", "zip"].map String.toList

def isKeyword (name : Text) : Bool := keywords.contains name

def isBuiltin (name : Text) : Bool := builtins.contains name

namespace Identifier

def isStart (c : Char) : Bool := c == '_' || isXidStart c

end Identifier

/-- A single identifier; reserved words count. -/
def isIdentifier : Text → Bool
  | [] => false
  | c :: cs => Identifier.isStart c && cs.all Identifier.isXidContinue

end Offload
