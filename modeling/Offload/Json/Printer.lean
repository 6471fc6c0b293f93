import Offload.Json
import Offload.Text.Layout

/-! Writing JSON, on one line or with an item on each line. -/
namespace Offload.Json

def hexDigit (n : Nat) : Char := (Nat.toDigits 16 (n % 16)).headD '0'

def escapeChar (c : Char) : Text :=
  if c = '"' then "\\\""
  else if c = '\\' then "\\\\"
  else if c = '\n' then "\\n"
  else if c = '\r' then "\\r"
  else if c = '\t' then "\\t"
  else if c.toNat = 8 then "\\b"
  else if c.toNat = 12 then "\\f"
  else if c.toNat < 0x20 then "\\u00" ++ [hexDigit (c.toNat / 16), hexDigit c.toNat]
  else [c]

def quote (t : Text) : Text := "\"" ++ t.flatMap escapeChar ++ "\""

/-- Values other than arrays and objects. -/
def scalar : Json → Text
  | .null | .broken | .array _ | .object _ => "null"
  | .bool b => if b then "true" else "false"
  | .natural n => Text.decimal n
  | .number text => text
  | .string text => quote text

mutual

/-- Without any blanks. -/
def compress : Json → Text
  | .array items => "[" ++ Text.join "," (compressAll items) ++ "]"
  | .object members => "\x7b" ++ Text.join "," (compressMembers members) ++ "\x7d"
  | value => value.scalar

def compressAll : List Json → List Text
  | [] => []
  | first :: rest => compress first :: compressAll rest

def compressMembers : List (Text × Json) → List Text
  | [] => []
  | (name, value) :: rest => (quote name ++ ":" ++ compress value) :: compressMembers rest

end

/-- Puts each item on a line of its own, between brackets. -/
def spread (opening closing : Text) (indent : Nat) (items : List Text) : Text :=
  match items with
  | [] => opening ++ closing
  | items =>
    let inner := "\n" ++ Text.spaces (indent + 2)
    opening ++ inner ++ Text.join ("," ++ inner) items ++ "\n" ++ Text.spaces indent ++ closing

mutual

/-- With two spaces for each level. -/
def pretty (indent : Nat) : Json → Text
  | .array items => spread "[" "]" indent (prettyAll (indent + 2) items)
  | .object members => spread "\x7b" "\x7d" indent (prettyMembers (indent + 2) members)
  | value => value.scalar

def prettyAll (indent : Nat) : List Json → List Text
  | [] => []
  | first :: rest => pretty indent first :: prettyAll indent rest

def prettyMembers (indent : Nat) : List (Text × Json) → List Text
  | [] => []
  | (name, value) :: rest =>
    (quote name ++ ": " ++ pretty indent value) :: prettyMembers indent rest

end

end Offload.Json
