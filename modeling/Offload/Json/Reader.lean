import Offload.Json
import Offload.Text.Numeral

/-!
Reading JSON by its grammar: no comments, no trailing commas, no leading zeros, nothing behind the
value but blanks.
-/
namespace Offload.Json

/-- A character of a string literal: one as such, or a UTF-16 unit given by its number. -/
inductive Unit16
  | char (c : Char)
  | unit (n : Nat)

def isJsonBlank (c : Char) : Bool := c == ' ' || c == '\n' || c == '\r' || c == '\t'

def skipBlanks (t : Text) : Text := t.dropWhile isJsonBlank

def hexValue? (c : Char) : Option Nat :=
  if '0' ≤ c ∧ c ≤ '9' then some (c.toNat - '0'.toNat)
  else if 'a' ≤ c ∧ c ≤ 'f' then some (c.toNat - 'a'.toNat + 10)
  else if 'A' ≤ c ∧ c ≤ 'F' then some (c.toNat - 'A'.toNat + 10)
  else none

def hex4? (a b c d : Char) : Option Nat := do
  return (((← hexValue? a) * 16 + (← hexValue? b)) * 16 + (← hexValue? c)) * 16 + (← hexValue? d)

def escape? : Char → Option Char
  | '"' => some '"'
  | '\\' => some '\\'
  | '/' => some '/'
  | 'b' => some (Char.ofNat 8)
  | 'f' => some (Char.ofNat 12)
  | 'n' => some '\n'
  | 'r' => some '\r'
  | 't' => some '\t'
  | _ => none

/-- The units of a string literal whose first quote has been read, and what follows it. -/
def units? : Text → Option (List Unit16 × Text)
  | [] => none
  | '"' :: rest => some ([], rest)
  | '\\' :: 'u' :: a :: b :: c :: d :: rest => do
    let n ← hex4? a b c d
    let (units, rest) ← units? rest
    return (.unit n :: units, rest)
  | '\\' :: c :: rest => do
    let c ← escape? c
    let (units, rest) ← units? rest
    return (.char c :: units, rest)
  | c :: rest =>
    if c.toNat < 0x20 then none
    else do
      let (units, rest) ← units? rest
      return (.char c :: units, rest)

/-- The text of units, if all surrogates stand in pairs. -/
def decodeUnits? : List Unit16 → Option Text
  | [] => some []
  | .char c :: rest => (decodeUnits? rest).map (c :: ·)
  | .unit high :: .unit low :: rest =>
    if 0xD800 ≤ high ∧ high < 0xDC00 then
      if 0xDC00 ≤ low ∧ low < 0xE000 then
        (decodeUnits? rest).map
          (Char.ofNat (0x10000 + (high - 0xD800) * 0x400 + (low - 0xDC00)) :: ·)
      else none
    else if 0xDC00 ≤ high ∧ high < 0xE000 then none
    else (decodeUnits? (.unit low :: rest)).map (Char.ofNat high :: ·)
  | .unit n :: rest =>
    if 0xD800 ≤ n ∧ n < 0xE000 then none else (decodeUnits? rest).map (Char.ofNat n :: ·)

/-- Digits, at least one, and what follows them. -/
def digits? (t : Text) : Option (Text × Text) :=
  match t.takeWhile Text.isDigit with
  | [] => none
  | digits => some (digits, t.dropWhile Text.isDigit)

/-- An integer without superfluous zeros, and what follows it. -/
def integer? (t : Text) : Option (Text × Text) := do
  let (digits, rest) ← digits? t
  if digits.head? = some '0' ∧ digits.length ≠ 1 then none else some (digits, rest)

/-- A fraction, which may be missing. -/
def fraction? : Text → Option (Text × Text)
  | '.' :: t => (digits? t).map fun (digits, rest) => ('.' :: digits, rest)
  | t => some ([], t)

/-- An exponent, which may be missing. -/
def exponent? : Text → Option (Text × Text)
  | c :: t =>
    if c = 'e' ∨ c = 'E' then
      match t with
      | s :: u =>
        if s = '+' ∨ s = '-' then (digits? u).map fun (digits, rest) => (c :: s :: digits, rest)
        else (digits? t).map fun (digits, rest) => (c :: digits, rest)
      | [] => none
    else some ([], c :: t)
  | [] => some ([], [])

/-- A number, and what follows it. -/
def number? (t : Text) : Option (Json × Text) := do
  let (sign, t) : Text × Text := match t with
    | '-' :: rest => (['-'], rest)
    | t => ([], t)
  let (whole, t) ← integer? t
  let (fraction, t) ← fraction? t
  let (exponent, t) ← exponent? t
  match sign ++ fraction ++ exponent with
  | [] => return (.natural (Text.digitsValue whole), t)
  | _ => return (.number (sign ++ whole ++ fraction ++ exponent), t)

/-- A string, whose units may have no text. -/
def ofUnits (units : List Unit16) : Json :=
  match decodeUnits? units with
  | some text => .string text
  | none => .broken

/-- An object, whose names may have no text. -/
def ofMembers (members : List (Option Text × Json)) : Json :=
  match members.mapM fun (name, value) => name.map (·, value) with
  | some members => .object members
  | none => .broken

mutual

/-- A value, and what follows it; `fuel` bounds the depth and the length. -/
def value? : Nat → Text → Option (Json × Text)
  | 0, _ => none
  | fuel + 1, t =>
    match skipBlanks t with
    | [] => none
    | c :: cs =>
      if c = '"' then do
        let (units, rest) ← units? cs
        return (ofUnits units, rest)
      else if c = '[' then
        match skipBlanks cs with
        | ']' :: rest => some (.array [], rest)
        | _ => do
          let (items, rest) ← items? fuel cs
          return (.array items, rest)
      else if c = '\x7b' then
        match skipBlanks cs with
        | '\x7d' :: rest => some (.object [], rest)
        | _ => do
          let (members, rest) ← members? fuel cs
          return (ofMembers members, rest)
      else
        match Text.after? "null" (c :: cs), Text.after? "true" (c :: cs),
            Text.after? "false" (c :: cs) with
        | some rest, _, _ => some (.null, rest)
        | _, some rest, _ => some (.bool true, rest)
        | _, _, some rest => some (.bool false, rest)
        | none, none, none => number? (c :: cs)

/-- The items of an array up to its end. -/
def items? : Nat → Text → Option (List Json × Text)
  | 0, _ => none
  | fuel + 1, t => do
    let (first, rest) ← value? fuel t
    match skipBlanks rest with
    | ',' :: rest => do
      let (items, rest) ← items? fuel rest
      return (first :: items, rest)
    | ']' :: rest => return ([first], rest)
    | _ => none

/-- The members of an object up to its end. -/
def members? : Nat → Text → Option (List (Option Text × Json) × Text)
  | 0, _ => none
  | fuel + 1, t =>
    match skipBlanks t with
    | '"' :: cs => do
      let (units, rest) ← units? cs
      let name := decodeUnits? units
      match skipBlanks rest with
      | ':' :: rest => do
        let (value, rest) ← value? fuel rest
        match skipBlanks rest with
        | ',' :: rest => do
          let (members, rest) ← members? fuel rest
          return ((name, value) :: members, rest)
        | '\x7d' :: rest => return ([(name, value)], rest)
        | _ => none
      | _ => none
    | _ => none

end

/-- The value that a text holds. -/
def parse? (t : Text) : Option Json := do
  let (value, rest) ← value? (t.length + 1) t
  if (skipBlanks rest).isEmpty then some value else none

end Offload.Json
