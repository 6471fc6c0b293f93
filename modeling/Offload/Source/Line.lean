import Offload.Text.Blank
import Offload.Text.Bracket
import Offload.Text.Layout
import Offload.Text.Literal

/-!
Lines of source text and what they carry on to the next line: open brackets, an open block literal
(one in triple quotes), and whether the statement goes on. A literal in single quotes ends with its
line.
-/
namespace Offload

inductive LineKind
  | blank
  | comment
  | code
deriving DecidableEq, Repr

structure Line where
  text : Text
  /-- Columns, with tabs expanded. -/
  indent : Nat
  kind : LineKind
  /-- The line starts inside a block literal. -/
  inString : Bool
  /-- The line goes on with a statement of an earlier line. -/
  continuation : Bool
  /-- The statement is still open at the end of the line. -/
  continues : Bool
deriving DecidableEq, Repr

namespace Line

/-- A blank line or a comment. -/
def isTrivia (line : Line) : Bool := !line.inString && line.kind != .code

def startsStatement (line : Line) : Bool := line.kind == .code && !line.continuation

end Line

/-- Where a reader of characters stands. -/
inductive LexMode
  | code
  | literal (quote : Char)
  | block (quote : Char)
deriving DecidableEq, Repr

structure LexState where
  mode : LexMode := .code
  depth : Nat := 0
  /-- The last code character that is not blank; a literal counts as its quote. -/
  last : Option Char := none
deriving DecidableEq, Repr

namespace LexState

/-- Reads the characters of one line, the first `skip` of which have been read already. -/
def read (s : LexState) (skip : Nat) : Text → LexState
  | [] => s
  | c :: cs =>
    match skip with
    | skip + 1 => read s skip cs
    | 0 =>
      match s.mode with
      | .code =>
        if c = '#' then s
        else if Text.isQuote c then
          if Text.startsWith [c, c] cs then read { s with mode := .block c } 2 cs
          else read { s with mode := .literal c, last := some c } 0 cs
        else
          read { s with
            depth := bracketStep s.depth c
            last := if isBlank c then s.last else some c } 0 cs
      | .literal quote =>
        if c = '\\' then read s 1 cs
        else if c = quote then read { s with mode := .code } 0 cs
        else read s 0 cs
      | .block quote =>
        if c = '\\' then read s 1 cs
        else if c = quote ∧ Text.startsWith [quote, quote] cs then
          read { s with mode := .code } 2 cs
        else read s 0 cs

end LexState

/-- What one line hands to the next. -/
structure Carry where
  depth : Nat := 0
  quote : Option Char := none
  pending : Bool := false
deriving DecidableEq, Repr

namespace Carry

def start (c : Carry) : LexState :=
  { mode := match c.quote with | some quote => .block quote | none => .code, depth := c.depth }

def finish (s : LexState) : Carry :=
  let quote := match s.mode with | .block quote => some quote | _ => none
  { depth := s.depth
    quote
    pending := s.depth > 0 || quote.isSome || s.last == some '\\' }

def next (c : Carry) (t : Text) : Carry := finish (c.start.read 0 t)

end Carry

namespace Line

def kindOf (carry : Carry) (t : Text) : LineKind :=
  if carry.quote.isSome then .code
  else match Text.trimStart t with
    | [] => .blank
    | '#' :: _ => .comment
    | _ => .code

def ofText (tabWidth : Nat) (carry : Carry) (t : Text) : Line where
  text := t
  indent := Text.indentWidth tabWidth t
  kind := kindOf carry t
  inString := carry.quote.isSome
  continuation := carry.pending
  continues := (carry.next t).pending

/-- Reads lines in order. -/
def scan (tabWidth : Nat) : Carry → List Text → List Line
  | _, [] => []
  | carry, t :: ts => ofText tabWidth carry t :: scan tabWidth (carry.next t) ts

end Line
end Offload
