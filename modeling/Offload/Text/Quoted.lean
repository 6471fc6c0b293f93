import Offload.Text.Basic
import Offload.Text.Hidden

/-!
Quoted text: double quotes around it, and a backslash form for what would not show. Characters
without a glyph of their own are written by code point.
-/
namespace Offload.Text

def escapeChar (c : Char) : Text :=
  if c = '"' then "\\\""
  else if c = '\\' then "\\\\"
  else if c = '\n' then "\\n"
  else if c = '\r' then "\\r"
  else if c = '\t' then "\\t"
  else if c = Char.ofNat 0 then "\\0"
  else if isHidden c then "\\u\x7b" ++ Nat.toDigits 16 c.toNat ++ "\x7d"
  else [c]

def quoted (t : Text) : Text := "\"" ++ t.flatMap escapeChar ++ "\""

end Offload.Text
