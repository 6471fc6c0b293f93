import Offload.Text.Basic

/-! Blank characters are those with the Unicode property White_Space. -/
namespace Offload

def isBlank (c : Char) : Bool :=
  let n := c.toNat
  (9 ≤ n && n ≤ 13) || n == 0x20 || n == 0x85 || n == 0xA0 || n == 0x1680 ||
    (0x2000 ≤ n && n ≤ 0x200A) || n == 0x2028 || n == 0x2029 || n == 0x202F || n == 0x205F ||
    n == 0x3000

namespace Text

def trimStart (t : Text) : Text := t.dropWhile isBlank

def trimEnd (t : Text) : Text := dropEndWhile isBlank t

def trim (t : Text) : Text := stripWhile isBlank t

/-- The blank characters a text starts with. -/
def margin (t : Text) : Text := t.takeWhile isBlank

/-- Nothing but blank characters, or nothing at all. -/
def blank (t : Text) : Bool := t.all isBlank

end Text
end Offload
