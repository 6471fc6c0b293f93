import Offload.Text.Basic

/-!
Unsigned numerals: ASCII digits, leading zeros allowed, after at most one plus sign.
-/
namespace Offload.Text

def isDigit (c : Char) : Bool := '0' ≤ c && c ≤ '9'

def digitValue (c : Char) : Nat := c.toNat - '0'.toNat

def digitsValue (t : Text) : Nat := t.foldl (fun n c => 10 * n + digitValue c) 0

/-- The value of a non-empty run of digits. -/
def ofDigits? (t : Text) : Option Nat :=
  if t.isEmpty || !t.all isDigit then none else some (digitsValue t)

def numeral? : Text → Option Nat
  | '+' :: digits => ofDigits? digits
  | digits => ofDigits? digits

def word64? (t : Text) : Option UInt64 :=
  match numeral? t with
  | some n => if n < UInt64.size then some (.ofNat n) else none
  | none => none

def word32? (t : Text) : Option UInt32 :=
  match numeral? t with
  | some n => if n < UInt32.size then some (.ofNat n) else none
  | none => none

end Offload.Text
