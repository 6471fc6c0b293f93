/-!
Texts are lists of characters. A line ends at a line feed; one carriage return directly before the
line feed belongs to the line end, and a final line feed opens no further line.
-/
namespace Offload

abbrev Text := List Char

scoped instance : Coe String Text := ⟨String.toList⟩

namespace Text

/-- Decimal digits without leading zeros. -/
def decimal (n : Nat) : Text := Nat.toDigits 10 n

/-- The number of bytes of a text in UTF-8. -/
def byteLength (t : Text) : Nat := t.foldr (fun c n => c.utf8Size + n) 0

def join (separator : Text) (pieces : List Text) : Text := separator.intercalate pieces

/-- Puts a character in front of the first piece. -/
def consHead (c : Char) : List Text → List Text
  | [] => [[c]]
  | piece :: pieces => (c :: piece) :: pieces

def lines : Text → List Text
  | [] => []
  | '\n' :: rest => [] :: lines rest
  | '\r' :: '\n' :: rest => [] :: lines rest
  | c :: rest => consHead c (lines rest)

def unlines (ls : List Text) : Text := join ['\n'] ls

/-- What stands behind `head`, if the text starts with it. -/
def after? : Text → Text → Option Text
  | [], t => some t
  | _ :: _, [] => none
  | h :: hs, c :: cs => if h = c then after? hs cs else none

def startsWith (head t : Text) : Bool := (after? head t).isSome

/-- The texts before and behind the first occurrence of `mark`. -/
def cut? (mark : Text) : Text → Option (Text × Text)
  | [] => (after? mark []).map ([], ·)
  | c :: cs =>
    match after? mark (c :: cs) with
    | some rest => some ([], rest)
    | none => (cut? mark cs).map fun (before, rest) => (c :: before, rest)

/-- All pieces between occurrences of `separator`. -/
def splitOn (separator : Char) : Text → List Text
  | [] => [[]]
  | c :: cs =>
    let pieces := splitOn separator cs
    if c = separator then [] :: pieces else consHead c pieces

/-- Drops characters at the end. -/
def dropEndWhile (p : Char → Bool) (t : Text) : Text := (t.reverse.dropWhile p).reverse

/-- Drops characters at both ends. -/
def stripWhile (p : Char → Bool) (t : Text) : Text := dropEndWhile p (t.dropWhile p)

end Text
end Offload
