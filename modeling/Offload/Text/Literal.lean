import Offload.Text.Basic

/-!
String literals. A backslash takes the next character with it, three equal quotes open a literal
that three such quotes close, and a literal that is never closed reaches to the end of the text.
-/
namespace Offload.Text

def isQuote (c : Char) : Bool := c == '\'' || c == '"'

/-- What follows the quote that closes a literal. -/
def afterQuote (quote : Char) : Text → Text
  | [] => []
  | ['\\'] => []
  | '\\' :: _ :: cs => afterQuote quote cs
  | c :: cs => if c = quote then cs else afterQuote quote cs

/-- What follows the three quotes that close a literal. -/
def afterTriple (quote : Char) : Text → Text
  | [] => []
  | ['\\'] => []
  | '\\' :: _ :: cs => afterTriple quote cs
  | c :: cs =>
    match if c = quote then after? [quote, quote] cs else none with
    | some rest => rest
    | none => afterTriple quote cs

/-- What follows a literal whose first quote has been read. -/
def afterLiteral (quote : Char) (t : Text) : Text :=
  match after? [quote, quote] t with
  | some rest => afterTriple quote rest
  | none => afterQuote quote t

theorem length_after?_le {head t rest : Text} (h : after? head t = some rest) :
    rest.length ≤ t.length := by
  induction head generalizing t with
  | nil => simp only [after?, Option.some.injEq] at h; simp [h]
  | cons c cs ih =>
    cases t with
    | nil => simp [after?] at h
    | cons d ds =>
      simp only [after?] at h
      split at h
      · exact Nat.le_succ_of_le (ih h)
      · simp at h

theorem length_afterQuote_le (quote : Char) (t : Text) :
    (afterQuote quote t).length ≤ t.length := by
  fun_induction afterQuote quote t <;> simp <;> omega

theorem length_afterTriple_le (quote : Char) (t : Text) :
    (afterTriple quote t).length ≤ t.length := by
  fun_induction afterTriple quote t with
  | case1 => simp
  | case2 => simp
  | case3 c cs ih => simp; omega
  | case4 c cs _ _ rest h =>
    split at h
    · have := length_after?_le h; simp; omega
    · simp at h
  | case5 c cs _ _ _ ih => simp; omega

theorem length_afterLiteral_le (quote : Char) (t : Text) :
    (afterLiteral quote t).length ≤ t.length := by
  unfold afterLiteral
  split
  · next rest h => exact Nat.le_trans (length_afterTriple_le quote rest) (length_after?_le h)
  · exact length_afterQuote_le quote t

end Offload.Text
