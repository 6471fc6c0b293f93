import Offload.Proofs.Countable
import Offload.Proofs.Launch
import Offload.Proofs.Spanning
import Mathlib.Logic.Function.Iterate

/-!
The search for identifiers. It goes over a text in rounds, and every round takes at least one
character, because what can start a word or a number can also go on in it. What comments and
literals hide has no part in the search: texts that differ only there have the same identifiers.
-/
namespace Offload

open Identifier

/-- What a character belongs to, as far as the characters before it tell. -/
inductive Zone
  | code
  | comment
  /-- Behind the first quote of a literal. -/
  | opened (quote : Char)
  /-- Behind two quotes, which are an empty literal unless a third one follows. -/
  | doubled (quote : Char)
  | quoted (quote : Char)
  /-- Between triple quotes, behind so many quotes in a row. -/
  | block (quote : Char) (quotes : Nat)
  /-- Behind a backslash; the literal goes on behind the next character. -/
  | escaped (within : Zone)
deriving DecidableEq

namespace Zone

variable {z : Zone} {c d quote : Char} {t : Text}

/-- Where a character of code leads. -/
def ofCode (c : Char) : Zone :=
  if c = '#' then comment else if Text.isQuote c then opened c else code

/-- Where a character between single quotes leads. -/
def ofQuoted (quote c : Char) : Zone :=
  if c = '\\' then escaped (quoted quote) else if c = quote then code else quoted quote

/-- Where a character between triple quotes leads, behind so many quotes in a row. -/
def ofBlock (quote : Char) (quotes : Nat) (c : Char) : Zone :=
  if c = '\\' then escaped (block quote 0)
  else if c = quote then if quotes = 2 then code else block quote (quotes + 1)
  else block quote 0

def next : Zone → Char → Zone
  | code, c => ofCode c
  | comment, c => if c = '\n' then code else comment
  | opened quote, c => if c = quote then doubled quote else ofQuoted quote c
  | doubled quote, c => if c = quote then block quote 0 else ofCode c
  | quoted quote, c => ofQuoted quote c
  | block quote quotes, c => ofBlock quote quotes c
  | escaped within, _ => within

/-- The zone behind a text. -/
def after (z : Zone) (t : Text) : Zone := t.foldl next z

/-- A comment hides all but the line end, a literal all but the quotes that may close it and the
backslashes that are not escaped themselves. -/
def hides : Zone → Char → Bool
  | code, _ => false
  | comment, c => c != '\n'
  | opened quote, c => c != quote && c != '\\'
  | doubled _, _ => false
  | quoted quote, c => c != quote && c != '\\'
  | block quote _, c => c != quote && c != '\\'
  | escaped _, _ => true

/-- What is hidden does not matter for what follows. -/
theorem next_eq_of_hides (hc : z.hides c = true) (hd : z.hides d = true) : z.next d = z.next c := by
  cases z <;> simp_all [hides, next, ofQuoted, ofBlock]

theorem next_code_of_isQuote (h : Text.isQuote c = true) : code.next c = opened c := by
  simp [next, ofCode, h, (Text.ne_of_isQuote h).2.1]

theorem next_code_of_plain (hcomment : c ≠ '#') (hquote : Text.isQuote c = false) :
    code.next c = code := by
  simp [next, ofCode, hcomment, hquote]

/-- Code goes on with this character. -/
def isOver : Zone → Char → Bool
  | code, _ => true
  | comment, c => c == '\n'
  | doubled quote, c => c != quote
  | _, _ => false

theorem next_of_isOver (h : z.isOver c = true) : z.next c = code.next c := by
  cases z <;> simp_all [isOver, next, ofCode, Text.isQuote]

theorem hides_of_isOver (h : z.isOver c = true) : z.hides c = false := by
  cases z <;> simp_all [isOver, hides]

/-- What is left of a text when the comment or the literal is over. -/
def leave (z : Zone) : Text → Text
  | [] => []
  | c :: t => if z.isOver c then c :: t else leave (z.next c) t

theorem leave_cons (z : Zone) (c : Char) (t : Text) :
    z.leave (c :: t) = if z.isOver c then c :: t else (z.next c).leave t := rfl

theorem leave_code (t : Text) : code.leave t = t := by
  cases t <;> rfl

theorem dropWhile_eq_leave (t : Text) : t.dropWhile (· ≠ '\n') = comment.leave t := by
  induction t with
  | nil => rfl
  | cons c t ih =>
    by_cases hc : c = '\n'
    · simp [hc, leave, isOver]
    · rw [List.dropWhile_cons_of_pos (by simp [hc]), ih]
      simp [hc, leave, isOver, next]

/-- A backslash in a literal has rules of its own, one at the end of the text and one before it. -/
theorem ne_backslash (hlast : c = '\\' → t = [] → False)
    (hmore : ∀ d u, c = '\\' → t = d :: u → False) : c ≠ '\\' := by
  intro hc
  cases t with
  | nil => exact hlast hc rfl
  | cons d u => exact hmore d u hc rfl

theorem afterQuote_eq_leave (quote : Char) (t : Text) :
    Text.afterQuote quote t = (quoted quote).leave t := by
  fun_induction Text.afterQuote quote t with
  | case1 => rfl
  | case2 => rfl
  | case3 c cs ih => exact ih
  | case4 cs hlast hmore =>
    have hquote := ne_backslash hlast hmore
    simp [leave, isOver, next, ofQuoted, hquote, leave_code]
  | case5 c cs hlast hmore hne ih =>
    have hc := ne_backslash hlast hmore
    simp [leave, isOver, next, ofQuoted, hc, hne, ih]

/-- Quotes that are not followed by another one do not count. -/
theorem leave_block_of_ne (quotes : Nat) (h : t.head? ≠ some quote) :
    (block quote quotes).leave t = (block quote 0).leave t := by
  cases t with
  | nil => rfl
  | cons c t =>
    have hc : c ≠ quote := by simpa using h
    simp [leave, isOver, next, ofBlock, hc]

theorem leave_block_one (hquote : quote ≠ '\\') (h : Text.after? [quote, quote] t = none) :
    (block quote 1).leave t = (block quote 0).leave t := by
  by_cases hhead : t.head? = some quote
  · obtain ⟨u, rfl⟩ := List.head?_eq_some_iff.1 hhead
    have hu : u.head? ≠ some quote := by
      intro hu
      obtain ⟨v, rfl⟩ := List.head?_eq_some_iff.1 hu
      simp [Text.after?] at h
    -- The next quote is the last one in its row, so it does not matter how many stand before it.
    have hskip : ∀ quotes < 2,
        (block quote quotes).leave (quote :: u) = (block quote 0).leave u := by
      intro quotes hlt
      rw [← leave_block_of_ne (quotes + 1) hu]
      simp [leave, isOver, next, ofBlock, hquote, Nat.ne_of_lt hlt]
    rw [hskip 1 (by omega), hskip 0 (by omega)]
  · exact leave_block_of_ne 1 hhead

theorem afterTriple_eq_leave (quote : Char) (t : Text) :
    Text.afterTriple quote t = (block quote 0).leave t := by
  fun_induction Text.afterTriple quote t with
  | case1 => rfl
  | case2 => rfl
  | case3 c cs ih => exact ih
  | case4 c cs hlast hmore rest h =>
    have hc := ne_backslash hlast hmore
    split at h
    · next heq =>
      subst heq
      rw [Text.after?_eq_some_iff.1 h]
      simp [leave, isOver, next, ofBlock, hc, leave_code]
    · simp at h
  | case5 c cs hlast hmore h ih =>
    have hc := ne_backslash hlast hmore
    rw [ih, leave_cons]
    split at h
    · next heq =>
      subst heq
      simp [isOver, next, ofBlock, hc, leave_block_one hc h]
    · next hne => simp [isOver, next, ofBlock, hc, hne]

theorem afterLiteral_eq_leave (hquote : Text.isQuote quote = true) (t : Text) :
    Text.afterLiteral quote t = (opened quote).leave t := by
  have hbackslash := (Text.ne_of_isQuote hquote).2.2
  cases t with
  | nil => rfl
  | cons c t =>
    by_cases hc : c = quote
    · subst hc
      cases t with
      | nil =>
        have hnone : Text.after? [c, c] [c] = none := by simp [Text.after?]
        rw [Text.afterLiteral, hnone]
        simp [afterQuote_eq_leave, leave, isOver]
      | cons d t =>
        by_cases hd : d = c
        · subst hd
          simp [Text.afterLiteral, Text.after?, leave, isOver, next, afterTriple_eq_leave]
        · have hnone : Text.after? [c, c] (c :: d :: t) = none := by
            simp [Text.after?, Ne.symm hd]
          rw [Text.afterLiteral, hnone]
          simp [afterQuote_eq_leave, leave, isOver, next, ofQuoted, hbackslash, hd]
    · have hnone : Text.after? [quote, quote] (c :: t) = none := by
        simp [Text.after?, Ne.symm hc]
      rw [Text.afterLiteral, hnone]
      simp [afterQuote_eq_leave, leave, isOver, next, hc]

end Zone

/-- Two texts of the same length, the first starting in the given zone, that differ only where
comments and literals of the first one hide both characters. -/
structure SameCode (z : Zone) (t u : Text) : Prop where
  length_eq : t.length = u.length
  hidden : ∀ i, ∀ h : i < t.length, ∀ h' : i < u.length, t[i] ≠ u[i] →
    (z.after (t.take i)).hides t[i] = true ∧ (z.after (t.take i)).hides u[i] = true

instance (z : Zone) (t u : Text) : Decidable (SameCode z t u) :=
  decidable_of_iff (t.length = u.length ∧
      ∀ i, ∀ h : i < t.length, ∀ h' : i < u.length, t[i] ≠ u[i] →
        (z.after (t.take i)).hides t[i] = true ∧ (z.after (t.take i)).hides u[i] = true)
    ⟨fun ⟨hlength, hhidden⟩ => ⟨hlength, hhidden⟩, fun h => ⟨h.length_eq, h.hidden⟩⟩

namespace SameCode

variable {z : Zone} {c quote : Char} {t u : Text}

theorem nil (z : Zone) : SameCode z [] [] := ⟨rfl, by simp⟩

theorem eq_nil (h : SameCode z [] u) : u = [] := List.length_eq_zero_iff.1 h.length_eq.symm

/-- One character of each text; both lead to the same zone. -/
theorem exists_cons (h : SameCode z (c :: t) u) : ∃ d u', u = d :: u' ∧
    (c ≠ d → z.hides c = true ∧ z.hides d = true) ∧ z.next d = z.next c ∧
      SameCode (z.next c) t u' := by
  cases u with
  | nil => simpa using h.length_eq
  | cons d u =>
    have hhead : c ≠ d → z.hides c = true ∧ z.hides d = true := h.hidden 0 (by simp) (by simp)
    refine ⟨d, u, rfl, hhead, ?_, ?_, ?_⟩
    · by_cases heq : c = d
      · rw [heq]
      · exact Zone.next_eq_of_hides (hhead heq).1 (hhead heq).2
    · simpa using h.length_eq
    · intro i hi hi'
      exact h.hidden (i + 1) (by simpa using hi) (by simpa using hi')

theorem exists_visible (h : SameCode z (c :: t) u) (hc : z.hides c = false) :
    ∃ u', u = c :: u' ∧ SameCode (z.next c) t u' := by
  obtain ⟨d, u', rfl, hhead, -, htail⟩ := h.exists_cons
  by_cases heq : c = d
  · exact ⟨u', by rw [heq], htail⟩
  · have hhidden := (hhead heq).1
    simp [hc] at hhidden

theorem cons (h : SameCode (z.next c) t u) : SameCode z (c :: t) (c :: u) where
  length_eq := by simpa using h.length_eq
  hidden := by
    intro i hi hi' hne
    cases i with
    | zero => exact absurd rfl hne
    | succ i => exact h.hidden i (by simpa using hi) (by simpa using hi') hne

/-- The texts have comments and literals that end together. -/
theorem leave (h : SameCode z t u) : SameCode .code (z.leave t) (z.leave u) := by
  induction t generalizing z u with
  | nil =>
    obtain rfl := h.eq_nil
    exact nil _
  | cons c t ih =>
    cases hover : z.isOver c with
    | true =>
      obtain ⟨u', rfl, htail⟩ := h.exists_visible (Zone.hides_of_isOver hover)
      rw [Zone.next_of_isOver hover] at htail
      rw [Zone.leave_cons, Zone.leave_cons, hover, if_pos rfl, if_pos rfl]
      exact htail.cons
    | false =>
      obtain ⟨d, u', rfl, hhead, hnext, htail⟩ := h.exists_cons
      have hd : z.isOver d = false := by
        by_cases heq : c = d
        · rwa [← heq]
        · -- Code goes on with no character that is hidden.
          by_contra hd
          have hhidden := (hhead heq).2
          simp [Zone.hides_of_isOver (by simpa using hd)] at hhidden
      rw [Zone.leave_cons, Zone.leave_cons, hover, hd, if_neg (by simp), if_neg (by simp), hnext]
      exact ih htail

theorem afterLiteral (hquote : Text.isQuote quote = true) (h : SameCode (.opened quote) t u) :
    SameCode .code (Text.afterLiteral quote t) (Text.afterLiteral quote u) := by
  rw [Zone.afterLiteral_eq_leave hquote, Zone.afterLiteral_eq_leave hquote]
  exact h.leave

/-- Words and numbers of code are the same in both texts. -/
theorem span {p : Char → Bool} (hp : ∀ c, p c = true → c ≠ '#' ∧ Text.isQuote c = false)
    (h : SameCode .code t u) :
    t.takeWhile p = u.takeWhile p ∧ SameCode .code (t.dropWhile p) (u.dropWhile p) := by
  induction t generalizing u with
  | nil =>
    obtain rfl := h.eq_nil
    exact ⟨rfl, nil _⟩
  | cons c t ih =>
    obtain ⟨u', rfl, htail⟩ := h.exists_visible rfl
    cases hc : p c with
    | true =>
      rw [Zone.next_code_of_plain (hp c hc).1 (hp c hc).2] at htail
      obtain ⟨htake, hdrop⟩ := ih htail
      simp only [List.takeWhile_cons, List.dropWhile_cons, hc, if_true, htake, true_and]
      exact hdrop
    | false =>
      simp only [List.takeWhile_cons, List.dropWhile_cons, hc, Bool.false_eq_true, if_false,
        true_and]
      exact h

theorem afterMarked? (word : Text) (h : SameCode .code t u) :
    Option.Rel (SameCode .code) (Identifier.afterMarked? word t)
      (Identifier.afterMarked? word u) := by
  cases t with
  | nil =>
    obtain rfl := h.eq_nil
    exact .none
  | cons c t =>
    obtain ⟨u', rfl, htail⟩ := h.exists_visible rfl
    unfold Identifier.afterMarked?
    dsimp only
    split
    · next hmark =>
      obtain ⟨hquote, -⟩ := Bool.and_eq_true_iff.1 hmark
      rw [Zone.next_code_of_isQuote hquote] at htail
      exact .some (htail.afterLiteral hquote)
    · exact .none

end SameCode

/-! Characters of words and numbers. -/

theorem Text.length_dropWhile_lt {p : Char → Bool} {c : Char} (hc : p c = true) (cs : Text) :
    ((c :: cs).dropWhile p).length < (c :: cs).length := by
  rw [List.dropWhile_cons_of_pos hc]
  exact Nat.lt_succ_of_le (List.dropWhile_suffix p).length_le

namespace Identifier

theorem isXidContinue_of_digit {c : Char} (h : '0' ≤ c ∧ c ≤ '9') : isXidContinue c = true :=
  (Countable.isXid_of_isDigit
    (Bool.and_eq_true_iff.2 ⟨decide_eq_true h.1, decide_eq_true h.2⟩)).2

/-- No word takes up the start of a comment or of a literal. -/
theorem code_of_isXidContinue {c : Char} (h : isXidContinue c = true) :
    c ≠ '#' ∧ Text.isQuote c = false := by
  have hcomment := ne_of_isXidContinue (d := '#') h (by decide)
  have hsingle := ne_of_isXidContinue (d := '\'') h (by decide)
  have hdouble := ne_of_isXidContinue (d := '"') h (by decide)
  exact ⟨hcomment, by simp [Text.isQuote, hsingle, hdouble]⟩

end Identifier

/-! Rounds. -/

/-- The search for identifiers: whether it stands behind a dot, what is still to be read and what
has been found. -/
structure Scan where
  afterDot : Bool
  rest : Text
  found : List Text
deriving DecidableEq

namespace Scan

variable {s s' : Scan}

def start (t : Text) : Scan := ⟨false, t, []⟩

/-- One round. A word and a number are read from their first character on. -/
def next : Scan → Scan
  | ⟨afterDot, [], found⟩ => ⟨afterDot, [], found⟩
  | ⟨afterDot, c :: cs, found⟩ =>
    if c = '#' then ⟨afterDot, (c :: cs).dropWhile (· ≠ '\n'), found⟩
    else if Text.isQuote c then ⟨false, Text.afterLiteral c cs, found⟩
    else if isStart c then
      let word := (c :: cs).takeWhile isXidContinue
      let rest := (c :: cs).dropWhile isXidContinue
      (afterMarked? word rest).elim
        ⟨false, rest, if afterDot || isKeyword word then found else found ++ [word]⟩
        fun tail => ⟨false, tail, found⟩
    else if '0' ≤ c ∧ c ≤ '9' then
      ⟨false, (c :: cs).dropWhile fun d => isXidContinue d || d == '.', found⟩
    else ⟨if isBlank c then afterDot else c == '.', cs, found⟩

/-- A round takes at least one character. -/
theorem length_next_lt (h : s.rest ≠ []) : s.next.rest.length < s.rest.length := by
  obtain ⟨afterDot, rest, found⟩ := s
  cases rest with
  | nil => exact absurd rfl h
  | cons c cs =>
    unfold next
    dsimp only
    split
    · next hcomment =>
      exact Text.length_dropWhile_lt (p := (· ≠ '\n')) (by simp [hcomment]) cs
    · split
      · exact Nat.lt_succ_of_le (Text.length_afterLiteral_le c cs)
      · split
        · next hstart =>
          -- A word that could not go on with its first character would be read again and again.
          have hlt := Text.length_dropWhile_lt (isXidContinue_of_isStart hstart) cs
          cases hmarked : afterMarked? ((c :: cs).takeWhile isXidContinue)
              ((c :: cs).dropWhile isXidContinue) with
          | none => exact hlt
          | some tail => exact Nat.lt_of_le_of_lt (length_afterMarked?_le hmarked) hlt
        · split
          · next hdigit =>
            exact Text.length_dropWhile_lt (p := fun d => isXidContinue d || d == '.')
              (by simp [isXidContinue_of_digit hdigit]) cs
          · exact Nat.lt_succ_self _

/-- What has been found and what is still to be found are the identifiers of the text. -/
theorem found_next (s : Scan) :
    s.next.found ++ occurrencesFrom s.next.afterDot s.next.rest =
      s.found ++ occurrencesFrom s.afterDot s.rest := by
  obtain ⟨afterDot, rest, found⟩ := s
  cases rest with
  | nil => rfl
  | cons c cs =>
    unfold next
    dsimp only
    rw [occurrencesFrom.eq_def afterDot (c :: cs)]
    dsimp only
    split
    · next hcomment => rw [List.dropWhile_cons_of_pos (by simp [hcomment])]
    · split
      · rfl
      · split
        · next hstart =>
          have hcontinue := isXidContinue_of_isStart hstart
          rw [List.takeWhile_cons_of_pos hcontinue, List.dropWhile_cons_of_pos hcontinue]
          cases hmarked : afterMarked? (c :: cs.takeWhile isXidContinue)
              (cs.dropWhile isXidContinue) with
          | some tail => rfl
          | none =>
            dsimp only [Option.elim_none]
            split
            · rfl
            · rw [List.append_assoc, List.singleton_append]
        · split
          · next hdigit =>
            rw [List.dropWhile_cons_of_pos (by simp [isXidContinue_of_digit hdigit])]
          · rfl

/-- As many rounds as there are characters are enough. -/
theorem run_ends {n : Nat} (h : s.rest.length ≤ n) :
    (next^[n] s).rest = [] ∧
      (next^[n] s).found = s.found ++ occurrencesFrom s.afterDot s.rest := by
  induction n generalizing s with
  | zero =>
    have hrest : s.rest = [] := List.length_eq_zero_iff.1 (Nat.le_zero.1 h)
    rw [Function.iterate_zero_apply, hrest]
    exact ⟨rfl, by rw [occurrencesFrom.eq_def, List.append_nil]⟩
  | succ n ih =>
    have hlength : s.next.rest.length ≤ n := by
      by_cases hrest : s.rest = []
      · obtain ⟨afterDot, rest, found⟩ := s
        obtain rfl : rest = [] := hrest
        exact Nat.zero_le n
      · have hlt := length_next_lt hrest
        omega
    rw [Function.iterate_succ_apply, ← found_next]
    exact ih hlength

/-- Two searches that stand alike in texts with the same code. -/
structure Alike (s s' : Scan) : Prop where
  afterDot : s.afterDot = s'.afterDot
  found : s.found = s'.found
  rest : SameCode .code s.rest s'.rest

/-- Searches in texts with the same code go together. -/
theorem Alike.next (h : Alike s s') : Alike s.next s'.next := by
  obtain ⟨afterDot, rest, found⟩ := s
  obtain ⟨afterDot', rest', found'⟩ := s'
  obtain ⟨rfl, rfl, hrest⟩ := h
  dsimp only at hrest
  cases rest with
  | nil =>
    obtain rfl := hrest.eq_nil
    exact ⟨rfl, rfl, .nil _⟩
  | cons c cs =>
    obtain ⟨ds, rfl, htail⟩ := hrest.exists_visible rfl
    unfold Scan.next
    dsimp only
    split
    · next hcomment =>
      subst hcomment
      have hdrop : ∀ t : Text, ('#' :: t).dropWhile (· ≠ '\n') = Zone.comment.leave t := by
        intro t
        rw [List.dropWhile_cons_of_pos (by decide), Zone.dropWhile_eq_leave]
      rw [hdrop, hdrop]
      exact ⟨rfl, rfl, htail.leave⟩
    · next hcomment =>
      split
      · next hquote =>
        rw [Zone.next_code_of_isQuote hquote] at htail
        exact ⟨rfl, rfl, htail.afterLiteral hquote⟩
      · next hquote =>
        split
        · obtain ⟨hword, hbehind⟩ := hrest.span (p := isXidContinue) fun d => code_of_isXidContinue
          have hmarked := hbehind.afterMarked? ((c :: ds).takeWhile isXidContinue)
          -- The words are the same, so both mark the literals behind them or none does.
          rw [hword]
          generalize Identifier.afterMarked? ((c :: ds).takeWhile isXidContinue)
            ((c :: cs).dropWhile isXidContinue) = tail at hmarked ⊢
          generalize Identifier.afterMarked? ((c :: ds).takeWhile isXidContinue)
            ((c :: ds).dropWhile isXidContinue) = tail' at hmarked ⊢
          cases hmarked with
          | none => exact ⟨rfl, rfl, hbehind⟩
          | some htails => exact ⟨rfl, rfl, htails⟩
        · split
          · have hspan := hrest.span (p := fun d => isXidContinue d || d == '.') fun d hd => by
              rcases Bool.or_eq_true_iff.1 hd with hcontinue | hdot
              · exact code_of_isXidContinue hcontinue
              · rw [beq_iff_eq.1 hdot]
                decide
            exact ⟨rfl, rfl, hspan.2⟩
          · rw [Zone.next_code_of_plain hcomment (by simpa using hquote)] at htail
            exact ⟨rfl, rfl, htail⟩

theorem Alike.iterate (h : Alike s s') (n : Nat) : Alike (Scan.next^[n] s) (Scan.next^[n] s') := by
  induction n generalizing s s' with
  | zero => exact h
  | succ n ih => exact ih h.next

end Scan

theorem identifiers_eq_of_sameCode {t u : Text} (h : SameCode .code t u) :
    identifiers u = identifiers t := by
  have halike : Scan.Alike (Scan.start t) (Scan.start u) := ⟨rfl, rfl, h⟩
  obtain ⟨-, ht⟩ := Scan.run_ends (s := Scan.start t) (Nat.le_refl t.length)
  obtain ⟨-, hu⟩ := Scan.run_ends (s := Scan.start u) (Nat.le_of_eq h.length_eq.symm)
  have hfound := (halike.iterate t.length).found
  rw [ht, hu] at hfound
  exact hfound.symm

/-- The search for identifiers ends, what it finds are identifiers and no reserved words, and it
does not depend on what comments and literals hide. -/
theorem search_ends_and_ignores_hidden (t : Text) :
    ((Scan.next^[t.length] (Scan.start t)).rest = [] ∧
        (Scan.next^[t.length] (Scan.start t)).found = identifiers t) ∧
      (∀ word ∈ identifiers t, isIdentifier word = true ∧ isKeyword word = false) ∧
      ∀ u, SameCode .code t u → identifiers u = identifiers t :=
  ⟨Scan.run_ends (s := Scan.start t) (Nat.le_refl t.length),
    fun _ hword => name_of_mem_occurrencesFrom hword, fun _ h => identifiers_eq_of_sameCode h⟩

/-- A literal with a mark and an escaped quote, a comment with a quote and triple quotes with two
quotes inside; line ends may come and go in a literal. -/
theorem hidden_words_ignored :
    SameCode .code
        (Text.unlines ["n = rb'k\\'i' + x.y # a 'b", "\"\"\"p\"\"q\"\"\" + '' + 2e3.m + g"])
        (Text.unlines ["n = rb'(\\'#' + x.y # (if\"", "\"\"\"#\"\"\n\"\"\" + '' + 2e3.m + g"]) ∧
      identifiers
          (Text.unlines ["n = rb'(\\'#' + x.y # (if\"", "\"\"\"#\"\"\n\"\"\" + '' + 2e3.m + g"]) =
        ["n", "x", "g"].map String.toList :=
  have hsame : SameCode .code
      (Text.unlines ["n = rb'k\\'i' + x.y # a 'b", "\"\"\"p\"\"q\"\"\" + '' + 2e3.m + g"])
      (Text.unlines ["n = rb'(\\'#' + x.y # (if\"", "\"\"\"#\"\"\n\"\"\" + '' + 2e3.m + g"]) := by
    decide +kernel
  have hsearch := search_ends_and_ignores_hidden
    (Text.unlines ["n = rb'k\\'i' + x.y # a 'b", "\"\"\"p\"\"q\"\"\" + '' + 2e3.m + g"])
  ⟨hsame, (hsearch.2.2 _ hsame).trans (hsearch.1.2.symm.trans (by decide +kernel))⟩

end Offload
