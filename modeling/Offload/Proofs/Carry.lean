import Offload.Proofs.Extent

/-!
What lines hand on to each other. Every line stands in the state that the lines before it leave; a
blank line or a comment leaves that state as it is, unless it stands behind a backslash.
-/
namespace Offload

namespace Text

theorem blank_cons (c : Char) (t : Text) : blank (c :: t) = (isBlank c && blank t) := List.all_cons

theorem isEmpty_dropWhile (t : Text) : (t.dropWhile isBlank).isEmpty = blank t := by
  induction t with
  | nil => rfl
  | cons c cs ih =>
    rw [blank_cons, ← ih]
    cases hc : isBlank c <;> simp [hc]

end Text

/-- A character with a meaning of its own is not blank. -/
theorem ne_of_isBlank {c d : Char} (hc : isBlank c = true) (hd : isBlank d = false) : c ≠ d := by
  rintro rfl
  simp [hc] at hd

theorem isQuote_of_isBlank {c : Char} (h : isBlank c = true) : Text.isQuote c = false := by
  have hsingle := ne_of_isBlank h (d := '\'') (by decide)
  have hdouble := ne_of_isBlank h (d := '"') (by decide)
  simp [Text.isQuote, hsingle, hdouble]

theorem isOpening_of_isBlank {c : Char} (h : isBlank c = true) : isOpening c = false := by
  have hround := ne_of_isBlank h (d := '(') (by decide)
  have hsquare := ne_of_isBlank h (d := '[') (by decide)
  have hcurly := ne_of_isBlank h (d := '\x7b') (by decide)
  simp [isOpening, hround, hsquare, hcurly]

theorem isClosing_of_isBlank {c : Char} (h : isBlank c = true) : isClosing c = false := by
  have hround := ne_of_isBlank h (d := ')') (by decide)
  have hsquare := ne_of_isBlank h (d := ']') (by decide)
  have hcurly := ne_of_isBlank h (d := '\x7d') (by decide)
  simp [isClosing, hround, hsquare, hcurly]

/-- Blanks before code change nothing. -/
theorem LexState.read_trimStart {s : LexState} (hs : s.mode = .code) (t : Text) :
    s.read 0 t = s.read 0 (Text.trimStart t) := by
  obtain ⟨mode, depth, last⟩ := s
  subst hs
  induction t with
  | nil => rfl
  | cons c cs ih =>
    by_cases hc : isBlank c = true
    · have hcomment := ne_of_isBlank hc (d := '#') (by decide)
      rw [Text.trimStart, List.dropWhile_cons_of_pos hc, ← Text.trimStart, ← ih]
      simp [read, hcomment, isQuote_of_isBlank hc, hc, bracketStep, isOpening_of_isBlank hc,
        isClosing_of_isBlank hc]
    · rw [Text.trimStart, List.dropWhile_cons_of_neg hc]

namespace Carry

/-- What lies open at the end of a line keeps the statement open. -/
def Settled (c : Carry) : Prop := (c.quote.isSome = true ∨ 0 < c.depth) → c.pending = true

theorem settled_start : Settled {} := by
  simp [Settled]

theorem settled_next (c : Carry) (t : Text) : (c.next t).Settled := by
  intro h
  rcases h with h | h
  · simp only [next, finish] at h ⊢
    simp [h]
  · simp only [next, finish] at h ⊢
    simp [h]

/-- A blank line or a comment keeps the brackets open and nothing else. -/
theorem next_of_trivia {c : Carry} {t : Text} (hq : c.quote = none)
    (ht : Line.kindOf c t ≠ .code) : c.next t = ⟨c.depth, none, decide (0 < c.depth)⟩ := by
  have hread : c.start.read 0 t = c.start := by
    rw [LexState.read_trimStart (by simp [start, hq])]
    simp only [Line.kindOf, hq] at ht
    split at ht
    · simp at ht
    · split at ht
      · next h => rw [h]; rfl
      · next h => rw [h]; simp [LexState.read, start, hq]
      · simp at ht
  rw [next, hread]
  simp [finish, start, hq]

/-- What the first lines of a text hand on. -/
def after (ts : List Text) : Carry := ts.foldl next {}

theorem settled_after (ts : List Text) : (after ts).Settled := by
  rw [after]
  rcases List.eq_nil_or_concat ts with rfl | ⟨init, last, rfl⟩
  · exact settled_start
  · rw [List.concat_eq_append, List.foldl_append]
    exact settled_next _ _

end Carry

namespace Line

theorem getElem?_scan (tabWidth : Nat) (c : Carry) (ts : List Text) (i : Nat) :
    (scan tabWidth c ts)[i]? = ts[i]?.map (ofText tabWidth ((ts.take i).foldl Carry.next c)) := by
  induction ts generalizing c i with
  | nil => simp [scan]
  | cons t ts ih =>
    cases i with
    | zero => simp [scan]
    | succ i => simp [scan, ih]

theorem scan_append (tabWidth : Nat) (c : Carry) (ts us : List Text) :
    scan tabWidth c (ts ++ us) = scan tabWidth c ts ++ scan tabWidth (ts.foldl Carry.next c) us := by
  induction ts generalizing c with
  | nil => rfl
  | cons t ts ih => simp [scan, ih]

theorem length_scan (tabWidth : Nat) (c : Carry) (ts : List Text) :
    (scan tabWidth c ts).length = ts.length := by
  induction ts generalizing c with
  | nil => rfl
  | cons t ts ih => simp [scan, ih]

end Line

namespace Source

/-- Each line goes on exactly when the line before it is still open. Trivia open nothing, and what
starts a statement is not blank. -/
structure Linked (s : Source) : Prop where
  next : ∀ i, i + 1 < s.size → s.has Line.continuation (i + 1) = s.has Line.continues i
  trivia : ∀ i, s.has Line.isTrivia i = true → s.has Line.continuation i = false →
    s.has Line.continues i = false
  written : ∀ (i : Nat) (line : Line), s.lines[i]? = some line → line.startsStatement = true →
    Text.blank line.text = false

theorem linked_ofText (tabWidth : Nat) (t : Text) : (ofText tabWidth t).Linked := by
  have hget : ∀ i, (ofText tabWidth t).lines[i]? =
      t.lines[i]?.map (Line.ofText (max tabWidth 1) (Carry.after (t.lines.take i))) := by
    intro i
    rw [ofText, Line.getElem?_scan, Carry.after]
  have hsize : (ofText tabWidth t).size = t.lines.length := by
    rw [size, ofText, Line.length_scan]
  constructor
  · intro i hi
    rw [hsize] at hi
    have htake : t.lines.take (i + 1) = t.lines.take i ++ [t.lines[i]] := by simp
    rw [has, has, hget, hget, htake, List.getElem?_eq_getElem hi,
      List.getElem?_eq_getElem (by omega)]
    simp only [Option.map_some, Option.any_some, Line.ofText, Carry.after, List.foldl_append,
      List.foldl_cons, List.foldl_nil]
  · intro i hi hfresh
    obtain ⟨line, hline, htrivia⟩ := has_eq_true.1 hi
    rw [hget, Option.map_eq_some_iff] at hline
    obtain ⟨text, htext, rfl⟩ := hline
    rw [has, hget, htext] at hfresh ⊢
    simp only [Option.map_some, Option.any_some, Line.ofText] at hfresh ⊢
    simp only [Line.isTrivia, Line.ofText, Bool.and_eq_true, Bool.not_eq_true',
      Option.isSome_eq_false_iff, Option.isNone_iff_eq_none, bne_iff_ne, ne_eq] at htrivia
    have hdepth : (Carry.after (t.lines.take i)).depth = 0 := by
      have := mt (Carry.settled_after (t.lines.take i)) (by simp [hfresh])
      omega
    simp [Carry.next_of_trivia htrivia.1 htrivia.2, hdepth]
  · intro i line hline hstart
    rw [hget, Option.map_eq_some_iff] at hline
    obtain ⟨text, -, rfl⟩ := hline
    simp only [Line.startsStatement, Line.ofText, Bool.and_eq_true, beq_iff_eq,
      Bool.not_eq_true'] at hstart
    have hquote : (Carry.after (t.lines.take i)).quote.isSome = false := by
      cases hq : (Carry.after (t.lines.take i)).quote.isSome with
      | false => rfl
      | true => simp [Carry.settled_after _ (.inl hq)] at hstart
    have hcode := hstart.1
    cases hb : Text.blank text with
    | false => exact hb
    | true =>
      have hnil : Text.trimStart text = [] := by
        rw [← List.isEmpty_iff, Text.trimStart, Text.isEmpty_dropWhile, hb]
      simp [Line.kindOf, hquote, hnil] at hcode

end Source
end Offload
