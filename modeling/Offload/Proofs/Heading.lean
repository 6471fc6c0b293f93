import Offload.Proofs.Expression
import Offload.Proofs.Inline

/-!
Headers that are written down and read again. The target and the iterable of a loop are found by
counting brackets, and a comment by pairing quotes; neither knows of the other. A header is read as
it was written exactly if counting and pairing, with the brackets, colons and quotes inside literals
taken for what they look like, lead to the end of the iterable.
-/
namespace Offload

namespace Text

/-! Marks outside brackets. -/

/-- The text around the first occurrence of a mark outside all brackets. -/
structure FirstOutside (mark : Text) (depth : Nat) (t before rest : Text) : Prop where
  eq : t = before ++ (mark ++ rest)
  outside : depthAfter depth before = 0
  first : ∀ u w, t = u ++ (mark ++ w) → depthAfter depth u = 0 → before.length ≤ u.length

/-- The mark does not start with a bracket. -/
def PlainHead (mark : Text) : Prop :=
  ∃ m ms, mark = m :: ms ∧ isOpening m = false ∧ isClosing m = false

section

variable {mark t before rest : Text} {depth : Nat} {c : Char}

theorem cutAtDepth?_cons (hmark : PlainHead mark) (depth : Nat) (c : Char) (t : Text) :
    cutAtDepth? mark depth (c :: t) =
      ((if depth = 0 then after? mark (c :: t) else none).map ([], ·)).or
        ((cutAtDepth? mark (bracketStep depth c) t).map fun p => (c :: p.1, p.2)) := by
  obtain ⟨m, ms, rfl, hopen, hclose⟩ := hmark
  rw [cutAtDepth?]
  cases hbracket : isOpening c || isClosing c with
  | true =>
    have hne : m ≠ c := by
      rintro rfl
      simp [hopen, hclose] at hbracket
    simp [after?, hne]
  | false =>
    rw [Bool.or_eq_false_iff] at hbracket
    rw [bracketStep_of_plain hbracket.1 hbracket.2]
    cases (if depth = 0 then after? (m :: ms) (c :: t) else none) <;> rfl

theorem firstOutside_cons_iff (h : ¬ (depth = 0 ∧ ∃ w, c :: t = mark ++ w)) :
    FirstOutside mark depth (c :: t) before rest ↔
      ∃ front, before = c :: front ∧ FirstOutside mark (bracketStep depth c) t front rest := by
  constructor
  · intro hfirst
    cases before with
    | nil => exact absurd ⟨hfirst.outside, rest, hfirst.eq⟩ h
    | cons d front =>
      obtain ⟨rfl, heq⟩ := List.cons.inj hfirst.eq
      refine ⟨front, rfl, heq, hfirst.outside, fun u w hu hdepth => ?_⟩
      have hlength := hfirst.first (c :: u) w (by rw [hu]; rfl) hdepth
      simpa using hlength
  · intro hcons
    obtain ⟨front, rfl, hfirst⟩ := hcons
    refine ⟨by rw [hfirst.eq]; rfl, hfirst.outside, fun u w hu hdepth => ?_⟩
    cases u with
    | nil => exact absurd ⟨hdepth, w, hu⟩ h
    | cons d u =>
      obtain ⟨rfl, htail⟩ := List.cons.inj hu
      have hlength := hfirst.first u w htail hdepth
      simpa using hlength

theorem cutAtDepth?_eq_some_iff (hmark : PlainHead mark) :
    cutAtDepth? mark depth t = some (before, rest) ↔ FirstOutside mark depth t before rest := by
  induction t generalizing depth before with
  | nil =>
    obtain ⟨m, ms, rfl, -⟩ := hmark
    constructor
    · intro h
      simp [cutAtDepth?] at h
    · intro h
      have heq := h.eq
      simp at heq
  | cons c cs ih =>
    rw [cutAtDepth?_cons hmark]
    by_cases hhere : depth = 0 ∧ ∃ w, c :: cs = mark ++ w
    · obtain ⟨rfl, w, hw⟩ := hhere
      rw [if_pos rfl, after?_eq_some_iff.2 hw]
      simp only [Option.map_some, Option.some_or, Option.some.injEq, Prod.mk.injEq]
      constructor
      · intro h
        obtain ⟨rfl, rfl⟩ := h
        exact ⟨hw, rfl, fun u _ _ _ => Nat.zero_le _⟩
      · intro h
        have hlength := h.first [] w hw rfl
        obtain rfl : before = [] := List.length_eq_zero_iff.1 (Nat.le_zero.1 hlength)
        have heq := h.eq
        rw [hw] at heq
        exact ⟨rfl, List.append_cancel_left heq⟩
    · have hnone : (if depth = 0 then after? mark (c :: cs) else none) = none := by
        split
        · next hzero =>
          rw [Option.eq_none_iff_forall_ne_some]
          intro w hw
          exact hhere ⟨hzero, w, after?_eq_some_iff.1 hw⟩
        · rfl
      rw [hnone, firstOutside_cons_iff hhere]
      simp only [Option.map_none, Option.none_or, Option.map_eq_some_iff, Prod.exists,
        Prod.mk.injEq]
      constructor
      · intro h
        obtain ⟨front, behind, hcut, rfl, rfl⟩ := h
        exact ⟨front, rfl, ih.1 hcut⟩
      · intro h
        obtain ⟨front, rfl, hfirst⟩ := h
        exact ⟨front, rest, ih.2 hfirst, rfl, rfl⟩

end

/-! What a reader of headers makes of an iterable. -/

/-- Counting brackets and pairing quotes leads to the end of the text, whatever its literals hold. -/
structure Legible (t : Text) : Prop where
  /-- A `#` stands behind an open quote. -/
  comment : ∀ a b, t = a ++ '#' :: b → (quotesAfter (none, false) a).1.isSome = true
  /-- A colon stands behind an open bracket. -/
  colon : ∀ a b, t = a ++ ':' :: b → 0 < depthAfter 0 a
  closed : depthAfter 0 t = 0

variable {t rest : Text}

/-- A mark that starts in a text, and not only behind it, reaches over the rest of the text. -/
theorem exists_overlap {mark u w x : Text} (h : t ++ (mark ++ x) = u ++ (mark ++ w))
    (hlength : ¬ t.length ≤ u.length) :
    ∃ c, c ≠ [] ∧ t = u ++ c ∧ mark ++ w = c ++ (mark ++ x) := by
  rcases List.append_eq_append_iff.1 h with ⟨c, hc, -⟩ | ⟨c, hc, hw⟩
  · rw [hc, List.length_append] at hlength
    omega
  · refine ⟨c, ?_, hc, hw⟩
    rintro rfl
    rw [hc, List.append_nil] at hlength
    omega

/-- The colon behind a text is the first one outside brackets. -/
theorem firstOutside_colon_iff :
    FirstOutside [':'] 0 (t ++ ':' :: rest) t rest ↔
      (∀ a b, t = a ++ ':' :: b → 0 < depthAfter 0 a) ∧ depthAfter 0 t = 0 := by
  constructor
  · intro h
    refine ⟨fun a b heq => ?_, h.outside⟩
    by_contra hdepth
    have hlength := h.first a (b ++ ':' :: rest) (by rw [heq]; simp) (by omega)
    rw [heq, List.length_append, List.length_cons] at hlength
    omega
  · intro h
    refine ⟨rfl, h.2, fun u w hu hdepth => ?_⟩
    by_contra hlength
    obtain ⟨c, hne, hc, hw⟩ := exists_overlap (show t ++ ([':'] ++ rest) = _ from hu) hlength
    obtain ⟨d, c, rfl⟩ := List.exists_cons_of_ne_nil hne
    obtain rfl : ':' = d := (List.cons.inj hw).1
    have hpos := h.1 u c hc
    omega

/-- The text neither starts nor ends with the word `in`, which blanks around it would complete. -/
structure StandsFree (t : Text) : Prop where
  word : t ≠ "in".toList
  front : ∀ b, t ≠ "in " ++ b
  back : ∀ a : Text, t ≠ a ++ " in"

/-- Where the mark stands behind a text, it can only start in that text with its own beginning. -/
theorem eq_of_mark_append_eq {c w x : Text} (hne : c ≠ [])
    (h : (" in " : Text) ++ w = c ++ (" in " ++ x)) :
    c = " in".toList ∨ ∃ d : Text, c = " in " ++ d := by
  match c, hne, h with
  | [_], _, h => simp at h
  | [_, _], _, h => simp at h
  | [_, _, _], _, h =>
    simp only [String.reduceToList, List.cons_append, List.nil_append, List.cons.injEq] at h
    obtain ⟨rfl, rfl, rfl, -⟩ := h
    exact .inl rfl
  | _ :: _ :: _ :: _ :: d, _, h =>
    simp only [String.reduceToList, List.cons_append, List.cons.injEq] at h
    obtain ⟨rfl, rfl, rfl, rfl, -⟩ := h
    exact .inr ⟨d, rfl⟩

/-- Between blanks, the mark behind a text is the first one outside brackets. -/
theorem firstOutside_in_iff {x : Text} (hclosed : depthAfter 0 t = 0)
    (hwhole : ∀ a b : Text, t = a ++ (" in " ++ b) → 0 < depthAfter 0 a) :
    FirstOutside " in " 0 (' ' :: (t ++ (" in " ++ x))) (' ' :: t) x ↔ StandsFree t := by
  constructor
  · intro h
    refine ⟨fun heq => ?_, fun b heq => ?_, fun a heq => ?_⟩
    · have hlength := h.first [] ("in " ++ x) (by rw [heq]; rfl) rfl
      simp at hlength
    · have hlength := h.first [] (b ++ (" in " ++ x)) (by rw [heq]; rfl) rfl
      simp at hlength
    · have hfront : depthAfter 0 (' ' :: a) = 0 := by
        rw [heq, depthAfter_append] at hclosed
        exact hclosed
      have hlength := h.first (' ' :: a) ("in " ++ x) (by rw [heq]; simp) hfront
      rw [heq] at hlength
      simp only [List.length_cons, List.length_append, String.reduceToList,
        List.length_nil] at hlength
      omega
  · intro h
    refine ⟨rfl, hclosed, fun u w hu hdepth => ?_⟩
    by_contra hlength
    obtain ⟨c, hne, hc, hw⟩ :=
      exists_overlap (show (' ' :: t) ++ (" in " ++ x) = _ from hu) hlength
    rcases eq_of_mark_append_eq hne hw with rfl | ⟨d, rfl⟩
    · cases u with
      | nil => exact h.word (List.cons.inj hc).2
      | cons e u => exact h.back u (List.cons.inj hc).2
    · cases u with
      | nil => exact h.front d (List.cons.inj hc).2
      | cons e u =>
        obtain ⟨rfl, htail⟩ := List.cons.inj hc
        have hpos := hwhole u d htail
        have hzero : depthAfter 0 u = 0 := hdepth
        omega

/-- Before a comment there is none. -/
theorem beforeComment?_of_beforeComment? (state : Option Char × Bool) {code : Text}
    (h : beforeComment? state.1 state.2 t = some code) :
    beforeComment? state.1 state.2 code = none := by
  induction t generalizing state code with
  | nil => simp [beforeComment?] at h
  | cons c cs ih =>
    rw [beforeComment?_cons] at h
    split at h
    · obtain rfl := Option.some.inj h
      rfl
    · next hc =>
      obtain ⟨front, hfront, rfl⟩ := Option.map_eq_some_iff.1 h
      rw [beforeComment?_cons, if_neg hc, ih _ hfront]
      rfl

theorem beforeComment?_of_append {u : Text} (h : beforeComment? none false (t ++ u) = none) :
    beforeComment? none false t = none := by
  apply (beforeComment?_eq_none_iff (none, false)).2
  intro a b heq
  apply (beforeComment?_eq_none_iff (none, false)).1 h a (b ++ u)
  rw [heq]
  simp

theorem beforeComment?_withoutComment (t : Text) :
    beforeComment? none false (withoutComment t) = none := by
  unfold withoutComment
  split
  · next code hcode =>
    have hnone := beforeComment?_of_beforeComment? (none, false) hcode
    obtain ⟨tail, htail⟩ := exists_dropEndWhile_append isBlank code
    rw [htail] at hnone
    exact beforeComment?_of_append hnone
  · next hnone => exact hnone

/-- A comment is cut off behind what holds none. -/
theorem exists_withoutComment_append_cons {c : Char} (h : beforeComment? none false t = none)
    (hblank : isBlank c = false) (hcomment : c ≠ '#') (u : Text) :
    ∃ v, withoutComment (t ++ c :: u) = t ++ c :: v := by
  have happend := beforeComment?_append (none, false) h (c :: u)
  rw [beforeComment?_cons, if_neg fun hc => hcomment hc.2] at happend
  unfold withoutComment
  split
  · next code hcode =>
    rw [hcode, Option.map_map] at happend
    obtain ⟨front, -, hfront⟩ := Option.map_eq_some_iff.1 happend.symm
    refine ⟨trimEnd front, ?_⟩
    rw [← trimEnd_append_cons hblank, ← hfront]
    rfl
  · exact ⟨u, rfl⟩

end Text

namespace ForHeader

open Text

variable {target iterable behind : Text}

theorem ofClause?_eq_some_iff {rest : Text} {header : ForHeader} : ofClause? rest = some header ↔
    ∃ target more iterable behind, FirstOutside " in " 0 rest target more ∧
      FirstOutside [':'] 0 more iterable behind ∧ trim target ≠ [] ∧ trim iterable ≠ [] ∧
      header = ⟨trim target, trim iterable⟩ := by
  have hin : PlainHead " in " := ⟨' ', "in ".toList, rfl, rfl, rfl⟩
  have hcolon : PlainHead ":" := ⟨':', [], rfl, rfl, rfl⟩
  unfold ofClause?
  constructor
  · intro h
    obtain ⟨⟨target, more⟩, htarget, h⟩ := Option.bind_eq_some_iff.1 h
    obtain ⟨⟨iterable, behind⟩, hiterable, h⟩ := Option.bind_eq_some_iff.1 h
    dsimp only at hiterable h
    split at h
    · simp at h
    · next hne =>
      simp only [Bool.or_eq_true, List.isEmpty_iff, not_or] at hne
      exact ⟨target, more, iterable, behind, (cutAtDepth?_eq_some_iff hin).1 htarget,
        (cutAtDepth?_eq_some_iff hcolon).1 hiterable, hne.1, hne.2, (Option.some.inj h).symm⟩
  · intro h
    obtain ⟨target, more, iterable, behind, htarget, hiterable, hne, hne', rfl⟩ := h
    apply Option.bind_eq_some_iff.2
    refine ⟨(target, more), (cutAtDepth?_eq_some_iff hin).2 htarget, ?_⟩
    apply Option.bind_eq_some_iff.2
    refine ⟨(iterable, behind), (cutAtDepth?_eq_some_iff hcolon).2 hiterable, ?_⟩
    simp [hne, hne']

theorem parse?_eq_some_iff {statement : Text} {header : ForHeader} :
    parse? statement = some header ↔ ∃ c rest, isBlank c = true ∧
      withoutComment (trim statement) = "for" ++ c :: rest ∧
      ofClause? (c :: rest) = some header := by
  unfold parse?
  constructor
  · intro h
    split at h
    · next c rest hfor =>
      split at h
      · next hc => exact ⟨c, rest, hc, after?_eq_some_iff.1 hfor, h⟩
      · simp at h
    · simp at h
  · intro h
    obtain ⟨c, rest, hc, hfor, h⟩ := h
    rw [after?_eq_some_iff.2 hfor]
    simp [hc, h]

/-- The header of a loop as it is written, with what stands behind its colon. -/
def written (target iterable behind : Text) : Text :=
  "for " ++ (target ++ (" in " ++ (iterable ++ ':' :: behind)))

theorem written_eq (target iterable behind : Text) : written target iterable behind =
    "for" ++ ' ' :: (target ++ (" in " ++ (iterable ++ ':' :: behind))) := rfl

theorem written_eq_append_cons (target iterable behind : Text) : written target iterable behind =
    ("for " ++ target ++ " in " ++ iterable) ++ ':' :: behind := by
  rw [written_eq]
  simp

theorem trim_written : trim (written target iterable behind) =
    written target iterable (trimEnd behind) := by
  have hstart : trimStart (written target iterable behind) = written target iterable behind := by
    rw [written_eq]
    rfl
  rw [trim_eq, hstart, written_eq_append_cons, trimEnd_append_cons (by decide),
    ← written_eq_append_cons]

/-- A header is read as it was written if its comment, its ` in ` and its colon are found. -/
theorem parse?_written_eq_some_iff (htarget : trim target ≠ []) (hiterable : trim iterable ≠ []) :
    parse? (written target iterable behind) = some ⟨trim target, trim iterable⟩ ↔
      ∃ rest,
        withoutComment (trim (written target iterable behind)) = written target iterable rest ∧
        FirstOutside " in " 0 (' ' :: (target ++ (" in " ++ (iterable ++ ':' :: rest))))
          (' ' :: target) (iterable ++ ':' :: rest) ∧
        FirstOutside [':'] 0 (iterable ++ ':' :: rest) iterable rest := by
  rw [parse?_eq_some_iff]
  constructor
  · intro h
    obtain ⟨c, clause, -, hcode, hclause⟩ := h
    obtain ⟨target', more, iterable', rest, hin, hcolon, hne, hne', heq⟩ :=
      ofClause?_eq_some_iff.1 hclause
    obtain ⟨ht, hi⟩ := ForHeader.mk.inj heq
    obtain ⟨comment, hcomment⟩ :=
      exists_withoutComment_append (trim (written target iterable behind))
    obtain rfl := hcolon.eq
    have hall : target' ++ (" in " ++ (iterable' ++ ':' :: (rest ++ comment))) =
        (' ' :: target) ++ (" in " ++ (iterable ++ ':' :: trimEnd behind)) := by
      rw [hcode, hin.eq, trim_written, written_eq] at hcomment
      simp only [List.append_assoc] at hcomment
      have hcancel := List.append_cancel_left hcomment
      simpa using hcancel.symm
    obtain ⟨rfl, rfl, -⟩ := eq_of_append_eq hall (by rw [← ht, trim_cons_space]) hne hi.symm hne'
    have hclauseEq := hin.eq
    refine ⟨rest, ?_, ?_, hcolon⟩
    · rw [hcode, written_eq, hclauseEq]
      simp
    · rw [hclauseEq] at hin
      simpa using hin
  · intro h
    obtain ⟨rest, hcode, hin, hcolon⟩ := h
    refine ⟨' ', target ++ (" in " ++ (iterable ++ ':' :: rest)), by decide, ?_, ?_⟩
    · rw [hcode, written_eq]
    · apply ofClause?_eq_some_iff.2
      refine ⟨_, _, _, _, hin, hcolon, ?_, hiterable, ?_⟩
      · rwa [trim_cons_space]
      · rw [trim_cons_space]

/-- A target: nested brackets, no quote and no comment anywhere, and the mark behind it only inside
brackets. -/
structure IsTarget (t : Text) : Prop where
  solid : trim t ≠ []
  closed : Closed (fun _ c => c != '#' && c != '\n') false [] t
  whole : ∀ a b : Text, t = a ++ (" in " ++ b) → 0 < depthAfter 0 a

/-- An iterable: nested brackets and closed literals, and outside both no colon. -/
structure IsIterable (literals : List (Bool × Text)) (t : Text) : Prop where
  solid : trim t ≠ []
  closed : Closed (fun inside c => c != '#' && c != '\n' && (inside || c != ':')) false literals t

theorem IsTarget.passes (h : IsTarget target) : Passes target :=
  h.closed.passes (fun _ => rfl) (by simp)

theorem IsTarget.depthAfter (h : IsTarget target) : Text.depthAfter 0 target = 0 := by
  have hsealed : Sealed [] 0 target := h.closed.sealed (by simp) (by simp) (by simp)
  exact hsealed.closed

/-- An iterable whose literals are plain is read to its end. -/
theorem IsIterable.legible {literals : List (Bool × Text)} (h : IsIterable literals iterable)
    (hplain : ∀ l ∈ literals, PlainLiteral l.1 l.2) : Legible iterable := by
  have hsealed : Sealed [':'] 0 iterable :=
    h.closed.sealed (by simp) (by simp [isOpening, isClosing])
      fun l hl => (hplain l hl).unmistaken
  constructor
  · exact (beforeComment?_eq_none_iff (none, false)).1
      (h.closed.passes (fun inside => by cases inside <;> rfl) hplain).comment
  · exact fun a b heq => hsealed.inside a ':' b heq (.inr (by simp))
  · exact hsealed.closed

/-- Before the colon no comment starts but in the iterable. -/
theorem beforeComment?_header_iff (h : Passes target) :
    beforeComment? none false ("for " ++ target ++ " in " ++ iterable) = none ↔
      ∀ a b, iterable = a ++ '#' :: b → (quotesAfter (none, false) a).1.isSome = true := by
  have hfor : Passes "for " := ⟨by decide, by decide⟩
  have hin : Passes " in " := ⟨by decide, by decide⟩
  have hpasses := (hfor.append h).append hin
  have happend := beforeComment?_append (none, false) hpasses.comment iterable
  rw [hpasses.quotes] at happend
  rw [happend, Option.map_eq_none_iff]
  exact beforeComment?_eq_none_iff (none, false)

/-- A header is read back, whatever follows its colon, exactly if no word `in` at an end of the
target meets the marks, and the iterable is legible; one whose literals are plain is. -/
theorem written_read_iff_legible {literals : List (Bool × Text)} (behind : Text)
    (ht : IsTarget target) (hi : IsIterable literals iterable) :
    (parse? (written target iterable behind) = some ⟨trim target, trim iterable⟩ ↔
      StandsFree target ∧ Legible iterable) ∧
    ((∀ l ∈ literals, PlainLiteral l.1 l.2) → Legible iterable) := by
  refine ⟨?_, hi.legible⟩
  rw [parse?_written_eq_some_iff ht.solid hi.solid]
  constructor
  · intro h
    obtain ⟨rest, hcode, hin, hcolon⟩ := h
    have hfree := (firstOutside_in_iff ht.depthAfter ht.whole).1 hin
    obtain ⟨hcolons, hclosed⟩ := firstOutside_colon_iff.1 hcolon
    have hnone := beforeComment?_withoutComment (trim (written target iterable behind))
    rw [hcode, written_eq_append_cons] at hnone
    exact ⟨hfree, (beforeComment?_header_iff ht.passes).1 (beforeComment?_of_append hnone), hcolons,
      hclosed⟩
  · intro h
    obtain ⟨hfree, hlegible⟩ := h
    have hnone := (beforeComment?_header_iff ht.passes).2 hlegible.comment
    obtain ⟨rest, hcode⟩ :=
      exists_withoutComment_append_cons hnone (c := ':') (by decide) (by decide) (trimEnd behind)
    refine ⟨rest, ?_, (firstOutside_in_iff ht.depthAfter ht.whole).2 hfree,
      firstOutside_colon_iff.2 ⟨hlegible.colon, hlegible.closed⟩⟩
    rw [trim_written, written_eq_append_cons, hcode, written_eq_append_cons]

/-- The colon of a slice does not end the iterable, but one in a literal outside brackets does. -/
theorem sliceHeader_read_literalHeader_cut :
    parse? (written "i, (a, b)" "enumerate(xs[1:])" "  # walk") =
        some ⟨"i, (a, b)", "enumerate(xs[1:])"⟩ ∧
      parse? (written "x" "'a:b'" []) ≠ some ⟨"x", "'a:b'"⟩ := by
  -- Without the letter there is no word `in`.
  have hwhole : ∀ {t : Text}, 'n' ∉ t →
      ∀ a b : Text, t = a ++ (" in " ++ b) → 0 < depthAfter 0 a := by
    intro t hn a b heq
    exact absurd (by rw [heq]; simp) hn
  have hfree : ∀ {t : Text}, 'n' ∉ t → StandsFree t := by
    intro t hn
    refine ⟨?_, ?_, ?_⟩
    · rintro rfl
      simp at hn
    · rintro b rfl
      simp at hn
    · rintro a rfl
      simp at hn
  constructor
  · have htarget : IsTarget "i, (a, b)" := by
      refine ⟨by decide, ?_, hwhole (by decide)⟩
      exact .plain_append (p := "i, ".toList) (by decide)
        (.group (c := '(') rfl (.plain_append (p := "a, b".toList) (by decide) .nil) .nil)
    have hiterable : IsIterable [] "enumerate(xs[1:])" := by
      refine ⟨by decide, ?_⟩
      exact .plain_append (p := "enumerate".toList) (by decide)
        (.group (c := '(') rfl
          (.plain_append (p := "xs".toList) (by decide)
            (.group (c := '[') rfl (.plain_append (p := "1:".toList) (by decide) .nil) .nil)) .nil)
    obtain ⟨hiff, hlegible⟩ := written_read_iff_legible "  # walk" htarget hiterable
    exact hiff.2 ⟨hfree (by decide), hlegible (by simp)⟩
  · have htarget : IsTarget "x" :=
      ⟨by decide, .plain_append (p := "x".toList) (by decide) .nil, hwhole (by decide)⟩
    have hquotable : Quotable '\'' "a:b" :=
      .char (by decide) (by decide) (.char (by decide) (by decide)
        (.char (by decide) (by decide) .nil))
    have hiterable : IsIterable [(false, "'a:b'".toList)] "'a:b'" :=
      ⟨by decide, .literal (l := "'a:b'".toList) (.single rfl hquotable) (by simp) (by simp) .nil⟩
    have hiff := (written_read_iff_legible [] htarget hiterable).1
    intro h
    have hpos := (hiff.1 h).2.colon "'a" "b'" rfl
    exact absurd hpos (by decide)

end ForHeader

end Offload
