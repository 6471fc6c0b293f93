import Offload.Proofs.Bracket

/-!
Texts of expressions: every bracket is closed by its own, and every string literal is closed. A text
of this kind whose literals hold no brackets, no colons and no quotes of their own is read alike by a
reader that knows of literals and by one that only counts brackets or pairs quotes.
-/
namespace Offload.Text

/-! String literals. -/

/-- What may stand between single quotes: the quote itself only behind a backslash. -/
inductive Quotable (quote : Char) : Text → Prop
  | nil : Quotable quote []
  | escape {c : Char} {t : Text} : Quotable quote t → Quotable quote ('\\' :: c :: t)
  | char {c : Char} {t : Text} : c ≠ '\\' → c ≠ quote → Quotable quote t → Quotable quote (c :: t)

/-- What may stand between triple quotes: three quotes, the closing ones included, begin nowhere. -/
inductive TripleQuotable (quote : Char) : Text → Prop
  | nil : TripleQuotable quote []
  | escape {c : Char} {t : Text} : TripleQuotable quote t → TripleQuotable quote ('\\' :: c :: t)
  | char {c : Char} {t : Text} : c ≠ '\\' →
      startsWith [quote, quote, quote] (c :: (t ++ [quote, quote, quote])) = false →
      TripleQuotable quote t → TripleQuotable quote (c :: t)

/-- A whole string literal, with its quotes. -/
inductive IsLiteral : Text → Prop
  | single {quote : Char} {body : Text} : isQuote quote = true → Quotable quote body →
      IsLiteral (quote :: (body ++ [quote]))
  | triple {quote : Char} {body : Text} : isQuote quote = true → TripleQuotable quote body →
      IsLiteral (quote :: quote :: quote :: (body ++ [quote, quote, quote]))

/-! Closed texts. -/

/-- Brackets are nested and literals closed. The text stands inside brackets or not; `admits` tells
which characters there may be, in both places, and inside brackets it tells that of literals too.
The literals are listed, each with the place where it stands. -/
inductive Closed (admits : Bool → Char → Bool) : Bool → List (Bool × Text) → Text → Prop
  | nil {inside : Bool} : Closed admits inside [] []
  | char {inside : Bool} {literals : List (Bool × Text)} {c : Char} {t : Text} :
      isOpening c = false → isClosing c = false → isQuote c = false → admits inside c = true →
      Closed admits inside literals t → Closed admits inside literals (c :: t)
  | literal {inside : Bool} {literals : List (Bool × Text)} {l t : Text} : IsLiteral l →
      (inside = true → l.all (admits true) = true) →
      -- Two quotes before a third are no empty literal.
      (l.length = 2 → t.head? ≠ l.head?) →
      Closed admits inside literals t → Closed admits inside ((inside, l) :: literals) (l ++ t)
  | group {inside : Bool} {inner literals : List (Bool × Text)} {c : Char} {u t : Text} :
      isOpening c = true → Closed admits true inner u → Closed admits inside literals t →
      Closed admits inside (inner ++ literals) (c :: (u ++ closingOf c :: t))

theorem Closed.plain_append {admits : Bool → Char → Bool} {inside : Bool}
    {literals : List (Bool × Text)} {p t : Text}
    (hp : p.all fun c => !isOpening c && !isClosing c && !isQuote c && admits inside c)
    (ht : Closed admits inside literals t) : Closed admits inside literals (p ++ t) := by
  induction p with
  | nil => exact ht
  | cons c p ih =>
    simp only [List.all_cons, Bool.and_eq_true, Bool.not_eq_true'] at hp
    obtain ⟨⟨⟨⟨hopen, hclose⟩, hquote⟩, hadmits⟩, hrest⟩ := hp
    exact .char hopen hclose hquote hadmits (ih hrest)

/-- A literal that is read alike with and without knowing of literals: it holds no brackets, outside
brackets no colon, and between triple quotes no quote of its own. -/
structure PlainLiteral (inside : Bool) (l : Text) : Prop where
  unbracketed : ∀ c ∈ l, isOpening c = false ∧ isClosing c = false
  colon : inside = false → ':' ∉ l
  quotes : ∃ quote body, isQuote quote = true ∧ Quotable quote body ∧
    (l = quote :: (body ++ [quote]) ∨
      l = quote :: quote :: quote :: (body ++ [quote, quote, quote]))

/-! Quotes, taken one by one. -/

/-- The quote that is open behind one more character, and whether a backslash takes the next one. -/
def quoteStep : Option Char × Bool → Char → Option Char × Bool
  | (some quote, escaped), c =>
    (if !escaped && c == quote then none else some quote, !escaped && c == '\\')
  | (none, _), c => (if isQuote c then some c else none, false)

def quotesAfter (state : Option Char × Bool) (t : Text) : Option Char × Bool :=
  t.foldl quoteStep state

variable {t u : Text} {c : Char}

theorem quotesAfter_cons (state : Option Char × Bool) (c : Char) (t : Text) :
    quotesAfter state (c :: t) = quotesAfter (quoteStep state c) t := rfl

theorem quotesAfter_append (state : Option Char × Bool) (t u : Text) :
    quotesAfter state (t ++ u) = quotesAfter (quotesAfter state t) u := List.foldl_append

/-- A comment starts at a `#` behind which no quote is open. -/
theorem beforeComment?_cons (state : Option Char × Bool) (c : Char) (t : Text) :
    beforeComment? state.1 state.2 (c :: t) =
      if state.1 = none ∧ c = '#' then some []
      else (beforeComment? (quoteStep state c).1 (quoteStep state c).2 t).map (c :: ·) := by
  obtain ⟨quote, escaped⟩ := state
  cases quote with
  | some quote => simp [beforeComment?, quoteStep]
  | none =>
    by_cases hquote : isQuote c = true
    · have hne : c ≠ '#' := by
        rintro rfl
        simp [isQuote] at hquote
      simp [beforeComment?, quoteStep, hquote, hne]
    · simp [beforeComment?, quoteStep, hquote]

theorem beforeComment?_eq_none_iff (state : Option Char × Bool) :
    beforeComment? state.1 state.2 t = none ↔
      ∀ a b, t = a ++ '#' :: b → (quotesAfter state a).1.isSome = true := by
  induction t generalizing state with
  | nil => simp [beforeComment?]
  | cons c cs ih =>
    rw [beforeComment?_cons]
    constructor
    · intro h a b heq
      split at h
      · simp at h
      · next hc =>
        rw [Option.map_eq_none_iff, ih] at h
        cases a with
        | nil =>
          obtain rfl := (List.cons.inj heq).1
          simpa [quotesAfter, Option.ne_none_iff_isSome] using hc
        | cons d a =>
          obtain ⟨rfl, hcs⟩ := List.cons.inj heq
          exact h a b hcs
    · intro h
      have hc : ¬ (state.1 = none ∧ c = '#') := by
        intro hc
        have hopen := h [] cs (by rw [hc.2]; rfl)
        simp [quotesAfter, hc.1] at hopen
      rw [if_neg hc, Option.map_eq_none_iff, ih]
      intro a b hcs
      exact h (c :: a) b (by rw [hcs]; rfl)

theorem beforeComment?_append (state : Option Char × Bool)
    (h : beforeComment? state.1 state.2 t = none) (u : Text) :
    beforeComment? state.1 state.2 (t ++ u) =
      (beforeComment? (quotesAfter state t).1 (quotesAfter state t).2 u).map (t ++ ·) := by
  induction t generalizing state with
  | nil => simp [quotesAfter]
  | cons c cs ih =>
    rw [beforeComment?_cons] at h
    rw [List.cons_append, beforeComment?_cons]
    split at h
    · simp at h
    · next hc =>
      rw [if_neg hc, ih _ (Option.map_eq_none_iff.1 h), Option.map_map]
      rfl

/-- Quotes are paired in the text, and a comment starts nowhere in it. -/
structure Passes (t : Text) : Prop where
  comment : beforeComment? none false t = none
  quotes : quotesAfter (none, false) t = (none, false)

theorem passes_nil : Passes [] := ⟨rfl, rfl⟩

theorem Passes.append (ht : Passes t) (hu : Passes u) : Passes (t ++ u) where
  comment := by
    have happend := beforeComment?_append (none, false) ht.comment u
    rw [ht.quotes, hu.comment] at happend
    exact happend
  quotes := by rw [quotesAfter_append, ht.quotes, hu.quotes]

theorem passes_singleton (hquote : isQuote c = false) (hcomment : c ≠ '#') : Passes [c] where
  comment := by simp [beforeComment?, hquote, hcomment]
  quotes := by simp [quotesAfter, quoteStep, hquote]

/-- Between single quotes the quote stays open. -/
theorem Quotable.quotesAfter {quote : Char} (h : Quotable quote t) (hquote : isQuote quote = true) :
    beforeComment? (some quote) false t = none ∧
      Text.quotesAfter (some quote, false) t = (some quote, false) := by
  have hbackslash : ('\\' == quote) = false := by
    rw [beq_eq_false_iff_ne]
    rintro rfl
    simp [isQuote] at hquote
  induction h with
  | nil => exact ⟨rfl, rfl⟩
  | escape _ ih =>
    obtain ⟨hcomment, hquotes⟩ := ih
    constructor
    · simp [beforeComment?, hbackslash, hcomment]
    · rw [quotesAfter_cons, quotesAfter_cons]
      simpa [quoteStep, hbackslash] using hquotes
  | char hne hother _ ih =>
    obtain ⟨hcomment, hquotes⟩ := ih
    have hplain := beq_eq_false_iff_ne.2 hne
    constructor
    · simp [beforeComment?, hplain, hother, hcomment]
    · rw [quotesAfter_cons]
      simpa [quoteStep, hplain, hother] using hquotes

theorem passes_single {quote : Char} {body : Text} (hquote : isQuote quote = true)
    (h : Quotable quote body) : Passes (quote :: (body ++ [quote])) := by
  have hbackslash : quote ≠ '\\' := by
    rintro rfl
    simp [isQuote] at hquote
  obtain ⟨hcomment, hquotes⟩ := h.quotesAfter hquote
  constructor
  · have happend := beforeComment?_append (some quote, false) hcomment [quote]
    rw [hquotes] at happend
    simp only [beforeComment?, hquote, if_true, happend]
    simp
  · rw [quotesAfter_cons, quotesAfter_append]
    simp only [quoteStep, hquote, if_true, hquotes]
    simp [Text.quotesAfter, quoteStep, hbackslash]

theorem PlainLiteral.passes {inside : Bool} {l : Text} (h : PlainLiteral inside l) : Passes l := by
  obtain ⟨quote, body, hquote, hbody, rfl | rfl⟩ := h.quotes
  · exact passes_single hquote hbody
  · -- Taken one by one, three quotes are an empty literal and the quote of the next one.
    have hempty := passes_single hquote .nil
    have hparts := (hempty.append (passes_single hquote hbody)).append hempty
    simpa using hparts

/-! Brackets, counted in literals too. -/

theorem depthAfter_append (depth : Nat) (t u : Text) :
    depthAfter depth (t ++ u) = depthAfter (depthAfter depth t) u := List.foldl_append

/-- All brackets counted, those in literals too, the text closes those that were open before and
its own, and no others. Its separators stand behind open brackets. -/
structure Sealed (separators : Text) (depth : Nat) (t : Text) : Prop where
  inside : ∀ a c b, t = a ++ c :: b → isClosing c = true ∨ c ∈ separators →
    0 < depthAfter depth a
  closed : depthAfter depth t = 0

/-- A literal that is no different from other text if brackets are counted: it holds none of them
and, outside brackets, no separator. -/
structure Unmistaken (separators : Text) (inside : Bool) (l : Text) : Prop where
  unbracketed : ∀ c ∈ l, isOpening c = false ∧ isClosing c = false
  apart : inside = false → ∀ c ∈ separators, c ∉ l

theorem PlainLiteral.unmistaken {inside : Bool} {l : Text} (h : PlainLiteral inside l) :
    Unmistaken [':'] inside l :=
  ⟨h.unbracketed, fun hinside => by simpa using h.colon hinside⟩

section

variable {separators : Text} {depth : Nat}

theorem sealed_nil : Sealed separators depth [] ↔ depth = 0 :=
  ⟨fun h => h.closed, fun h => ⟨by simp, h⟩⟩

theorem sealed_cons : Sealed separators depth (c :: t) ↔
    (isClosing c = true ∨ c ∈ separators → 0 < depth) ∧
      Sealed separators (bracketStep depth c) t := by
  constructor
  · intro h
    exact ⟨h.inside [] c t rfl, fun a d b ht => h.inside (c :: a) d b (by rw [ht]; rfl), h.closed⟩
  · rintro ⟨hc, ht⟩
    refine ⟨fun a d b heq => ?_, ht.closed⟩
    cases a with
    | nil =>
      obtain ⟨rfl, -⟩ := List.cons.inj heq
      exact hc
    | cons x a =>
      obtain ⟨rfl, htail⟩ := List.cons.inj heq
      exact ht.inside a d b htail

/-- Outside brackets, a text is sealed if its parts are. -/
theorem sealed_append_iff (h : depthAfter depth t = 0) :
    Sealed separators depth (t ++ u) ↔ Sealed separators depth t ∧ Sealed separators 0 u := by
  induction t generalizing depth with
  | nil =>
    obtain rfl : depth = 0 := h
    simp [sealed_nil]
  | cons c cs ih => rw [List.cons_append, sealed_cons, sealed_cons, ih h, and_assoc]

theorem sealed_plain_append (h : ∀ c ∈ t, isOpening c = false ∧ isClosing c = false) :
    Sealed separators depth (t ++ u) ↔
      (∀ c ∈ separators, c ∈ t → 0 < depth) ∧ Sealed separators depth u := by
  induction t with
  | nil => simp
  | cons c cs ih =>
    obtain ⟨⟨hopen, hclose⟩, hcs⟩ := List.forall_mem_cons.1 h
    rw [List.cons_append, sealed_cons, bracketStep_of_plain hopen hclose, ih hcs, ← and_assoc]
    refine and_congr_left fun _ => ?_
    simp only [hclose, Bool.false_eq_true, false_or, List.mem_cons]
    grind

end

/-! Closed texts whose literals are plain. -/

section

variable {admits : Bool → Char → Bool} {inside : Bool} {literals : List (Bool × Text)}
  {separators : Text}

/-- An opening bracket and the one that closes it. -/
theorem closingOf_of_isOpening (h : isOpening c = true) :
    (c = '(' ∧ closingOf c = ')') ∨ (c = '[' ∧ closingOf c = ']') ∨
      (c = '\x7b' ∧ closingOf c = '\x7d') := by
  simp only [isOpening, Bool.or_eq_true, beq_iff_eq] at h
  rcases h with (rfl | rfl) | rfl <;> decide

theorem bracketStep_closingOf (h : isOpening c = true) (depth : Nat) :
    bracketStep (bracketStep depth c) (closingOf c) = depth := by
  rcases closingOf_of_isOpening h with ⟨rfl, hclose⟩ | ⟨rfl, hclose⟩ | ⟨rfl, hclose⟩ <;>
    simp [hclose, bracketStep, isOpening, isClosing]

theorem passes_bracket (h : isOpening c = true) : Passes [c] ∧ Passes [closingOf c] := by
  rcases closingOf_of_isOpening h with ⟨rfl, hclose⟩ | ⟨rfl, hclose⟩ | ⟨rfl, hclose⟩ <;>
    rw [hclose] <;> exact ⟨⟨rfl, rfl⟩, ⟨rfl, rfl⟩⟩

/-- A closed text is read over without a comment. -/
theorem Closed.passes (h : Closed admits inside literals t)
    (hcomment : ∀ inside, admits inside '#' = false)
    (hplain : ∀ l ∈ literals, PlainLiteral l.1 l.2) : Passes t := by
  induction h with
  | nil => exact passes_nil
  | char _ _ hquote hadmits _ ih =>
    refine (passes_singleton hquote ?_).append (ih hplain)
    rintro rfl
    rw [hcomment] at hadmits
    simp at hadmits
  | literal _ _ _ _ ih =>
    obtain ⟨hl, hrest⟩ := List.forall_mem_cons.1 hplain
    exact hl.passes.append (ih hrest)
  | group hopen _ _ ihinner ih =>
    obtain ⟨hinner, hrest⟩ := List.forall_mem_append.1 hplain
    obtain ⟨hbracket, hclose⟩ := passes_bracket hopen
    have hgroup := hbracket.append ((ihinner hinner).append (hclose.append (ih hrest)))
    exact hgroup

/-- A closed text whose literals are unmistaken changes nothing for a text behind it. -/
theorem Closed.sealed_append (h : Closed admits inside literals t)
    (hadmits : ∀ c ∈ separators, admits false c = false)
    (hplain : ∀ c ∈ separators, isOpening c = false ∧ isClosing c = false)
    (hliterals : ∀ l ∈ literals, Unmistaken separators l.1 l.2) {depth : Nat}
    (hdepth : inside = true → 0 < depth) (hu : Sealed separators depth u) :
    Sealed separators depth (t ++ u) := by
  induction h generalizing depth u with
  | nil => exact hu
  | @char inside _ c t hopen hclose _ hc _ ih =>
    refine sealed_cons.2 ⟨fun hmark => ?_, ?_⟩
    · cases inside with
      | true => exact hdepth rfl
      | false =>
        rcases hmark with hmark | hmark
        · simp [hclose] at hmark
        · simp [hadmits c hmark] at hc
    · rw [bracketStep_of_plain hopen hclose]
      exact ih hliterals hdepth hu
  | @literal inside _ l t _ _ _ _ ih =>
    obtain ⟨hl, hrest⟩ := List.forall_mem_cons.1 hliterals
    rw [List.append_assoc, sealed_plain_append hl.unbracketed]
    refine ⟨fun c hmem hc => ?_, ih hrest hdepth hu⟩
    cases inside with
    | true => exact hdepth rfl
    | false => exact absurd hc (hl.apart rfl c hmem)
  | @group _ _ _ c v t hopen _ _ ihinner ih =>
    obtain ⟨hinner, hrest⟩ := List.forall_mem_append.1 hliterals
    have hstep : bracketStep depth c = depth + 1 := if_pos hopen
    have hclose : isClosing c = false := by
      rcases closingOf_of_isOpening hopen with ⟨rfl, -⟩ | ⟨rfl, -⟩ | ⟨rfl, -⟩ <;> rfl
    have hgroup : Sealed separators (depth + 1) (v ++ closingOf c :: (t ++ u)) := by
      refine ihinner hinner (fun _ => Nat.succ_pos depth) (sealed_cons.2 ⟨?_, ?_⟩)
      · exact fun _ => Nat.succ_pos depth
      · rw [← hstep, bracketStep_closingOf hopen]
        exact ih hrest hdepth hu
    rw [List.cons_append, List.append_assoc]
    refine sealed_cons.2 ⟨fun hmark => ?_, ?_⟩
    · rcases hmark with hmark | hmark
      · simp [hclose] at hmark
      · simp [(hplain c hmark).1] at hopen
    · rw [hstep]
      exact hgroup

theorem Closed.sealed (h : Closed admits false literals t)
    (hadmits : ∀ c ∈ separators, admits false c = false)
    (hplain : ∀ c ∈ separators, isOpening c = false ∧ isClosing c = false)
    (hliterals : ∀ l ∈ literals, Unmistaken separators l.1 l.2) : Sealed separators 0 t := by
  have happend := h.sealed_append hadmits hplain hliterals (by simp) (sealed_nil.2 rfl)
  rwa [List.append_nil] at happend

end

end Offload.Text
