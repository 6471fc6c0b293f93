import Offload.Proofs.Detached

/-!
Tokens and the text between them. A text can be split into tokens exactly if its parentheses are
balanced. Tokens are balanced pieces without a blank or a comma outside parentheses, and splitting
is the inverse of writing tokens with blanks and commas between them.
-/
namespace Offload.Token

open Outcome

/-- What may stand between two tokens. -/
def isSeparator (c : Char) : Bool := isBlank c || c == ','

/-- A run of separators, possibly empty. -/
def isGap (t : Text) : Bool := t.all isSeparator

/-- The text, written inside `depth` parentheses, closes all of them and no more: no beginning of it
closes more than are open, and at its end none is open. -/
structure Closes (depth : Nat) (t : Text) : Prop where
  covered : ∀ front, front <+: t → front.count ')' ≤ front.count '(' + depth
  closed : t.count ')' = t.count '(' + depth

/-- No beginning of the text has more closing than opening parentheses, and the whole text has
equally many. -/
def Balanced (t : Text) : Prop := Closes 0 t

/-- No separator of the text, written inside `depth` parentheses, stands outside all of them. -/
def Solid (depth : Nat) (t : Text) : Prop :=
  ∀ front c rest, t = front ++ c :: rest → front.count ')' = front.count '(' + depth →
    isSeparator c = false

/-- A token by itself. -/
structure IsWord (t : Text) : Prop where
  nonempty : t ≠ []
  balanced : Balanced t
  solid : Solid 0 t

/-- Tokens, each with the gap behind it, after a first gap. -/
def spaced (lead : Text) (items : List (Text × Text)) : Text :=
  lead ++ items.flatMap fun item => item.1 ++ item.2

/-- The tokens are words, and gaps stand around and between them; only the outer ones may be
empty. -/
structure Spacing (lead : Text) (items : List (Text × Text)) : Prop where
  words : ∀ item ∈ items, IsWord item.1
  lead : isGap lead = true
  gaps : ∀ item ∈ items, isGap item.2 = true
  apart : ∀ item ∈ items.dropLast, item.2 ≠ []

/-! One character. -/

/-- A character takes a text from one depth of parentheses to another. -/
def Steps (depth : Nat) (c : Char) (next : Nat) : Prop :=
  [c].count ')' + next = [c].count '(' + depth

section

variable {depth next : Nat} {c : Char} {t : Text}

theorem not_paren_of_isSeparator (h : isSeparator c = true) : c ≠ '(' ∧ c ≠ ')' := by
  constructor <;> (rintro rfl; exact absurd h (by decide))

theorem closes_nil : Closes depth [] ↔ depth = 0 := by
  constructor
  · intro h
    simpa using h.closed.symm
  · rintro rfl
    exact ⟨by simp, rfl⟩

/-- A text behind a character closes as many parentheses of the depth behind it as both together
close of the depth before it. -/
theorem Steps.count_cons (h : Steps depth c next) (t : Text) :
    (c :: t).count ')' + (t.count '(' + next) = (c :: t).count '(' + depth + t.count ')' := by
  have hcount : ∀ d, (c :: t).count d = [c].count d + t.count d := by
    intro d
    rw [← List.singleton_append, List.count_append]
  have hclose := hcount ')'
  have hopen := hcount '('
  unfold Steps at h
  omega

theorem closes_cons (h : Steps depth c next) : Closes depth (c :: t) ↔ Closes next t := by
  have hcount := h.count_cons
  constructor
  · rintro ⟨hcovered, hclosed⟩
    constructor
    · intro front hfront
      have hstep := hcovered (c :: front) (List.cons_prefix_cons.2 ⟨rfl, hfront⟩)
      have := hcount front
      omega
    · have := hcount t
      omega
  · rintro ⟨hcovered, hclosed⟩
    constructor
    · intro front hfront
      cases front with
      | nil => simp
      | cons first rest =>
        obtain ⟨rfl, hrest⟩ := List.cons_prefix_cons.1 hfront
        have hstep := hcovered rest hrest
        have := hcount rest
        omega
    · have := hcount t
      omega

theorem not_closes_unexpected : ¬ Closes 0 (')' :: t) := by
  intro h
  have hfirst := h.covered [')'] (by simp)
  exact absurd hfirst (by decide)

theorem solid_cons (h : Steps depth c next) :
    Solid depth (c :: t) ↔ (depth = 0 → isSeparator c = false) ∧ Solid next t := by
  have hcount := h.count_cons
  constructor
  · intro hsolid
    refine ⟨fun hzero => hsolid [] c t rfl (by simp [hzero]), ?_⟩
    intro front d rest ht hopen
    refine hsolid (c :: front) d rest (by rw [ht, List.cons_append]) ?_
    have := hcount front
    omega
  · rintro ⟨hfirst, hsolid⟩ front d rest ht hopen
    cases front with
    | nil =>
      obtain ⟨rfl, rfl⟩ := List.cons.inj ht
      exact hfirst (by simpa using hopen.symm)
    | cons first front =>
      obtain ⟨rfl, hrest⟩ := List.cons.inj ht
      refine hsolid front d rest hrest ?_
      have := hcount front
      omega

/-- What a character does to the pieces of the text behind it: it ends a piece or belongs to the
first one, unless it closes what is not open. -/
theorem pieces_step (depth : Nat) (c : Char) :
    (depth = 0 ∧ c = ')') ∨ ∃ next, Steps depth c next ∧ ∀ cs, pieces depth (c :: cs) =
      (pieces next cs).map
        (if depth = 0 ∧ isSeparator c = true then ([] :: ·) else Text.consHead c) := by
  unfold Steps
  by_cases hopen : c = '('
  · subst hopen
    refine .inr ⟨depth + 1, by simp; omega, fun cs => ?_⟩
    have hplain : isSeparator '(' = false := by decide
    cases depth <;> simp [pieces, hplain]
  · by_cases hclose : c = ')'
    · subst hclose
      cases depth with
      | zero => exact .inl ⟨rfl, rfl⟩
      | succ depth => exact .inr ⟨depth, by simp; omega, fun cs => by simp [pieces]⟩
    · refine .inr ⟨depth, by simp [hopen, hclose], fun cs => ?_⟩
      cases depth with
      | zero =>
        simp only [pieces, hopen, hclose, if_false, isSeparator, Bool.or_eq_true, beq_iff_eq]
        split <;> rfl
      | succ depth => simp [pieces, hopen, hclose]

end

/-! Whole texts. -/

section

variable {depth : Nat} {t : Text} {e : SyntaxFault}

theorem exists_pieces_iff : (∃ ps, pieces depth t = .ok ps) ↔ Closes depth t := by
  induction t generalizing depth with
  | nil => cases depth <;> simp [pieces, closes_nil]
  | cons c cs ih =>
    rcases pieces_step depth c with ⟨rfl, rfl⟩ | ⟨next, hnext, hpieces⟩
    · simp [pieces, not_closes_unexpected]
    · rw [closes_cons hnext, ← ih, hpieces]
      constructor
      · rintro ⟨ps, hps⟩
        obtain ⟨rest, hrest, -⟩ := map_eq_ok.1 hps
        exact ⟨rest, hrest⟩
      · rintro ⟨rest, hrest⟩
        exact ⟨_, map_eq_ok.2 ⟨rest, hrest, rfl⟩⟩

theorem category_of_pieces_eq_error (h : pieces depth t = .error e) :
    e.category = .unbalancedParens := by
  induction t generalizing depth with
  | nil =>
    cases depth with
    | zero => simp [pieces] at h
    | succ depth =>
      obtain rfl : .unclosedOpen = e := by simpa [pieces] using h
      rfl
  | cons c cs ih =>
    rcases pieces_step depth c with ⟨rfl, rfl⟩ | ⟨next, -, hpieces⟩
    · obtain rfl : .unexpectedClose = e := by simpa [pieces] using h
      rfl
    · rw [hpieces] at h
      exact ih (map_eq_error.1 h)

/-- A text is one piece exactly if it closes its parentheses and has no separator outside. -/
theorem pieces_eq_self_iff : pieces depth t = .ok [t] ↔ Closes depth t ∧ Solid depth t := by
  induction t generalizing depth with
  | nil =>
    have hsolid : Solid depth [] := by
      intro front c rest ht
      simp at ht
    cases depth <;> simp [pieces, closes_nil, hsolid]
  | cons c cs ih =>
    rcases pieces_step depth c with ⟨rfl, rfl⟩ | ⟨next, hnext, hpieces⟩
    · simp [pieces, not_closes_unexpected]
    · rw [closes_cons hnext, solid_cons hnext, and_left_comm, ← ih, hpieces, map_eq_ok]
      by_cases hseparator : depth = 0 ∧ isSeparator c = true
      · simp [hseparator]
      · rw [if_neg hseparator]
        have hplain : depth = 0 → isSeparator c = false := by
          simpa using hseparator
        constructor
        · rintro ⟨ps, hps, hself⟩
          obtain ⟨head, rfl, hhead⟩ := exists_of_consHead (pieces_ne_nil hps) hself
          obtain rfl := (List.cons.inj hhead).2
          exact ⟨hplain, hps⟩
        · rintro ⟨-, hps⟩
          exact ⟨[cs], hps, rfl⟩

/-- Behind the first piece stands a separator, and then the text of the other pieces. -/
theorem eq_append_of_pieces {first : Text} {more : List Text}
    (h : pieces depth t = .ok (first :: more)) :
    (more = [] ∧ t = first) ∨ ∃ c rest, isSeparator c = true ∧ t = first ++ c :: rest ∧
      pieces 0 rest = .ok more := by
  induction t generalizing depth first with
  | nil =>
    cases depth with
    | zero =>
      obtain ⟨rfl, rfl⟩ := List.cons.inj (Except.ok.inj h)
      exact .inl ⟨rfl, rfl⟩
    | succ depth => simp [pieces] at h
  | cons c cs ih =>
    rcases pieces_step depth c with ⟨rfl, rfl⟩ | ⟨next, hnext, hpieces⟩
    · simp [pieces] at h
    · rw [hpieces] at h
      obtain ⟨ps, hps, hsame⟩ := map_eq_ok.1 h
      split at hsame
      · next hseparator =>
        obtain ⟨rfl, rfl⟩ := List.cons.inj hsame
        -- A separator leaves the depth as it is.
        obtain ⟨hopen, hclose⟩ := not_paren_of_isSeparator hseparator.2
        obtain rfl : next = 0 := by
          simpa [Steps, List.count_singleton, hopen, hclose, hseparator.1] using hnext
        exact .inr ⟨c, cs, hseparator.2, rfl, hps⟩
      · obtain ⟨head, rfl, rfl⟩ := exists_of_consHead (pieces_ne_nil hps) hsame
        rcases ih hps with ⟨hmore, hcs⟩ | ⟨d, rest, hd, hcs, hrest⟩
        · exact .inl ⟨hmore, by rw [hcs]⟩
        · exact .inr ⟨d, rest, hd, by rw [hcs, List.cons_append], hrest⟩

end

/-! Words and gaps. -/

section

variable {t gap word : Text} {c : Char} {ps tokens : List Text}

theorem isWord_iff : IsWord t ↔ t ≠ [] ∧ pieces 0 t = .ok [t] := by
  rw [pieces_eq_self_iff]
  exact ⟨fun h => ⟨h.nonempty, h.balanced, h.solid⟩, fun h => ⟨h.1, h.2.1, h.2.2⟩⟩

theorem pieces_separator (h : isSeparator c = true) (rest : Text) :
    pieces 0 (c :: rest) = (pieces 0 rest).map ([] :: ·) := by
  obtain ⟨hopen, hclose⟩ := not_paren_of_isSeparator h
  rw [isSeparator, Bool.or_eq_true, beq_iff_eq] at h
  simp [pieces, hopen, hclose, h]

theorem tokenize_gap_append (h : isGap gap = true) (t : Text) :
    tokenize (gap ++ t) = tokenize t := by
  induction gap with
  | nil => rfl
  | cons c cs ih =>
    rw [isGap, List.all_cons, Bool.and_eq_true] at h
    rw [← ih h.2, List.cons_append]
    unfold tokenize
    rw [pieces_separator h.1]
    cases pieces 0 (cs ++ t) <;> rfl

theorem tokenize_gap (h : isGap gap = true) : tokenize gap = .ok [] := by
  have hnil := tokenize_gap_append h []
  rwa [List.append_nil] at hnil

theorem tokenize_word (h : IsWord word) : tokenize word = .ok [word] := by
  obtain ⟨hne, hpieces⟩ := isWord_iff.1 h
  rw [tokenize, hpieces]
  simp [Except.map, hne]

/-- A word that a separator follows is a token in front of the others. -/
theorem tokenize_word_append (h : IsWord word) (hc : isSeparator c = true) (rest : Text) :
    tokenize (word ++ c :: rest) = (tokenize rest).map (word :: ·) := by
  obtain ⟨hne, hpieces⟩ := isWord_iff.1 h
  unfold tokenize
  rw [pieces_append hpieces, pieces_separator hc]
  cases pieces 0 rest with
  | error e => rfl
  | ok ps => simp [Except.map, foldr_consHead, hne]

theorem spaced_cons (lead : Text) (item : Text × Text) (items : List (Text × Text)) :
    spaced lead (item :: items) = lead ++ (item.1 ++ spaced item.2 items) := by
  simp [spaced]

/-- What is written with gaps is read again. -/
theorem tokenize_spaced {lead : Text} {items : List (Text × Text)} (h : Spacing lead items) :
    tokenize (spaced lead items) = .ok (items.map Prod.fst) := by
  induction items generalizing lead with
  | nil =>
    rw [spaced, List.flatMap_nil, List.append_nil]
    exact tokenize_gap h.lead
  | cons item items ih =>
    have hword := h.words item List.mem_cons_self
    have hgap := h.gaps item List.mem_cons_self
    rw [spaced_cons, tokenize_gap_append h.lead]
    cases items with
    | nil =>
      cases hbehind : item.2 with
      | nil => simpa [spaced] using tokenize_word hword
      | cons c rest =>
        rw [hbehind, isGap, List.all_cons, Bool.and_eq_true] at hgap
        rw [spaced, List.flatMap_nil, List.append_nil, tokenize_word_append hword hgap.1,
          tokenize_gap hgap.2]
        rfl
    | cons second more =>
      obtain ⟨c, rest, hbehind⟩ := List.exists_cons_of_ne_nil (h.apart item (by simp))
      rw [hbehind, isGap, List.all_cons, Bool.and_eq_true] at hgap
      have hspacing : Spacing rest (second :: more) := {
        words := fun i hi => h.words i (List.mem_cons_of_mem _ hi)
        lead := hgap.2
        gaps := fun i hi => h.gaps i (List.mem_cons_of_mem _ hi)
        apart := fun i hi => h.apart i (by simp [hi]) }
      have hcons : spaced (c :: rest) (second :: more) = c :: spaced rest (second :: more) := rfl
      rw [hbehind, hcons, tokenize_word_append hword hgap.1, ih hspacing]
      rfl

/-- A text that can be split is written with gaps between its tokens. -/
theorem exists_spacing_of_pieces (h : pieces 0 t = .ok ps) :
    ∃ lead items, Spacing lead items ∧ spaced lead items = t ∧
      items.map Prod.fst = ps.filter fun piece => !piece.isEmpty := by
  induction ps generalizing t with
  | nil => exact absurd rfl (pieces_ne_nil h)
  | cons first more ih =>
    have hfirst := (pieces_of_pieces h).1
    rcases eq_append_of_pieces h with ⟨rfl, rfl⟩ | ⟨c, rest, hc, rfl, hrest⟩
    · by_cases hnil : t = []
      · exact ⟨[], [], ⟨by simp, rfl, by simp, by simp⟩, by simp [spaced, hnil], by simp [hnil]⟩
      · have hword := isWord_iff.2 ⟨hnil, hfirst⟩
        refine ⟨[], [(t, [])], ⟨by simpa using hword, rfl, ?_, by simp⟩, by simp [spaced],
          by simp [hnil]⟩
        simp [isGap]
    · obtain ⟨lead, items, hspacing, rfl, htokens⟩ := ih hrest
      have hlead : isGap (c :: lead) = true := by
        rw [isGap, List.all_cons, hc]
        exact hspacing.lead
      by_cases hnil : first = []
      · refine ⟨c :: lead, items, ⟨hspacing.words, hlead, hspacing.gaps, hspacing.apart⟩, ?_, ?_⟩
        · simp [hnil, spaced]
        · simpa [hnil] using htokens
      · have hword := isWord_iff.2 ⟨hnil, hfirst⟩
        refine ⟨[], (first, c :: lead) :: items, ⟨?_, rfl, ?_, ?_⟩, ?_, ?_⟩
        · exact List.forall_mem_cons.2 ⟨hword, hspacing.words⟩
        · exact List.forall_mem_cons.2 ⟨hlead, hspacing.gaps⟩
        · intro item hitem
          cases items with
          | nil => simp at hitem
          | cons second items =>
            rcases List.mem_cons.1 hitem with rfl | hitem
            · simp
            · exact hspacing.apart item hitem
        · rw [spaced_cons]
          simp [spaced]
        · simp [hnil, htokens]

theorem tokenize_eq_ok_iff : tokenize t = .ok tokens ↔
    ∃ lead items, Spacing lead items ∧ spaced lead items = t ∧ items.map Prod.fst = tokens := by
  constructor
  · intro h
    obtain ⟨ps, hps, rfl⟩ := map_eq_ok.1 h
    exact exists_spacing_of_pieces hps
  · rintro ⟨lead, items, hspacing, rfl, rfl⟩
    exact tokenize_spaced hspacing

theorem exists_tokenize_iff : (∃ tokens, tokenize t = .ok tokens) ↔ Balanced t := by
  rw [Balanced, ← exists_pieces_iff]
  constructor
  · rintro ⟨tokens, h⟩
    obtain ⟨ps, hps, -⟩ := map_eq_ok.1 h
    exact ⟨ps, hps⟩
  · rintro ⟨ps, hps⟩
    exact ⟨_, map_eq_ok.2 ⟨ps, hps, rfl⟩⟩

end

/-- A text has tokens exactly if its parentheses are balanced, and is refused for its parentheses at
the given line otherwise. Its tokens are the words with which it is written: nonempty, balanced,
without a separator outside parentheses, and with gaps around and between them. Whatever words and
gaps a text is written with, these words are its tokens. -/
theorem tokenize_iff_balanced_and_spaced (t : Text) (line : Nat) :
    ((∃ tokens, (tokenize t).mapError (Error.malformed line) = .ok tokens) ↔ Balanced t) ∧
      ((∃ fault, (tokenize t).mapError (Error.malformed line) = .error (.malformed line fault) ∧
        fault.category = .unbalancedParens) ↔ ¬ Balanced t) ∧
      ∀ tokens, (tokenize t).mapError (Error.malformed line) = .ok tokens ↔
        ∃ lead items, Spacing lead items ∧ spaced lead items = t ∧
          items.map Prod.fst = tokens := by
  simp only [mapError_eq_ok]
  refine ⟨exists_tokenize_iff, ?_, fun tokens => tokenize_eq_ok_iff⟩
  rw [← exists_tokenize_iff]
  constructor
  · rintro ⟨fault, hfault, -⟩ ⟨tokens, htokens⟩
    rw [htokens] at hfault
    cases hfault
  · intro hnone
    cases htokens : tokenize t with
    | ok tokens => exact absurd ⟨tokens, htokens⟩ hnone
    | error fault => exact ⟨fault, rfl, category_of_pieces_eq_error (map_eq_error.1 htokens)⟩

end Offload.Token
