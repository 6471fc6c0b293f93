import Offload.Proofs.Expression

/-!
Iterables that are taken to be countable. A call of `range` and a bracketed literal are told from
their ends alone, a name with attributes and subscripts by reading up to the next closing bracket.
The texts that are accepted therefore differ from the expressions that are meant: what stands between
the ends need not belong together, and a subscript that holds another one is refused.
-/
namespace Offload

namespace Countable

open Identifier

variable {c : Char} {name t u : Text}

/-! Names of plain letters. -/

theorem bounds_of_isAlpha (h : c.isAlpha = true) :
    65 ≤ c.toNat ∧ c.toNat ≤ 90 ∨ 97 ≤ c.toNat ∧ c.toNat ≤ 122 := by
  rcases Bool.or_eq_true_iff.1 h with hupper | hlower
  · exact .inl (of_decide_eq_true hupper)
  · obtain ⟨hlow, hhigh⟩ := Bool.and_eq_true_iff.1 hlower
    exact .inr ⟨of_decide_eq_true hlow, of_decide_eq_true hhigh⟩

theorem bounds_of_isDigit (h : c.isDigit = true) : 48 ≤ c.toNat ∧ c.toNat ≤ 57 := by
  obtain ⟨hlow, hhigh⟩ := Bool.and_eq_true_iff.1 h
  exact ⟨of_decide_eq_true hlow, of_decide_eq_true hhigh⟩

theorem isXidStart_of_isAlpha (h : c.isAlpha = true) : isXidStart c = true := by
  have hbounds := bounds_of_isAlpha h
  rw [isXidStart, (unicode.ascii c (by omega)).1, h]

theorem isXid_of_isDigit (h : c.isDigit = true) :
    isXidStart c = false ∧ isXidContinue c = true := by
  have hbounds := bounds_of_isDigit h
  obtain ⟨hstart, hcontinue⟩ := unicode.ascii c (by omega)
  have halpha : c.isAlpha = false := by
    by_contra hletter
    have := bounds_of_isAlpha (by simpa using hletter)
    omega
  rw [isXidStart, isXidContinue, hstart, hcontinue, Char.isAlphanum, halpha, h]
  exact ⟨rfl, rfl⟩

theorem isStart_of_isNameStart (h : isNameStart c = true) : isStart c = true := by
  rcases Bool.or_eq_true_iff.1 h with halpha | hunderscore
  · simp [isStart, isXidStart_of_isAlpha halpha]
  · simp [isStart, hunderscore]

theorem isXidContinue_of_isNameRest (h : isNameRest c = true) : isXidContinue c = true := by
  simp only [isNameRest, Char.isAlphanum, Bool.or_eq_true, beq_iff_eq] at h
  rcases h with (halpha | hdigit) | rfl
  · exact isXidContinue_of_isXidStart (isXidStart_of_isAlpha halpha)
  · exact (isXid_of_isDigit hdigit).2
  · exact isXidContinue_underscore

/-- What starts a name starts a plain one as soon as it may stand in it. -/
theorem isNameStart_of_isStart (h : isStart c = true) : isNameStart c = isNameRest c := by
  cases hdigit : c.isDigit with
  | false => simp [isNameStart, isNameRest, Char.isAlphanum, hdigit]
  | true =>
    have hunderscore : (c == '_') = true := by
      simpa [isStart, (isXid_of_isDigit hdigit).1] using h
    simp [isNameStart, isNameRest, hunderscore]

/-! The recogniser, on texts that are made of names and subscripts. -/

/-- An attribute or a subscript behind a name. -/
inductive Trailer
  | member (name : Text)
  | subscript (content : Text)

namespace Trailer

def text : Trailer → Text
  | member name => '.' :: name
  | subscript content => '[' :: (content ++ [']'])

def name? : Trailer → Option Text
  | member name => some name
  | subscript _ => none

def content? : Trailer → Option Text
  | member _ => none
  | subscript content => some content

end Trailer

/-- A name with attributes and subscripts. -/
structure Path where
  name : Text
  trailers : List Trailer

namespace Path

def text (p : Path) : Text := p.name ++ p.trailers.flatMap Trailer.text

def names (p : Path) : List Text := p.name :: p.trailers.filterMap Trailer.name?

def contents (p : Path) : List Text := p.trailers.filterMap Trailer.content?

def Named (p : Path) : Prop := ∀ name ∈ p.names, isIdentifier name = true

end Path

/-- Behind a closing square bracket stands nothing or an opening one. -/
def Chained (t : Text) : Prop := ∀ a c b, t = a ++ ']' :: c :: b → c = '['

/-- The names are plain, and no subscript holds another one or has an attribute behind it. -/
structure Path.Flat (p : Path) : Prop where
  plain : ∀ name ∈ p.names, name.all isNameRest = true
  chained : Chained p.text

theorem chained_cons :
    Chained (c :: t) ↔ (c = ']' → ∀ d ∈ t.head?, d = '[') ∧ Chained t := by
  constructor
  · intro h
    constructor
    · intro hc d hd
      obtain ⟨b, rfl⟩ := List.head?_eq_some_iff.1 hd
      exact h [] d b (by rw [hc]; rfl)
    · intro a d b heq
      exact h (c :: a) d b (by rw [heq]; rfl)
  · intro h a d b heq
    cases a with
    | nil =>
      obtain ⟨rfl, rfl⟩ := List.cons.inj heq
      exact h.1 rfl d rfl
    | cons e a => exact h.2 a d b (List.cons.inj heq).2

theorem chained_append (h : ']' ∉ u) : Chained (u ++ t) ↔ Chained t := by
  induction u with
  | nil => rfl
  | cons d u ih =>
    rw [List.mem_cons, not_or] at h
    rw [List.cons_append, chained_cons, ih h.2]
    exact and_iff_right fun hd => absurd hd.symm h.1

theorem subscripts_false (t : Text) :
    subscripts false t = true ↔ ∀ d ∈ t.head?, d = '[' ∧ subscripts true t = true := by
  cases t with
  | nil => simp [subscripts]
  | cons d t =>
    by_cases hd : d = '['
    · simp [subscripts, hd]
    · simp [subscripts, hd]

/-- An open subscript is read to its end, with those behind it, exactly if brackets are chained. -/
theorem subscripts_true (t : Text) :
    subscripts true t = true ↔ t.getLast? = some ']' ∧ Chained t := by
  induction t with
  | nil => simp [subscripts]
  | cons c t ih =>
    rw [chained_cons]
    by_cases hc : c = ']'
    · subst hc
      have hstep : subscripts true (']' :: t) = subscripts false t := rfl
      rw [hstep, subscripts_false, ih]
      cases t with
      | nil => simp [Chained]
      | cons d t => simp [and_left_comm]
    · have hstep : subscripts true (c :: t) = subscripts true t := by
        rw [subscripts, if_pos rfl, bne_iff_ne.2 hc]
      rw [hstep, ih]
      cases t with
      | nil => simp [hc]
      | cons d t => simp [hc]

/-- Where brackets are chained, nothing but subscripts follows a closing one. -/
theorem exists_subscripts_of_chained {trailers : List Trailer}
    (h : Chained (u ++ ']' :: trailers.flatMap Trailer.text)) :
    ∃ contents : List Text, trailers = contents.map Trailer.subscript := by
  induction trailers generalizing u with
  | nil => exact ⟨[], rfl⟩
  | cons trailer trailers ih =>
    cases trailer with
    | member name =>
      have hdot := h u '.' (name ++ trailers.flatMap Trailer.text) rfl
      exact absurd hdot (by decide)
    | subscript content =>
      have hmore : Chained ((u ++ ']' :: '[' :: content) ++
          ']' :: trailers.flatMap Trailer.text) := by
        simpa [Trailer.text] using h
      obtain ⟨contents, rfl⟩ := ih hmore
      exact ⟨content :: contents, rfl⟩

theorem getLast?_subscripts (contents : List Text) :
    (']' :: (contents.map Trailer.subscript).flatMap Trailer.text).getLast? = some ']' := by
  induction contents with
  | nil => rfl
  | cons content contents ih =>
    have hsplit : ']' :: ((content :: contents).map Trailer.subscript).flatMap Trailer.text =
        (']' :: '[' :: content) ++
          (']' :: (contents.map Trailer.subscript).flatMap Trailer.text) := by
      simp [Trailer.text]
    rw [hsplit, List.getLast?_append, ih]
    rfl

theorem dotted_false_append (h : ∀ c ∈ name, isXidContinue c = true) (t : Text) :
    dotted false (name ++ t) = (name.all isNameRest && dotted false t) := by
  induction name with
  | nil => rfl
  | cons c cs ih =>
    have hrest := ih fun d hd => h d (List.mem_cons_of_mem _ hd)
    have hcontinue := h c List.mem_cons_self
    have hdot : (c == '.') = false :=
      beq_eq_false_iff_ne.2 (ne_of_isXidContinue hcontinue (by decide))
    have hbracket : (c == '[') = false :=
      beq_eq_false_iff_ne.2 (ne_of_isXidContinue hcontinue (by decide))
    cases hc : isNameRest c with
    | true => simp [dotted, hc, hrest]
    | false => simp [dotted, hc, hdot, subscripts, hbracket]

/-- A name is passed over exactly if it is plain. -/
theorem dotted_true_append (h : isIdentifier name = true) (t : Text) :
    dotted true (name ++ t) = (name.all isNameRest && dotted false t) := by
  cases name with
  | nil => simp [isIdentifier] at h
  | cons c cs =>
    rw [isIdentifier, Bool.and_eq_true, List.all_eq_true] at h
    obtain ⟨hstart, hrest⟩ := h
    rw [List.cons_append, dotted, if_pos rfl, dotted_false_append hrest,
      isNameStart_of_isStart hstart, List.all_cons, Bool.and_assoc]

theorem not_mem_of_isIdentifier (h : isIdentifier name = true) (hc : isXidContinue c = false) :
    c ∉ name := by
  intro hmem
  rw [isXidContinue_of_isIdentifier h hmem] at hc
  simp at hc

theorem sign_not_mem_of_isIdentifier (h : isIdentifier name = true) (hc : isSign c = true) :
    c ∉ name := not_mem_of_isIdentifier h (isXidContinue_of_isSign hc)

theorem dotted_false_trailers {trailers : List Trailer}
    (h : ∀ name ∈ trailers.filterMap Trailer.name?, isIdentifier name = true) :
    dotted false (trailers.flatMap Trailer.text) = true ↔
      (∀ name ∈ trailers.filterMap Trailer.name?, name.all isNameRest = true) ∧
        Chained (trailers.flatMap Trailer.text) := by
  induction trailers with
  | nil => simp [dotted, Chained]
  | cons trailer trailers ih =>
    cases trailer with
    | member name =>
      have hnames : (Trailer.member name :: trailers).filterMap Trailer.name? =
          name :: trailers.filterMap Trailer.name? := rfl
      rw [hnames, List.forall_mem_cons] at h
      rw [hnames, List.forall_mem_cons]
      obtain ⟨hname, hmore⟩ := h
      have hdot : ']' ∉ '.' :: name := by
        simp [sign_not_mem_of_isIdentifier hname (c := ']') (by decide)]
      have hstep : dotted false ((Trailer.member name :: trailers).flatMap Trailer.text) =
          dotted true (name ++ trailers.flatMap Trailer.text) := rfl
      have hchained : Chained ((Trailer.member name :: trailers).flatMap Trailer.text) ↔
          Chained (trailers.flatMap Trailer.text) := chained_append hdot
      rw [hstep, dotted_true_append hname, hchained, Bool.and_eq_true, ih hmore, and_assoc]
    | subscript content =>
      have hnames : (Trailer.subscript content :: trailers).filterMap Trailer.name? =
          trailers.filterMap Trailer.name? := rfl
      rw [hnames] at h
      rw [hnames]
      have htext : (Trailer.subscript content :: trailers).flatMap Trailer.text =
          '[' :: (content ++ ']' :: trailers.flatMap Trailer.text) := by
        simp [Trailer.text]
      have hstep : dotted false ('[' :: (content ++ ']' :: trailers.flatMap Trailer.text)) =
          subscripts true (content ++ ']' :: trailers.flatMap Trailer.text) := rfl
      have hbracket : Chained ('[' :: (content ++ ']' :: trailers.flatMap Trailer.text)) ↔
          Chained (content ++ ']' :: trailers.flatMap Trailer.text) :=
        chained_append (u := ['[']) (by decide)
      rw [htext, hstep, subscripts_true, hbracket]
      apply and_congr_left
      intro hchained
      -- What follows is subscripts, which end with a bracket and hold no names.
      obtain ⟨contents, rfl⟩ := exists_subscripts_of_chained hchained
      rw [List.getLast?_append, getLast?_subscripts]
      have hnone : (contents.map Trailer.subscript).filterMap Trailer.name? = [] := by
        simp [List.filterMap_map, Trailer.name?]
      rw [hnone]
      simp

/-- The recogniser accepts the flat ones. -/
theorem dotted_text_iff {p : Path} (h : p.Named) : dotted true p.text = true ↔ p.Flat := by
  obtain ⟨hname, hmore⟩ := List.forall_mem_cons.1 h
  have hbracket := sign_not_mem_of_isIdentifier hname (c := ']') (by decide)
  have hflat : p.Flat ↔ (∀ name ∈ p.names, name.all isNameRest = true) ∧ Chained p.text :=
    ⟨fun h => ⟨h.plain, h.chained⟩, fun h => ⟨h.1, h.2⟩⟩
  rw [hflat, Path.text, Path.names, dotted_true_append hname, chained_append hbracket,
    List.forall_mem_cons, Bool.and_eq_true, dotted_false_trailers hmore, and_assoc]

theorem exists_subscripts (t : Text) :
    (subscripts false t = true →
      ∃ contents : List Text, t = (contents.map Trailer.subscript).flatMap Trailer.text) ∧
    (subscripts true t = true → ∃ (content : Text) (contents : List Text),
      t = content ++ ']' :: (contents.map Trailer.subscript).flatMap Trailer.text) := by
  induction t with
  | nil => exact ⟨fun _ => ⟨[], rfl⟩, fun h => by simp [subscripts] at h⟩
  | cons c t ih =>
    constructor
    · intro h
      simp only [subscripts, Bool.false_eq_true, if_false, Bool.and_eq_true, beq_iff_eq] at h
      obtain ⟨rfl, hopen⟩ := h
      obtain ⟨content, contents, rfl⟩ := ih.2 hopen
      exact ⟨content :: contents, by simp [Trailer.text]⟩
    · intro h
      rw [subscripts, if_pos rfl] at h
      by_cases hc : c = ']'
      · subst hc
        obtain ⟨contents, rfl⟩ := ih.1 h
        exact ⟨[], contents, rfl⟩
      · rw [bne_iff_ne.2 hc] at h
        obtain ⟨content, contents, rfl⟩ := ih.2 h
        exact ⟨c :: content, contents, rfl⟩

theorem exists_trailers_of_dotted {fresh : Bool} (h : dotted fresh t = true) :
    ∃ (front : Text) (trailers : List Trailer), t = front ++ trailers.flatMap Trailer.text ∧
      (fresh = true → isIdentifier front = true) ∧ front.all isXidContinue = true ∧
      ∀ name ∈ trailers.filterMap Trailer.name?, isIdentifier name = true := by
  induction t generalizing fresh with
  | nil =>
    refine ⟨[], [], rfl, ?_, rfl, by simp⟩
    rintro rfl
    simp [dotted] at h
  | cons c t ih =>
    cases fresh with
    | true =>
      rw [dotted, if_pos rfl, Bool.and_eq_true] at h
      obtain ⟨front, trailers, rfl, -, hfront, hnames⟩ := ih h.2
      have hname : isIdentifier (c :: front) = true := by
        rw [isIdentifier, isStart_of_isNameStart h.1, hfront]
        rfl
      refine ⟨c :: front, trailers, rfl, fun _ => hname, ?_, hnames⟩
      exact List.all_eq_true.2 fun d hd => isXidContinue_of_isIdentifier hname hd
    | false =>
      rw [dotted, if_neg (by simp)] at h
      split at h
      · next hrest =>
        obtain ⟨front, trailers, rfl, -, hfront, hnames⟩ := ih h
        refine ⟨c :: front, trailers, rfl, by simp, ?_, hnames⟩
        rw [List.all_cons, isXidContinue_of_isNameRest hrest, hfront]
        rfl
      · split at h
        · next hdot =>
          obtain ⟨name, trailers, rfl, hname, -, hnames⟩ := ih h
          obtain rfl := beq_iff_eq.1 hdot
          refine ⟨[], .member name :: trailers, rfl, by simp, rfl, ?_⟩
          exact List.forall_mem_cons.2 ⟨hname rfl, hnames⟩
        · obtain ⟨contents, hcontents⟩ := (exists_subscripts (c :: t)).1 h
          refine ⟨[], contents.map .subscript, hcontents, by simp, rfl, ?_⟩
          simp [List.filterMap_map, Trailer.name?]

/-- The recogniser accepts nothing else. -/
theorem dotted_iff : dotted true t = true ↔ ∃ p : Path, p.Named ∧ p.Flat ∧ p.text = t := by
  constructor
  · intro h
    obtain ⟨name, trailers, rfl, hname, -, hnames⟩ := exists_trailers_of_dotted h
    have hnamed : (Path.mk name trailers).Named := List.forall_mem_cons.2 ⟨hname rfl, hnames⟩
    exact ⟨⟨name, trailers⟩, hnamed, (dotted_text_iff hnamed).1 h, rfl⟩
  · intro h
    obtain ⟨p, hnamed, hflat, rfl⟩ := h
    exact (dotted_text_iff hnamed).2 hflat

/-! Texts between brackets. -/

/-- The start and the end of a call of `range` and of the two bracketed literals. -/
def brackets : List (Text × Char) := [("range(", ')'), ("[", ']'), ("(", ')')]

/-- The text starts and ends with brackets, and what stands between them is as it should be. -/
def Bracketed (inner : Text → Prop) (t : Text) : Prop :=
  ∃ b ∈ brackets, ∃ u, inner u ∧ t = b.1 ++ (u ++ [b.2])

theorem startsWith_and_getLast?_iff (front : Text) (h : front.getLast? ≠ some c) :
    Text.startsWith front t = true ∧ t.getLast? = some c ↔ ∃ u, t = front ++ (u ++ [c]) := by
  rw [Text.startsWith, Option.isSome_iff_exists]
  constructor
  · intro hends
    obtain ⟨⟨rest, hrest⟩, hlast⟩ := hends
    rw [Text.after?_eq_some_iff.1 hrest] at hlast ⊢
    cases rest using List.reverseRecOn with
    | nil =>
      rw [List.append_nil] at hlast
      exact absurd hlast h
    | append_singleton u d =>
      rw [← List.append_assoc, List.getLast?_append] at hlast
      obtain rfl : d = c := by simpa using hlast
      exact ⟨u, rfl⟩
  · intro hends
    obtain ⟨u, rfl⟩ := hends
    refine ⟨⟨u ++ [c], Text.after?_eq_some_iff.2 rfl⟩, ?_⟩
    rw [← List.append_assoc, List.getLast?_append]
    rfl

theorem head?_eq_some_iff_startsWith : t.head? = some c ↔ Text.startsWith [c] t = true := by
  cases t with
  | nil => simp [Text.startsWith, Text.after?]
  | cons d t =>
    by_cases hd : c = d
    · simp [Text.startsWith, Text.after?, hd]
    · simp [Text.startsWith, Text.after?, hd, Ne.symm hd]

theorem bracketed_iff {inner : Text → Prop} : Bracketed inner t ↔
    (∃ u, inner u ∧ t = "range(" ++ (u ++ [')'])) ∨ (∃ u, inner u ∧ t = ['['] ++ (u ++ [']'])) ∨
      ∃ u, inner u ∧ t = ['('] ++ (u ++ [')']) := by
  unfold Bracketed brackets
  rw [List.exists_mem_cons_iff, List.exists_mem_cons_iff, List.exists_mem_cons_iff]
  simp only [List.not_mem_nil, false_and, exists_false, or_false]
  exact Iff.rfl

theorem isCountable_iff (t : Text) : isCountable t = true ↔
    Bracketed (fun _ => True) (Text.trim t) ∨
      ∃ p : Path, p.Named ∧ p.Flat ∧ p.text = Text.trim t := by
  unfold isCountable
  simp only [Bool.or_eq_true, Bool.and_eq_true, beq_iff_eq, head?_eq_some_iff_startsWith]
  rw [startsWith_and_getLast?_iff _ (by decide), startsWith_and_getLast?_iff _ (by decide),
    startsWith_and_getLast?_iff _ (by decide), dotted_iff, bracketed_iff]
  simp only [true_and, or_assoc]

theorem head?_trailers (trailers : List Trailer) {d : Char}
    (h : (trailers.flatMap Trailer.text).head? = some d) : d = '.' ∨ d = '[' := by
  cases trailers with
  | nil => simp at h
  | cons trailer trailers =>
    cases trailer with
    | member name => exact .inl (Option.some.inj h).symm
    | subscript content => exact .inr (Option.some.inj h).symm

/-- A path is a name up to the first character that cannot stand in one. -/
theorem eq_name_of_text_eq {p : Path} {word : Text} (h : p.Named)
    (hword : ∀ d ∈ word, isXidContinue d = true) (hc : isXidContinue c = false)
    (heq : p.text = word ++ c :: u) : word = p.name ∧ (c = '.' ∨ c = '[') := by
  have hname := h p.name List.mem_cons_self
  rcases List.append_eq_append_iff.1 heq with ⟨a, hword', hrest⟩ | ⟨a, hname', hrest⟩
  · cases a with
    | nil =>
      rw [List.append_nil] at hword'
      exact ⟨hword', head?_trailers p.trailers (by rw [hrest]; rfl)⟩
    | cons d a =>
      have hcontinue := hword d (by rw [hword']; simp)
      rcases head?_trailers p.trailers (by rw [hrest]; rfl) with rfl | rfl
      · exact absurd rfl (ne_of_isXidContinue hcontinue (by decide))
      · exact absurd rfl (ne_of_isXidContinue hcontinue (by decide))
  · cases a with
    | nil =>
      rw [List.append_nil] at hname'
      rw [List.nil_append] at hrest
      exact ⟨hname'.symm, head?_trailers p.trailers (by rw [← hrest]; rfl)⟩
    | cons d a =>
      obtain rfl : c = d := (List.cons.inj hrest).1
      exact absurd (by rw [hname']; simp) (not_mem_of_isIdentifier hname hc)

theorem not_bracketed_text {p : Path} {inner : Text → Prop} (h : p.Named) :
    ¬ Bracketed inner p.text := by
  have hname := h p.name List.mem_cons_self
  have hrange : ∀ c ∈ "range".toList, isXidContinue c = true := fun c hc =>
    isXidContinue_of_isNameRest (List.all_eq_true.1 (by decide : "range".toList.all isNameRest) c hc)
  have hround : isXidContinue '(' = false := isXidContinue_of_isSign (by decide)
  have hsquare : isXidContinue '[' = false := isXidContinue_of_isSign (by decide)
  intro hbracketed
  rcases bracketed_iff.1 hbracketed with ⟨u, -, heq⟩ | ⟨u, -, heq⟩ | ⟨u, -, heq⟩
  · have hnext := (eq_name_of_text_eq h hrange hround heq).2
    exact absurd hnext (by decide)
  · have hstart : p.text = [] ++ '[' :: (u ++ [']']) := heq
    have hempty := (eq_name_of_text_eq h (by simp) hsquare hstart).1
    rw [← hempty] at hname
    simp [isIdentifier] at hname
  · have hstart : p.text = [] ++ '(' :: (u ++ [')']) := heq
    have hnext := (eq_name_of_text_eq h (by simp) hround hstart).2
    exact absurd hnext (by decide)

/-- What stands between the brackets is determined. -/
theorem bracketed_unique {b b' : Text × Char} {u u' : Text} (hb : b ∈ brackets)
    (hb' : b' ∈ brackets) (h : b.1 ++ (u ++ [b.2]) = b'.1 ++ (u' ++ [b'.2])) : u = u' := by
  have hstart : ∀ b ∈ brackets, b.1 ≠ [] := by decide
  have hdistinct : ∀ b ∈ brackets, ∀ b' ∈ brackets, b.1.head? = b'.1.head? → b = b' := by decide
  have hhead := congrArg List.head? h
  rw [List.head?_append_of_ne_nil _ (hstart b hb), List.head?_append_of_ne_nil _ (hstart b' hb')]
    at hhead
  obtain rfl := hdistinct b hb b' hb' hhead
  exact List.append_cancel_right (List.append_cancel_left h)

/-! The expressions that are meant. -/

/-- Brackets are nested; where literals are known of, those in literals do not count. -/
def Proper : Bool → Text → Prop
  | false, t => Text.Nested t
  | true, t => ∃ literals, Text.Closed (fun _ _ => true) true literals t

def IsPath (literals : Bool) (t : Text) : Prop :=
  ∃ p : Path, p.Named ∧ (∀ content ∈ p.contents, Proper literals content) ∧ p.text = t

/-- A call of `range`, a bracketed literal, or a name with attributes and subscripts. -/
def Form (literals : Bool) (t : Text) : Prop :=
  Bracketed (Proper literals) t ∨ IsPath literals t

/-- Accepted are all texts between brackets and all flat paths. Beyond what is meant these are texts
between brackets that do not belong together, and subscripts up to a bracket that does not close
them; of what is meant, names that are not plain and subscripts that hold others or have an attribute
behind them are missing. -/
theorem isCountable_differs_from_form (literals : Bool) (t : Text) :
    (isCountable t = true ↔ Bracketed (fun _ => True) (Text.trim t) ∨
      ∃ p : Path, p.Named ∧ p.Flat ∧ p.text = Text.trim t) ∧
    (isCountable t = true ∧ ¬ Form literals (Text.trim t) ↔
      Bracketed (fun u => ¬ Proper literals u) (Text.trim t) ∨
        (∃ p : Path, p.Named ∧ p.Flat ∧ p.text = Text.trim t) ∧ ¬ IsPath literals (Text.trim t)) ∧
    (isCountable t = false ∧ Form literals (Text.trim t) ↔
      ∃ p : Path, p.Named ∧ (∀ content ∈ p.contents, Proper literals content) ∧
        p.text = Text.trim t ∧ ¬ p.Flat) := by
  refine ⟨isCountable_iff t, ⟨?_, ?_⟩, ⟨?_, ?_⟩⟩
  · intro h
    obtain ⟨haccepted, hform⟩ := h
    rcases (isCountable_iff t).1 haccepted with ⟨b, hb, u, -, heq⟩ | hflat
    · exact .inl ⟨b, hb, u, fun hproper => hform (.inl ⟨b, hb, u, hproper, heq⟩), heq⟩
    · exact .inr ⟨hflat, fun hpath => hform (.inr hpath)⟩
  · intro h
    rcases h with ⟨b, hb, u, hnot, heq⟩ | ⟨hflat, hnot⟩
    · refine ⟨(isCountable_iff t).2 (.inl ⟨b, hb, u, trivial, heq⟩), fun hform => ?_⟩
      rcases hform with ⟨b', hb', u', hproper, heq'⟩ | ⟨p, hnamed, -, htext⟩
      · have hsame := bracketed_unique hb hb' (heq.symm.trans heq')
        exact hnot (hsame ▸ hproper)
      · rw [← htext] at heq
        have hbracketed : Bracketed (fun _ => True) p.text := ⟨b, hb, u, trivial, heq⟩
        exact not_bracketed_text hnamed hbracketed
    · refine ⟨(isCountable_iff t).2 (.inr hflat), fun hform => ?_⟩
      rcases hform with hbracketed | hpath
      · obtain ⟨p, hnamed, -, htext⟩ := hflat
        exact not_bracketed_text hnamed (htext ▸ hbracketed)
      · exact hnot hpath
  · intro h
    obtain ⟨hrefused, hform⟩ := h
    rw [← Bool.not_eq_true, isCountable_iff, not_or] at hrefused
    rcases hform with ⟨b, hb, u, -, heq⟩ | ⟨p, hnamed, hcontents, htext⟩
    · exact absurd ⟨b, hb, u, trivial, heq⟩ hrefused.1
    · exact ⟨p, hnamed, hcontents, htext, fun hflat => hrefused.2 ⟨p, hnamed, hflat, htext⟩⟩
  · intro h
    obtain ⟨p, hnamed, hcontents, htext, hnot⟩ := h
    refine ⟨?_, .inr ⟨p, hnamed, hcontents, htext⟩⟩
    rw [← Bool.not_eq_true, isCountable_iff, not_or, ← dotted_iff, ← htext, dotted_text_iff hnamed]
    exact ⟨not_bracketed_text hnamed, hnot⟩

/-- A sum of two lists is accepted, and a subscript in a subscript refused. -/
theorem listSum_accepted_nestedSubscript_refused :
    (isCountable "[1] + [2]" = true ∧ ¬ Form false "[1] + [2]") ∧
      (isCountable "grid[idx[0]]" = false ∧ Form false "grid[idx[0]]") := by
  constructor
  · apply (isCountable_differs_from_form false "[1] + [2]").2.1.2
    refine .inl ⟨("[", ']'), by decide, "1] + [2", ?_, rfl⟩
    change ¬ Text.Nested "1] + [2"
    decide
  · apply (isCountable_differs_from_form false "grid[idx[0]]").2.2.2
    refine ⟨⟨"grid", [.subscript "idx[0]"]⟩, ?_, ?_, rfl, fun hflat => ?_⟩
    · intro name hname
      obtain rfl := List.mem_singleton.1 hname
      decide +kernel
    · intro content hcontent
      obtain rfl := List.mem_singleton.1 hcontent
      change Text.Nested "idx[0]"
      decide
    · have hbracket := hflat.chained "grid[idx[0" ']' [] rfl
      exact absurd hbracket (by decide)

end Countable

end Offload
