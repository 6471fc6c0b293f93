import Offload.Function
import Offload.Proofs.Countable
import Offload.Proofs.Pieces

/-!
Parameters of a signature. A parameter is read by cutting it at its first equals sign outside
brackets and at its first colon. It is read as it was written if brackets are counted over its
annotation and its default as over any other text.
-/
namespace Offload

theorem bracketStep_succ {depth : Nat} {c : Char} (h : ¬ (isClosing c = true ∧ depth = 0)) :
    bracketStep (depth + 1) c = bracketStep depth c + 1 := by
  unfold bracketStep
  split
  · rfl
  · split
    · next hclose =>
      have hpos : depth ≠ 0 := fun hzero => h ⟨hclose, hzero⟩
      omega
    · rfl

theorem isOpening_of_isClosing {c : Char} (h : isClosing c = true) : isOpening c = false := by
  simp only [isClosing, Bool.or_eq_true, beq_iff_eq] at h
  rcases h with (rfl | rfl) | rfl <;> rfl

theorem isBlank_of_mem_identifier {name : Text} (h : isIdentifier name = true) {c : Char}
    (hc : c ∈ name) : isBlank c = false := by
  cases hblank : isBlank c with
  | false => rfl
  | true =>
    have hcontinue := Identifier.isXidContinue_of_isBlank hblank
    exact absurd hc (Countable.not_mem_of_isIdentifier h hcontinue)

namespace Signature

open Text

/-! The text between the parentheses. -/

/-- The closing bracket is the first one behind a text that closes what it opens. -/
theorem beforeClose?_eq_some_iff {depth : Nat} {t inner : Text} :
    beforeClose? (depth + 1) t = some inner ↔
      Sealed [] depth inner ∧ ∃ c rest, t = inner ++ c :: rest ∧ isClosing c = true := by
  induction t generalizing depth inner with
  | nil => simp [beforeClose?]
  | cons x xs ih =>
    rw [beforeClose?]
    by_cases hend : isClosing x = true ∧ depth = 0
    · obtain ⟨hclose, rfl⟩ := hend
      have hstep : bracketStep (0 + 1) x = 0 := by
        simp [bracketStep, isOpening_of_isClosing hclose, hclose]
      rw [if_pos (by simp [hclose, hstep]), Option.some.injEq]
      constructor
      · rintro rfl
        exact ⟨sealed_nil.2 rfl, x, xs, rfl, hclose⟩
      · rintro ⟨hsealed, c, rest, heq, -⟩
        cases inner with
        | nil => rfl
        | cons y inner =>
          obtain ⟨rfl, -⟩ := List.cons.inj heq
          exact absurd ((sealed_cons.1 hsealed).1 (.inl hclose)) (Nat.lt_irrefl 0)
    · have hstep := bracketStep_succ hend
      have hon : ¬ (isClosing x && bracketStep (depth + 1) x == 0) = true := by simp [hstep]
      rw [if_neg hon, hstep, Option.map_eq_some_iff]
      constructor
      · rintro ⟨inner, hinner, rfl⟩
        obtain ⟨hsealed, c, rest, rfl, hc⟩ := ih.1 hinner
        refine ⟨sealed_cons.2 ⟨fun hmark => ?_, hsealed⟩, c, rest, rfl, hc⟩
        have hclose : isClosing x = true := by simpa using hmark
        exact Nat.pos_of_ne_zero fun hzero => hend ⟨hclose, hzero⟩
      · rintro ⟨hsealed, c, rest, heq, hc⟩
        cases inner with
        | nil =>
          obtain ⟨rfl, -⟩ := List.cons.inj heq
          exact absurd ⟨hc, sealed_nil.1 hsealed⟩ hend
        | cons y inner =>
          obtain ⟨rfl, rfl⟩ := List.cons.inj heq
          exact ⟨inner, ih.2 ⟨(sealed_cons.1 hsealed).2, c, rest, rfl, hc⟩, rfl⟩

/-! One parameter. -/

theorem parameter_of_none {t : Text} (h : cutAtDepth? "=" 0 t = none) :
    parameter t = trim (t.takeWhile (· != ':')) := by
  simp only [parameter, h, Option.getD_none]
  rfl

theorem parameter_of_some {t head default : Text}
    (h : cutAtDepth? "=" 0 t = some (head, default)) :
    parameter t = if trim default = [] then trim (head.takeWhile (· != ':'))
      else trim (head.takeWhile (· != ':')) ++ '=' :: trim default := by
  simp only [parameter, h, Option.getD_some]
  cases trim default <;> simp

/-- An equals sign in the name of a parameter stands behind an open bracket. -/
theorem exists_cut_of_name {head title rest : Text}
    (htitle : ∀ c ∈ title, isOpening c = false ∧ isClosing c = false) (hmark : '=' ∉ title)
    (h : trim (head.takeWhile (· != ':')) = title ++ '=' :: rest) (more : Text) :
    ∃ before behind, cutAtDepth? "=" 0 (head ++ more) = some (before, behind) ∧ '=' ∉ before := by
  obtain ⟨a, b, hname, ha, -⟩ := exists_trim (head.takeWhile (· != ':'))
  rw [h] at hname
  have hbefore : '=' ∉ a ++ title := by
    rw [List.mem_append, not_or]
    exact ⟨fun hmem => absurd (List.all_eq_true.1 ha _ hmem) (by decide), hmark⟩
  have hdepth : depthAfter 0 (a ++ title) = 0 := by
    rw [depthAfter_append, depthAfter_of_plain (plain_of_blank ha), depthAfter_of_plain htitle]
  have hhead : head ++ more =
      a ++ title ++ '=' :: (rest ++ b ++ head.dropWhile (· != ':') ++ more) := by
    conv_lhs => rw [← List.takeWhile_append_dropWhile (p := (· != ':')) (l := head), hname]
    simp
  rw [hhead]
  exact ⟨_, _, cutAtDepth?_eq_some rfl rfl (whole_of_not_mem hbefore) hdepth, hbefore⟩

/-- A default that is read from a piece without a comma is a part of it in which brackets close
what they open. -/
theorem sealed_of_parameter {piece title default : Text} (hpiece : Sealed [','] 0 piece)
    (htitle : ∀ c ∈ title, isOpening c = false ∧ isClosing c = false) (hmark : '=' ∉ title)
    (h : parameter piece = title ++ '=' :: default) : Sealed [','] 0 default := by
  cases hcut : cutAtDepth? "=" 0 piece with
  | none =>
    rw [parameter_of_none hcut] at h
    obtain ⟨before, behind, hsome, -⟩ := exists_cut_of_name htitle hmark h []
    rw [List.append_nil, hcut] at hsome
    simp at hsome
  | some cut =>
    obtain ⟨head, rest⟩ := cut
    have hfirst := (cutAtDepth?_eq_some_iff ⟨'=', [], rfl, rfl, rfl⟩).1 hcut
    have hname : ∀ more, trim (head.takeWhile (· != ':')) ≠ title ++ '=' :: more := by
      intro more hmore
      obtain ⟨before, behind, hsome, hbefore⟩ :=
        exists_cut_of_name htitle hmark hmore ('=' :: rest)
      have heq : head ++ '=' :: rest = piece := hfirst.eq.symm
      rw [heq, hcut, Option.some.injEq, Prod.mk.injEq] at hsome
      have hmem : '=' ∈ head := by
        refine (List.takeWhile_sublist (· != ':')).subset ?_
        obtain ⟨a, b, hparts, -⟩ := exists_trim (head.takeWhile (· != ':'))
        rw [hparts, hmore]
        simp
      rw [hsome.1] at hmem
      exact hbefore hmem
    have hdefault : default = trim rest := by
      rw [parameter_of_some hcut] at h
      split at h
      · exact absurd h (hname default)
      · rcases List.append_eq_append_iff.1 h with ⟨x, hx, hrest⟩ | ⟨x, hx, hrest⟩
        · cases x with
          | nil => exact (List.cons.inj hrest).2.symm
          | cons c x =>
            obtain ⟨rfl, -⟩ := List.cons.inj hrest
            exact absurd (by simp [hx]) hmark
        · cases x with
          | nil => exact (List.cons.inj hrest).2
          | cons c x =>
            obtain ⟨rfl, -⟩ := List.cons.inj hrest
            exact absurd hx (hname x)
    have hrest : Sealed [','] 0 ('=' :: rest) := by
      have heq : piece = head ++ '=' :: rest := hfirst.eq
      rw [heq, sealed_append_iff hfirst.outside] at hpiece
      exact hpiece.2
    rw [hdefault, sealed_trim (List.forall_mem_singleton.2 rfl)]
    exact (sealed_cons.1 hrest).2

/-- What names are written with, and the stars and blanks around them. -/
def isNameText (c : Char) : Bool := isBlank c || c == '*' || Identifier.isXidContinue c

/-- Signs that stand in no such text. -/
def isMark (c : Char) : Bool := Identifier.isSign c && !(isBlank c || c == '*')

theorem isNameText_of_isMark {c : Char} (h : isMark c = true) : isNameText c = false := by
  rw [isMark, Bool.and_eq_true, Bool.not_eq_true'] at h
  rw [isNameText, h.2, Identifier.isXidContinue_of_isSign h.1, Bool.or_false]

theorem plain_of_isNameText {c : Char} (h : isNameText c = true) :
    (isOpening c = false ∧ isClosing c = false) ∧ c ≠ '#' ∧ isQuote c = false := by
  have hne : ∀ d, isMark d = true → c ≠ d := by
    rintro d hd rfl
    simp [isNameText_of_isMark hd] at h
  simp [isOpening, isClosing, isQuote, hne '(' (by decide), hne '[' (by decide),
    hne '\x7b' (by decide), hne ')' (by decide), hne ']' (by decide), hne '\x7d' (by decide),
    hne '#' (by decide), hne '\'' (by decide), hne '"' (by decide)]

/-- A part behind its mark, if it is there. -/
def marked (mark : Char) : Option Text → Text
  | none => []
  | some t => mark :: t

/-- A parameter as it is written. -/
structure Parameter where
  /-- Blanks before the parameter. -/
  lead : Text
  stars : Nat
  name : Text
  /-- Blanks behind the name. -/
  gap : Text
  /-- The annotation behind its colon. -/
  note? : Option Text
  /-- The default behind its equals sign. -/
  default? : Option Text

namespace Parameter

/-- The name with its stars. -/
def title (p : Parameter) : Text := List.replicate p.stars '*' ++ p.name

/-- What stands before the annotation and the default. -/
def front (p : Parameter) : Text := p.lead ++ p.title ++ p.gap

def text (p : Parameter) : Text :=
  p.front ++ (marked ':' p.note? ++ marked '=' p.default?)

/-- The parameter without its annotation, the default trimmed. -/
def kept (p : Parameter) : Text := p.title ++ marked '=' (p.default?.map trim)

/-- Which characters a text may hold: `ordinary` ones, and separators only inside brackets. -/
def admits (ordinary : Char → Bool) (separators : Text) (inside : Bool) (c : Char) : Bool :=
  ordinary c && (inside || !separators.contains c)

/-- A parameter whose annotation and default have nested brackets and closed literals. Outside both,
an annotation holds no comma and no equals sign, and a default no comma. Literals of annotations
and of defaults are found in two lists, each with the place where it stands. -/
structure Proper (ordinary : Char → Bool) (noted given : List (Bool × Text)) (p : Parameter) :
    Prop where
  lead : blank p.lead = true
  gap : blank p.gap = true
  name : isIdentifier p.name = true
  note : ∀ t, p.note? = some t → ∃ literals, (∀ l ∈ literals, l ∈ noted) ∧
    Closed (admits ordinary [',', '=']) false literals t
  default : ∀ t, p.default? = some t → trim t ≠ [] ∧ ∃ literals, (∀ l ∈ literals, l ∈ given) ∧
    Closed (admits ordinary [',']) false literals t

/-- Counting brackets leads to the end of the annotation, and over its commas and equals signs. -/
def NoteSealed (p : Parameter) : Prop := ∀ t, p.note? = some t → Sealed [',', '='] 0 t

/-- Counting brackets leads to the end of the default, and over its commas. -/
def DefaultSealed (p : Parameter) : Prop := ∀ t, p.default? = some t → Sealed [','] 0 t

section

variable {ordinary : Char → Bool} {noted given : List (Bool × Text)} {p : Parameter} {c : Char}

theorem Proper.isNameText_front (h : p.Proper ordinary noted given) :
    ∀ c ∈ p.front, isNameText c = true := by
  intro c hc
  simp only [front, title, List.mem_append] at hc
  rcases hc with (hlead | hstar | hname) | hgap
  · simp [isNameText, List.all_eq_true.1 h.lead c hlead]
  · simp [isNameText, List.eq_of_mem_replicate hstar]
  · simp [isNameText, Identifier.isXidContinue_of_isIdentifier h.name hname]
  · simp [isNameText, List.all_eq_true.1 h.gap c hgap]

theorem Proper.not_mem_front (h : p.Proper ordinary noted given) (hc : isMark c = true) :
    c ∉ p.front := by
  intro hmem
  have hname := h.isNameText_front c hmem
  simp [isNameText_of_isMark hc] at hname

theorem Proper.not_mem_title (h : p.Proper ordinary noted given) (hc : isMark c = true) :
    c ∉ p.title := fun hmem => h.not_mem_front hc (by simp [front, hmem])

theorem Proper.plain_front (h : p.Proper ordinary noted given) :
    ∀ c ∈ p.front, isOpening c = false ∧ isClosing c = false := fun c hc =>
  (plain_of_isNameText (h.isNameText_front c hc)).1

theorem Proper.title_ne_nil (h : p.Proper ordinary noted given) : p.title ≠ [] := by
  have hname := ne_nil_of_isIdentifier h.name
  simp [title, hname]

theorem Proper.trim_title (h : p.Proper ordinary noted given) : trim p.title = p.title := by
  have hblank : ∀ c ∈ p.title, isBlank c = false := by
    intro c hc
    rcases List.mem_append.1 hc with hstar | hname
    · rw [List.eq_of_mem_replicate hstar]
      decide
    · exact isBlank_of_mem_identifier h.name hname
  exact trim_of_solid h.title_ne_nil hblank

theorem Proper.trim_front (h : p.Proper ordinary noted given) : trim p.front = p.title := by
  rw [front, trim_append_of_blank h.gap, trim_of_blank_append h.lead, h.trim_title]

/-! Reading a parameter that counting brackets keeps together. -/

theorem sealed_of_admits {separators t : Text} {literals : List (Bool × Text)}
    (hplain : ∀ c ∈ separators, isOpening c = false ∧ isClosing c = false)
    (h : Closed (admits ordinary separators) false literals t)
    (hliterals : ∀ l ∈ literals, Unmistaken separators l.1 l.2) : Sealed separators 0 t := by
  refine h.sealed (fun c hc => ?_) hplain hliterals
  simp [admits, hc]

theorem sealed_marked {separators : Text} {mark : Char} {part : Option Text}
    (hplain : isOpening mark = false ∧ isClosing mark = false) (hmark : mark ∉ separators)
    (h : ∀ t, part = some t → Sealed separators 0 t) : Sealed separators 0 (marked mark part) := by
  cases part with
  | none => exact sealed_nil.2 rfl
  | some t =>
    refine sealed_cons.2 ⟨by simp [hplain.2, hmark], ?_⟩
    rw [bracketStep_of_plain hplain.1 hplain.2]
    exact h t rfl

theorem Proper.sealed_head {separators : Text} (h : p.Proper ordinary noted given)
    (hnote : p.NoteSealed) (hseparators : ∀ c ∈ separators, c = ',' ∨ c = '=') :
    Sealed separators 0 (p.front ++ marked ':' p.note?) := by
  refine (sealed_plain_append h.plain_front).2 ⟨fun c hc hmem => ?_, ?_⟩
  · rcases hseparators c hc with rfl | rfl <;>
      exact absurd hmem (h.not_mem_front (by decide))
  · refine sealed_marked (by decide) (fun hmem => ?_) fun t ht => (hnote t ht).mono ?_
    · rcases hseparators _ hmem with hcolon | hcolon <;> exact absurd hcolon (by decide)
    · simpa using hseparators

theorem Proper.sealed_text (h : p.Proper ordinary noted given) (hnote : p.NoteSealed)
    (hdefault : p.DefaultSealed) : Sealed [','] 0 p.text := by
  have hhead : Sealed [','] 0 (p.front ++ marked ':' p.note?) :=
    h.sealed_head hnote (by simp)
  rw [text, ← List.append_assoc, sealed_append_iff hhead.closed]
  exact ⟨hhead, sealed_marked (by decide) (by decide) hdefault⟩

theorem Proper.takeWhile_head (h : p.Proper ordinary noted given) :
    (p.front ++ marked ':' p.note?).takeWhile (· != ':') = p.front := by
  have hfront : ∀ c ∈ p.front, (c != ':') = true := by
    intro c hc
    rw [bne_iff_ne]
    rintro rfl
    exact h.not_mem_front (by decide) hc
  rw [List.takeWhile_append_of_pos hfront]
  cases p.note? <;> simp [marked]

theorem Proper.parameter_text (h : p.Proper ordinary noted given) (hnote : p.NoteSealed) :
    parameter p.text = p.kept := by
  have hhead : Sealed ['='] 0 (p.front ++ marked ':' p.note?) :=
    h.sealed_head hnote (by simp)
  have hwhole := hhead.whole (by decide) (by decide)
  rw [text, ← List.append_assoc, kept]
  cases hdefault : p.default? with
  | none =>
    have hcut : cutAtDepth? "=" 0 (p.front ++ marked ':' p.note?) = none :=
      cutAtDepth?_eq_none_of_whole (by decide) (by decide) hwhole
    rw [marked, List.append_nil, parameter_of_none hcut, h.takeWhile_head, h.trim_front,
      Option.map_none, marked, List.append_nil]
  | some t =>
    have hcut : cutAtDepth? "=" 0 (p.front ++ marked ':' p.note? ++ '=' :: t) =
        some (p.front ++ marked ':' p.note?, t) :=
      cutAtDepth?_eq_some (by decide) (by decide) hwhole hhead.closed
    have hparameter := parameter_of_some hcut
    rwa [if_neg (h.default t hdefault).1, h.takeWhile_head, h.trim_front] at hparameter

end

end Parameter

end Signature

end Offload
