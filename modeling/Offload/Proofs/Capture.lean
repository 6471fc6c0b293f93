import Offload.Proofs.Kernel

/-!
The variables that a kernel captures. A name that is bound above a loop and used in its body should
be a parameter of the kernel. It is left out if it has the name of a builtin, if a loop target
mentions it without setting it, or if no line shows it: lines show only what stands alone left of
their first equals sign, or between the words of a `for`.
-/
namespace Offload

open Outcome

namespace Text

variable {t : Text}

/-- The text around the first occurrence of a mark. -/
structure FirstCut (mark t before rest : Text) : Prop where
  eq : t = before ++ mark ++ rest
  first : ∀ u w, t = u ++ mark ++ w → before.length ≤ u.length

theorem cut?_eq_some_iff {mark before rest : Text} :
    cut? mark t = some (before, rest) ↔ FirstCut mark t before rest := by
  induction t generalizing before rest with
  | nil =>
    simp only [cut?, Option.map_eq_some_iff, Prod.mk.injEq, after?_eq_some_iff]
    constructor
    · rintro ⟨tail, htail, rfl, rfl⟩
      exact ⟨by simpa using htail, by simp⟩
    · intro h
      have hnil := h.eq
      simp only [List.nil_eq, List.append_eq_nil_iff] at hnil
      obtain ⟨⟨rfl, rfl⟩, rfl⟩ := hnil
      exact ⟨[], rfl, rfl, rfl⟩
  | cons c cs ih =>
    rw [cut?]
    cases hafter : after? mark (c :: cs) with
    | some tail =>
      have htail := after?_eq_some_iff.1 hafter
      simp only [Option.some.injEq, Prod.mk.injEq]
      constructor
      · rintro ⟨rfl, rfl⟩
        exact ⟨by simpa using htail, by simp⟩
      · intro h
        have hlength := h.first [] tail (by simpa using htail)
        obtain rfl : before = [] := List.length_eq_zero_iff.1 (by simpa using hlength)
        have heq := h.eq
        rw [htail, List.nil_append] at heq
        exact ⟨rfl, List.append_cancel_left heq⟩
    | none =>
      have hhere : ∀ w, c :: cs ≠ mark ++ w := fun w hw => by
        rw [after?_eq_some_iff.2 hw] at hafter
        simp at hafter
      simp only [Option.map_eq_some_iff, Prod.exists, Prod.mk.injEq]
      constructor
      · rintro ⟨front, tail, hcut, rfl, rfl⟩
        have hrest := ih.1 hcut
        refine ⟨by rw [hrest.eq]; simp, fun u w hu => ?_⟩
        cases u with
        | nil => exact absurd (by simpa using hu) (hhere w)
        | cons d u =>
          have htail := hrest.first u w (List.cons.inj hu).2
          simpa using htail
      · intro h
        cases before with
        | nil => exact absurd (by simpa using h.eq) (hhere rest)
        | cons d front =>
          have heq := h.eq
          rw [List.cons_append, List.cons_append, List.cons.injEq] at heq
          refine ⟨front, rest, ih.2 ⟨heq.2, fun u w hu => ?_⟩, by rw [heq.1], rfl⟩
          have hlength := h.first (c :: u) w (by rw [hu]; simp)
          simpa using hlength

theorem FirstCut.unique {mark before before' rest rest' : Text} (h : FirstCut mark t before rest)
    (h' : FirstCut mark t before' rest') : before = before' ∧ rest = rest' := by
  have heq := (cut?_eq_some_iff.2 h).symm.trans (cut?_eq_some_iff.2 h')
  exact Prod.mk.inj (Option.some.inj heq)

/-- A single character is first found behind a text without it. -/
theorem firstCut_char_iff {c : Char} {before rest : Text} :
    FirstCut [c] t before rest ↔ t = before ++ [c] ++ rest ∧ c ∉ before := by
  constructor
  · intro h
    refine ⟨h.eq, fun hmem => ?_⟩
    obtain ⟨a, b, rfl⟩ := List.append_of_mem hmem
    have hlength := h.first a (b ++ [c] ++ rest) (by rw [h.eq]; simp)
    simp only [List.length_append, List.length_cons] at hlength
    omega
  · rintro ⟨rfl, hmem⟩
    refine ⟨rfl, fun u w hu => ?_⟩
    by_contra hlt
    have hat : (before ++ [c] ++ rest)[u.length]? = some c := by
      rw [hu]
      simp
    rw [List.append_assoc, List.getElem?_append_left (by omega)] at hat
    exact hmem (List.mem_of_getElem? hat)

/-! Stripping. -/

theorem trim_append_of_blank {b : Text} (hb : blank b = true) (t : Text) :
    trim (t ++ b) = trim t := by
  rw [trim, stripWhile]
  cases ht : blank t with
  | true =>
    have hall : blank (t ++ b) = true := by
      rw [blank_append, ht, hb]
      rfl
    rw [← trimStart, blank_iff_trimStart.1 hall, trim_eq, blank_iff_trimStart.1 ht, trimEnd]
  | false => rw [dropWhile_append_of_not_blank ht, dropEndWhile_append_of_blank hb]; rfl

theorem trim_chomp (t : Text) : trim (chomp t) = trim t := by
  by_cases ht : t.getLast? = some '\r'
  · have happend := trim_append_of_blank (b := ['\r']) (by decide) (chomp t)
    rw [chomp_of_eq ht] at happend
    exact happend.symm
  · rw [chomp_of_ne ht]

theorem exists_stripWhile (p : Char → Bool) (t : Text) :
    ∃ a b, t = a ++ stripWhile p t ++ b ∧ a.all p = true ∧ b.all p = true := by
  refine ⟨t.takeWhile p, ((t.dropWhile p).reverse.takeWhile p).reverse, ?_, List.all_takeWhile, ?_⟩
  · rw [stripWhile, dropEndWhile, List.append_assoc, ← List.reverse_append,
      List.takeWhile_append_dropWhile, List.reverse_reverse, List.takeWhile_append_dropWhile]
  · rw [List.all_reverse]
    exact List.all_takeWhile

theorem dropWhile_append_of_head {p : Char → Bool} {c : Char} (hc : p c = false) (a t : Text) :
    (a ++ c :: t).dropWhile p = a.dropWhile p ++ c :: t := by
  induction a with
  | nil => simp [hc]
  | cons d ds ih => cases hd : p d <;> simp [hd, ih]

/-- Stripping does not reach into a text without such characters. -/
theorem stripWhile_append {p : Char → Bool} {v : Text} (hne : v ≠ []) (hv : ∀ c ∈ v, p c = false)
    (a b : Text) : stripWhile p (a ++ v ++ b) = a.dropWhile p ++ v ++ dropEndWhile p b := by
  have hfront : ∀ rest, (a ++ v ++ rest).dropWhile p = a.dropWhile p ++ v ++ rest := by
    intro rest
    obtain ⟨c, cs, rfl⟩ := List.exists_cons_of_ne_nil hne
    have hc := hv c List.mem_cons_self
    simpa using dropWhile_append_of_head hc a (cs ++ rest)
  have hback : ∀ front, dropEndWhile p (front ++ v ++ b) = front ++ v ++ dropEndWhile p b := by
    intro front
    rcases List.eq_nil_or_concat' v with rfl | ⟨init, c, rfl⟩
    · exact absurd rfl hne
    · have hc := hv c (List.mem_append_right _ List.mem_cons_self)
      have hdrop := dropWhile_append_of_head hc b.reverse (init.reverse ++ front.reverse)
      simp only [dropEndWhile, List.reverse_append, List.reverse_cons, List.nil_append,
        List.append_assoc, List.cons_append] at hdrop ⊢
      rw [hdrop]
      simp
  rw [stripWhile, hfront, hback]

end Text

theorem join_cons_cons (separator first next : Text) (more : List Text) :
    Text.join separator (first :: next :: more) =
      first ++ separator ++ Text.join separator (next :: more) := by
  rw [Text.join, List.intercalate_cons_cons, Text.join, List.append_assoc]

/-! Targets. -/

def isParen (c : Char) : Bool := c == '(' || c == ')'

/-- Blanks, then parentheses, then blanks. -/
def Padding (t : Text) : Prop :=
  ∃ a b c, t = a ++ b ++ c ∧ Text.blank a = true ∧ b.all isParen = true ∧ Text.blank c = true

/-- The name stands alone among comma-separated targets, perhaps in parentheses. -/
def NamesTarget (targets v : Text) : Prop :=
  isIdentifier v = true ∧ ∃ piece ∈ targets.splitOn ',', ∃ a b, piece = a ++ v ++ b ∧
    Padding a ∧ Padding b

namespace Padding

variable {t : Text}

theorem reverse (h : Padding t) : Padding t.reverse := by
  obtain ⟨a, b, c, rfl, ha, hb, hc⟩ := h
  refine ⟨c.reverse, b.reverse, a.reverse, by simp, ?_, ?_, ?_⟩
  · rw [Text.blank_reverse, hc]
  · rw [List.all_reverse, hb]
  · rw [Text.blank_reverse, ha]

/-- Padding is what goes when blanks, parentheses and again blanks are dropped. -/
theorem dropWhile_eq_nil (h : Padding t) :
    ((t.dropWhile isBlank).dropWhile isParen).dropWhile isBlank = [] := by
  obtain ⟨a, b, c, rfl, ha, hb, hc⟩ := h
  have hblank : ∀ {u : Text}, Text.blank u = true → u.dropWhile isBlank = [] := fun hu =>
    Text.blank_iff_trimStart.1 hu
  cases b with
  | nil =>
    have hall : Text.blank (a ++ c) = true := by
      rw [Text.blank_append, ha, hc]
      rfl
    rw [List.append_nil, hblank hall]
    rfl
  | cons d ds =>
    have hd : isBlank d = false := by
      rw [List.all_cons, Bool.and_eq_true, isParen, Bool.or_eq_true, beq_iff_eq, beq_iff_eq] at hb
      rcases hb.1 with rfl | rfl <;> decide
    have hfront : (a ++ d :: ds ++ c).dropWhile isBlank = d :: ds ++ c := by
      have hdrop := Text.dropWhile_append_of_head hd a (ds ++ c)
      rw [hblank ha, List.nil_append] at hdrop
      simpa using hdrop
    rw [hfront, List.dropWhile_append_of_pos (by simpa using hb)]
    -- What remains is a part of the last blanks.
    refine hblank (List.all_eq_true.2 fun x hx => ?_)
    exact List.all_eq_true.1 hc x ((List.dropWhile_sublist _).subset hx)

theorem dropEndWhile_eq_nil (h : Padding t) : Text.dropEndWhile isBlank
    (Text.dropEndWhile isParen (Text.dropEndWhile isBlank t)) = [] := by
  simp only [Text.dropEndWhile, List.reverse_reverse, List.reverse_eq_nil_iff]
  exact h.reverse.dropWhile_eq_nil

end Padding

section

variable {v piece targets : Text}

theorem ne_nil_of_isIdentifier (h : isIdentifier v = true) : v ≠ [] := by
  rintro rfl
  simp [isIdentifier] at h

/-- A target is a name in padding. -/
theorem trim_stripWhile_trim_iff (h : isIdentifier v = true) :
    Text.trim ((Text.trim piece).stripWhile isParen) = v ↔
      ∃ a b, piece = a ++ v ++ b ∧ Padding a ∧ Padding b := by
  constructor
  · intro hv
    obtain ⟨a, f, hpiece, ha, hf⟩ := Text.exists_stripWhile isBlank piece
    obtain ⟨b, e, hparens, hb, he⟩ := Text.exists_stripWhile isParen (Text.trim piece)
    obtain ⟨c, d, hname, hc, hd⟩ :=
      Text.exists_stripWhile isBlank ((Text.trim piece).stripWhile isParen)
    refine ⟨a ++ b ++ c, d ++ e ++ f, ?_, ⟨a, b, c, rfl, ha, hb, hc⟩, ⟨d, e, f, rfl, hd, he, hf⟩⟩
    rw [← Text.trim, hv] at hname
    rw [← Text.trim, hparens, hname] at hpiece
    simpa using hpiece
  · rintro ⟨a, b, rfl, ha, hb⟩
    have hne := ne_nil_of_isIdentifier h
    have hblank : ∀ c ∈ v, isBlank c = false := by
      intro c hc
      cases hb : isBlank c with
      | false => rfl
      | true => simpa [Identifier.isXidContinue_of_isBlank hb] using
        Identifier.isXidContinue_of_isIdentifier h hc
    have hparen : ∀ c ∈ v, isParen c = false := by
      intro c hc
      have hcontinue := Identifier.isXidContinue_of_isIdentifier h hc
      rw [isParen, Bool.or_eq_false_iff, beq_eq_false_iff_ne, beq_eq_false_iff_ne]
      exact ⟨Identifier.ne_of_isXidContinue hcontinue (by decide),
        Identifier.ne_of_isXidContinue hcontinue (by decide)⟩
    rw [Text.trim, Text.trim, Text.stripWhile_append hne hblank, Text.stripWhile_append hne hparen,
      Text.stripWhile_append hne hblank, ha.dropWhile_eq_nil, hb.dropEndWhile_eq_nil,
      List.nil_append, List.append_nil]

theorem mem_targetNames : v ∈ targetNames targets ↔ NamesTarget targets v := by
  rw [targetNames, List.mem_filter, List.mem_map, and_comm, NamesTarget]
  refine and_congr_right fun h => ?_
  constructor
  · rintro ⟨piece, hpiece, hv⟩
    exact ⟨piece, hpiece, (trim_stripWhile_trim_iff h).1 hv⟩
  · rintro ⟨piece, hpiece, hv⟩
    exact ⟨piece, hpiece, (trim_stripWhile_trim_iff h).2 hv⟩

end

theorem NamesTarget.ne_nil {targets v : Text} (h : NamesTarget targets v) : targets ≠ [] := by
  rintro rfl
  obtain ⟨hname, piece, hpiece, a, b, hsplit, -⟩ := h
  obtain rfl : piece = [] := by simpa [Text.splitOn] using hpiece
  obtain ⟨-, rfl, -⟩ : a = [] ∧ v = [] ∧ b = [] := by simpa using hsplit
  exact ne_nil_of_isIdentifier hname rfl

/-! Statements that bind names. -/

/-- The target sets the name: it is the name, perhaps starred, or a list with such a part. -/
inductive Sets (v : Text) : Text → Prop
  | name (h : isIdentifier v = true) : Sets v v
  /-- Blanks around a target, also over the end of a line. -/
  | padded {a t b : Text} (ha : a.all (fun c => isBlank c || c == '\\') = true)
    (hb : b.all (fun c => isBlank c || c == '\\') = true) (sets : Sets v t) : Sets v (a ++ t ++ b)
  | part {t piece : Text} (mem : piece ∈ t.splitOutside ',') (sets : Sets v piece) : Sets v t
  | starred {t : Text} (sets : Sets v t) : Sets v ('*' :: t)
  | tuple {t : Text} (sets : Sets v t) : Sets v ('(' :: t ++ [')'])
  | list {t : Text} (sets : Sets v t) : Sets v ('[' :: t ++ [']'])

theorem Text.subset_of_mem_splitAtDepth {separator : Char} {depth : Nat} {t piece : Text}
    (h : piece ∈ splitAtDepth separator depth t) : piece ⊆ t := by
  induction t generalizing depth piece with
  | nil =>
    obtain rfl : piece = [] := by simpa [splitAtDepth] using h
    exact List.Subset.refl []
  | cons c cs ih =>
    rw [splitAtDepth] at h
    split at h
    · rcases List.mem_cons.1 h with rfl | h
      · exact List.nil_subset _
      · exact List.subset_cons_of_subset c (ih h)
    · cases hrest : splitAtDepth separator (bracketStep depth c) cs with
      | nil =>
        obtain rfl : piece = [c] := by simpa [hrest, consHead] using h
        exact List.cons_subset_cons c (List.nil_subset cs)
      | cons first more =>
        rw [hrest, consHead] at h
        rcases List.mem_cons.1 h with rfl | h
        · exact List.cons_subset_cons c (ih (hrest ▸ List.mem_cons_self))
        · exact List.subset_cons_of_subset c (ih (hrest ▸ List.mem_cons_of_mem first h))

/-- A target sets no name but one that it holds. -/
theorem Sets.subset {v t : Text} (h : Sets v t) : v ⊆ t := by
  induction h with
  | name => exact List.Subset.refl _
  | padded _ _ _ ih =>
    exact List.Subset.trans ih
      (List.subset_append_of_subset_left _ (List.subset_append_right _ _))
  | part mem _ ih => exact List.Subset.trans ih (Text.subset_of_mem_splitAtDepth mem)
  | starred _ ih => exact List.subset_cons_of_subset _ ih
  | tuple _ ih =>
    exact List.Subset.trans ih (List.subset_append_of_subset_left _ (List.subset_cons_self _ _))
  | list _ ih =>
    exact List.Subset.trans ih (List.subset_append_of_subset_left _ (List.subset_cons_self _ _))

/-- Targets and a value with equals signs between them, of which none is part of another operator. -/
structure IsAssignment (statement : Text) (targets : List Text) (value : Text) : Prop where
  written : statement = Text.join "=" (targets ++ [value])
  filled : ∀ t ∈ targets, t ≠ []
  before : ∀ t ∈ targets, ∀ c ∈ t.getLast?, c ∉ "+-*/%&|^<>!:".toList
  behind : ∀ t ∈ targets ++ [value], t.head? ≠ some '='

/-- A statement can begin behind the text: on a new line, or behind a semicolon or a colon. -/
def Opens (before : Text) : Prop :=
  ∃ a b, before = a ++ b ∧ Text.blank b = true ∧
    (a = [] ∨ '\n' ∈ b ∨ ∃ c ∈ a.getLast?, c = ';' ∨ c = ':')

/-- A statement can end before the text. -/
def Ends (rest : Text) : Prop := ∀ c ∈ rest.head?, c = '\n' ∨ c = ';' ∨ c = '#'

/-- The words around the target of a loop stand apart from it. -/
def Apart (t rest : Text) : Prop :=
  ∀ c, (t.head? = some c ∨ t.getLast? = some c ∨ rest.head? = some c) →
    Identifier.isXidContinue c = false

/-- A statement of the text binds the name: an assignment, by any of its targets, or a loop. -/
inductive BoundIn (text v : Text) : Prop
  | assignment {before statement rest t value : Text} {targets : List Text}
    (place : text = before ++ statement ++ rest) (opens : Opens before) (ends : Ends rest)
    (form : IsAssignment statement targets value) (mem : t ∈ targets) (sets : Sets v t)
  | loop {before word t rest : Text} (place : text = before ++ word ++ t ++ "in".toList ++ rest)
    (opens : Opens before) (word : word = "for" ∨ word = "async for") (apart : Apart t rest)
    (sets : Sets v t)

/-! Lines that show names. -/

/-- The line shows the name: alone among the targets of a loop, or among those left of the first
equals sign of an assignment. -/
inductive Shows (line v : Text) : Prop
  | loop {header targets iterable : Text} (head : Text.trim line = "for ".toList ++ header)
    (cut : Text.FirstCut " in " header targets iterable) (name : NamesTarget targets v)
  | assignment {first value : Text} {more : List Text}
    (head : ∀ header, Text.trim line ≠ "for ".toList ++ header)
    (form : IsAssignment (Text.trim line) (first :: more) value) (whole : '=' ∉ first)
    (name : NamesTarget first v)

namespace IsAssignment

variable {statement first value : Text} {more : List Text}

/-- The first target ends at the first equals sign, behind which there is no second one. -/
theorem firstCut (h : IsAssignment statement (first :: more) value) (hwhole : '=' ∉ first) :
    ∃ rest, Text.FirstCut "=" statement first rest ∧ rest.head? ≠ some '=' := by
  refine ⟨Text.join "=" (more ++ [value]), Text.firstCut_char_iff.2 ⟨?_, hwhole⟩, ?_⟩
  · cases more with
    | nil => exact h.written.trans (join_cons_cons ..)
    | cons next more => exact h.written.trans (join_cons_cons ..)
  · cases more with
    | nil =>
      have hvalue := h.behind value (by simp)
      simpa [Text.join] using hvalue
    | cons next more =>
      have hnext := h.behind next (by simp)
      have hfilled := h.filled next (by simp)
      obtain ⟨c, cs, rfl⟩ := List.exists_cons_of_ne_nil hfilled
      cases more <;> simpa [Text.join, List.intercalate_cons_cons] using hnext

theorem of_firstCut {left right : Text} (cut : Text.FirstCut "=" statement left right)
    (hfilled : left ≠ []) (hsingle : right.head? ≠ some '=')
    (hsimple : ∀ c ∈ left.getLast?, c ∉ "+-*/%&|^<>!:".toList) :
    IsAssignment statement [left] right where
  written := cut.eq.trans (by simp [Text.join, List.intercalate_cons_cons])
  filled := by simpa using hfilled
  before := by simpa using hsimple
  behind := by
    have hleft : left.head? ≠ some '=' := fun h =>
      (Text.firstCut_char_iff.1 cut).2 (List.mem_of_head? h)
    simpa using ⟨hleft, hsingle⟩

end IsAssignment

section

variable {line v : Text}

theorem startsWith_equals (t : Text) :
    Text.startsWith "=" t = true ↔ t.head? = some '=' := by
  cases t with
  | nil => simp [Text.startsWith, Text.after?]
  | cons c cs =>
    by_cases hc : c = '='
    · simp [Text.startsWith, Text.after?, hc]
    · simp [Text.startsWith, Text.after?, hc, Ne.symm hc]

/-- The sign at the end makes the equals sign part of something else. -/
def compound (left : Text) : Bool :=
  left.getLast?.any fun c => "+-*/%&|^<>!:".toList.contains c

theorem lineBindings_of_for {header : Text} (h : Text.trim line = "for ".toList ++ header) :
    lineBindings line =
      (Text.cut? " in " header).elim [] fun cut => targetNames cut.1 := by
  simp only [lineBindings, Text.after?_eq_some_iff.2 h]
  cases Text.cut? " in " header <;> rfl

theorem lineBindings_of_not_for (h : Text.after? "for " (Text.trim line) = none) :
    lineBindings line = (Text.cut? "=" (Text.trim line)).elim [] fun cut =>
      if Text.startsWith "=" cut.2 || compound cut.1 then [] else targetNames cut.1 := by
  simp only [lineBindings, h]
  cases hcut : Text.cut? "=" (Text.trim line) with
  | none => rfl
  | some cut => cases hlast : cut.1.getLast? <;> simp [compound, hlast]

theorem compound_eq_false {left : Text} :
    compound left = false ↔ ∀ c ∈ left.getLast?, c ∉ "+-*/%&|^<>!:".toList := by
  rw [compound]
  cases left.getLast? <;> simp

theorem mem_lineBindings : v ∈ lineBindings line ↔ Shows line v := by
  cases hfor : Text.after? "for " (Text.trim line) with
  | some header =>
    have hhead := Text.after?_eq_some_iff.1 hfor
    rw [lineBindings_of_for hhead]
    constructor
    · intro hv
      cases hcut : Text.cut? " in " header with
      | none =>
        rw [hcut] at hv
        simp at hv
      | some cut =>
        rw [hcut] at hv
        exact .loop hhead (Text.cut?_eq_some_iff.1 hcut) (mem_targetNames.1 hv)
    · intro h
      cases h with
      | loop head cut name =>
        rw [hhead] at head
        obtain rfl := List.append_cancel_left head
        rw [Text.cut?_eq_some_iff.2 cut]
        exact mem_targetNames.2 name
      | assignment head => exact absurd hhead (head header)
  | none =>
    have hhead : ∀ header, Text.trim line ≠ "for ".toList ++ header := by
      intro header heq
      rw [Text.after?_eq_some_iff.2 heq] at hfor
      simp at hfor
    rw [lineBindings_of_not_for hfor]
    constructor
    · intro hv
      cases hcut : Text.cut? "=" (Text.trim line) with
      | none =>
        rw [hcut] at hv
        simp at hv
      | some cut =>
        rw [hcut, Option.elim_some] at hv
        split at hv
        · simp at hv
        · next hsimple =>
          rw [Bool.or_eq_true, not_or, startsWith_equals, Bool.not_eq_true] at hsimple
          have hname := mem_targetNames.1 hv
          have hfirst := Text.cut?_eq_some_iff.1 hcut
          exact .assignment hhead
            (.of_firstCut hfirst hname.ne_nil hsimple.1 (compound_eq_false.1 hsimple.2))
            (Text.firstCut_char_iff.1 hfirst).2 hname
    · intro h
      cases h with
      | loop head => exact absurd head (hhead _)
      | assignment _ form whole name =>
        obtain ⟨rest, cut, hsingle⟩ := form.firstCut whole
        have hsimple := compound_eq_false.2 (form.before _ List.mem_cons_self)
        rw [Text.cut?_eq_some_iff.2 cut, Option.elim_some, if_neg]
        · exact mem_targetNames.2 name
        · rw [Bool.or_eq_true, not_or, startsWith_equals, Bool.not_eq_true]
          exact ⟨hsingle, hsimple⟩

/-- An assignment shows what stands alone in its first target, and nothing of the others. -/
theorem shows_iff_of_isAssignment {first value : Text} {more : List Text}
    (form : IsAssignment (Text.trim line) (first :: more) value) (hwhole : '=' ∉ first)
    (head : ∀ header, Text.trim line ≠ "for ".toList ++ header) :
    Shows line v ↔ NamesTarget first v := by
  refine ⟨fun h => ?_, fun name => .assignment head form hwhole name⟩
  cases h with
  | loop head' => exact absurd head' (head _)
  | assignment _ form' whole' name =>
    obtain ⟨_, cut, -⟩ := form.firstCut hwhole
    obtain ⟨_, cut', -⟩ := form'.firstCut whole'
    rwa [(cut.unique cut').1]

theorem shows_iff_of_for {header targets iterable : Text}
    (head : Text.trim line = "for ".toList ++ header)
    (cut : Text.FirstCut " in " header targets iterable) :
    Shows line v ↔ NamesTarget targets v := by
  refine ⟨fun h => ?_, fun name => .loop head cut name⟩
  cases h with
  | loop head' cut' name =>
    obtain rfl := List.append_cancel_left (head.symm.trans head')
    rwa [(cut.unique cut').1]
  | assignment head' => exact absurd head (head' _)

theorem lineBindings_congr {line' : Text} (h : Text.trim line = Text.trim line') :
    lineBindings line = lineBindings line' := by
  rw [lineBindings, h, ← lineBindings]

/-- Joining lines and splitting them again loses no binding. -/
theorem flatMap_lineBindings {ls : List Text} (h : ∀ l ∈ ls, '\n' ∉ l) :
    (Text.unlines ls).lines.flatMap lineBindings = ls.flatMap lineBindings := by
  rcases List.eq_nil_or_concat' ls with rfl | ⟨init, last, rfl⟩
  · rfl
  · have hinit : ∀ l ∈ init, '\n' ∉ l := fun l hl => h l (List.mem_append_left _ hl)
    have hlast : '\n' ∉ last := h last (List.mem_append_right _ List.mem_cons_self)
    have hend : (if last = [] then [] else [last]).flatMap lineBindings =
        [last].flatMap lineBindings := by
      split
      · next hnil =>
        rw [hnil]
        rfl
      · rfl
    have hchomp : (fun l => lineBindings (Text.chomp l)) = lineBindings := by
      funext l
      exact lineBindings_congr (Text.trim_chomp l)
    rw [Text.lines_unlines hinit hlast, List.flatMap_append, List.flatMap_append, hend,
      List.flatMap_map, hchomp]

end

/-- The bindings of a span of lines are what its lines show. -/
theorem Source.mem_bindings_textOf {s : Source} {span : Span} (hs : ∀ i, '\n' ∉ s.textAt i)
    {v : Text} : v ∈ bindings (s.textOf span) ↔ ∃ line ∈ s.slice span, Shows line v := by
  have hslice : ∀ t ∈ s.slice span, '\n' ∉ t := by
    intro t ht
    obtain ⟨line, hline, rfl⟩ := List.mem_map.1 ht
    obtain ⟨i, hi⟩ := List.getElem?_of_mem (List.mem_of_mem_take (List.mem_of_mem_drop hline))
    have htext : s.textAt i = line.text := by
      rw [textAt, text?, hi, Option.map_some, Option.getD_some]
    exact htext ▸ hs i
  rw [bindings, NameSet.mem_ofList, textOf, flatMap_lineBindings hslice, List.mem_flatMap]
  simp only [mem_lineBindings]

namespace Host

theorem mem_capturedNames {visible : NameSet} {headers : List ForHeader}
    {reductions : List ReductionVar} {body : List Text} {v : Text} :
    v ∈ capturedNames visible headers reductions body ↔
      v ∈ identifiers (Text.unlines body) ∧ isBuiltin v = false ∧ v ∈ visible ∧
        (∀ header ∈ headers, v ∉ identifiers header.target) ∧ ∀ r ∈ reductions, r.name ≠ v := by
  have hreferenced : v ∈ (referencedNames (Text.unlines body)).names ↔
      v ∈ identifiers (Text.unlines body) ∧ isBuiltin v = false := by
    change v ∈ referencedNames (Text.unlines body) ↔ _
    rw [referencedNames, NameSet.mem_ofList, List.mem_filter, Bool.not_eq_true']
  simp only [capturedNames, List.mem_filter, hreferenced, Bool.and_eq_true, decide_eq_true_eq,
    Bool.not_eq_true', List.contains_eq_mem, decide_eq_false_iff_not, List.mem_flatMap,
    List.mem_map, not_exists, not_and]
  tauto

/-- The lines of a function from its body's first one to a loop. -/
def linesAbove (target : Target) (nest : LoopNest) : List Text :=
  target.source.slice ⟨target.body.span.start, nest.span.start⟩

/-- The names in scope at a loop, by what the lines above it show. -/
theorem mem_visibleNames {config : Config} {f : FunctionContext} {nest : LoopNest} {v : Text} :
    v ∈ visibleNames (.ofContext f config.tabWidth config.entry) nest ↔
      v ∈ f.bareParameters ∨
        ∃ line ∈ linesAbove (.ofContext f config.tabWidth config.entry) nest, Shows line v := by
  have hlines : ∀ i, '\n' ∉ (Target.ofContext f config.tabWidth config.entry).source.textAt i :=
    Source.newline_not_mem_textAt _ _
  rw [visibleNames, NameSet.mem_union, or_comm, Source.mem_bindings_textOf hlines]
  rfl

/-- Why a kernel leaves out a name that is bound above its loop. -/
inductive Missed (parameters : List Text) (headers : List ForHeader) (above : List Text)
    (v : Text) : Prop
  | builtin (h : isBuiltin v = true)
  | mentioned {header : ForHeader} (mem : header ∈ headers) (h : v ∈ identifiers header.target)
  | hidden (parameter : v ∉ parameters) (lines : ∀ line ∈ above, ¬ Shows line v)

/-- What a kernel captures. -/
structure Captures (f : FunctionContext) (above : List Text) (nest : LoopNest) (kernel : Kernel) :
    Prop where
  head : ∃ rest, kernel.render = kernel.head ++ rest
  captured : ∀ v, v ∈ kernel.captured ↔
    v ∈ identifiers (Text.unlines kernel.body) ∧ isBuiltin v = false ∧
      (v ∈ f.bareParameters ∨ ∃ line ∈ above, Shows line v) ∧
      (∀ header ∈ nest.headers, v ∉ identifiers header.target) ∧
      ∀ r ∈ kernel.reductions, r.name ≠ v
  /-- Of the bound names that the body uses and the kernel does not set itself, exactly the missed
  ones are not captured. -/
  missed : ∀ v, v ∈ f.bareParameters ∨ BoundIn (Text.unlines above) v →
    v ∈ identifiers (Text.unlines kernel.body) →
    (∀ header ∈ nest.headers, ¬ Sets v header.target) → (∀ r ∈ kernel.reductions, r.name ≠ v) →
    (v ∉ kernel.captured ↔ Missed f.bareParameters nest.headers above v)

theorem missed_iff {parameters above : List Text} {headers : List ForHeader} {v : Text} :
    Missed parameters headers above v ↔
      ¬ (isBuiltin v = false ∧ (v ∈ parameters ∨ ∃ line ∈ above, Shows line v) ∧
        ∀ header ∈ headers, v ∉ identifiers header.target) := by
  constructor
  · rintro hmissed ⟨hbuiltin, hvisible, hmention⟩
    cases hmissed with
    | builtin h => simp [h] at hbuiltin
    | mentioned mem h => exact hmention _ mem h
    | hidden parameter lines =>
      rcases hvisible with h | ⟨line, hline, hshows⟩
      · exact parameter h
      · exact lines line hline hshows
  · intro hmissing
    by_contra hno
    refine hmissing ⟨?_, ?_, fun header hheader h => hno (.mentioned hheader h)⟩
    · by_contra hbuiltin
      exact hno (.builtin (by simpa using hbuiltin))
    · by_contra hhidden
      rw [not_or, not_exists] at hhidden
      exact hno (.hidden hhidden.1 fun line hline hshows => hhidden.2 line ⟨hline, hshows⟩)

/-- A bound name that the body of a kernel uses is a parameter of the kernel unless it has the name
of a builtin, is mentioned in a target of the loops, or is shown by no line above the loop. Of an
assignment with several targets only the first one is shown. -/
theorem bound_name_missed_iff (config : Config) {f : FunctionContext} {tree : DirectiveTree}
    {ids : List Nat} {target : Target}
    (hrun : run (poolSize config.gangs) tree (.ofContext f config.tabWidth config.entry) ids =
      .ok target) :
    (∀ text, text ∈ target.kernels ↔ ∃ nest kernel gangs, Change.moved nest kernel gangs ∈
      changesFrom (poolSize config.gangs) tree (.ofContext f config.tabWidth config.entry) ids ∧
      kernel.render = text) ∧
    (∀ nest kernel gangs, Change.moved nest kernel gangs ∈
      changesFrom (poolSize config.gangs) tree (.ofContext f config.tabWidth config.entry) ids →
      Captures f (linesAbove target nest) nest kernel) ∧
    (∀ line first more value, IsAssignment (Text.trim line) (first :: more) value → '=' ∉ first →
      (∀ header, Text.trim line ≠ "for ".toList ++ header) →
      ∀ v, Shows line v ↔ NamesTarget first v) ∧
    ∀ line header targets iterable, Text.trim line = "for ".toList ++ header →
      Text.FirstCut " in " header targets iterable → ∀ v, Shows line v ↔ NamesTarget targets v := by
  refine ⟨fun text => mem_kernels_iff hrun, fun nest kernel gangs hmoved => ?_,
    fun line first more value form hwhole head v => shows_iff_of_isAssignment form hwhole head,
    fun line header targets iterable head cut v => shows_iff_of_for head cut⟩
  have hdiffers := differs_run hrun
  obtain ⟨id, -, region, hmade⟩ := exists_made hmoved
  have hcaptured : ∀ v, v ∈ kernel.captured ↔ _ := fun v => by
    rw [hmade.captured, mem_capturedNames, mem_visibleNames, linesAbove, ← hdiffers.source,
      ← hdiffers.span, ← linesAbove]
  refine ⟨?_, hcaptured, fun v _ hused _ hreduced => ?_⟩
  · rw [kernel.render_eq, Kernel.opening]
    simp only [List.append_assoc]
    exact ⟨_, rfl⟩
  · rw [missed_iff, hcaptured]
    refine not_congr ⟨fun h => ⟨h.2.1, h.2.2.1, h.2.2.2.1⟩, fun h => ?_⟩
    exact ⟨hused, h.1, h.2.1, h.2.2, hreduced⟩

/-- A parameter with the name of a builtin, and an assignment with two targets. -/
def shadowingLoop : FunctionContext where
  source := Text.unlines ["def f(sum, n):", "    a = b = n", "    # acc parallel loop",
    "    for i in range(n):", "        g(sum, a, b, i)", "    return a"]
  name := "f"
  parameters := ["sum", "n"]

def shadowingNest : LoopNest where
  headers := [⟨"i", "range(n)"⟩]
  span := ⟨3, 5⟩
  body := ⟨4, 5⟩

def shadowingKernel : Kernel where
  line := 2
  captured := ["a"]
  headers := shadowingNest.headers
  reductions := []
  body := ["g(sum, a, b, i)"]

def shadowingLines : List Text := ["    a = b = n".toList, "    # acc parallel loop".toList]

theorem exists_run_shadowingLoop :
    ∃ tree target, (parse {} shadowingLoop.source).outcome = .ok tree ∧
      run (poolSize defaultGangs) tree (.ofContext shadowingLoop Source.defaultTabWidth
        Target.defaultEntry) tree.breadthFirst = .ok target ∧
      linesAbove target shadowingNest = shadowingLines ∧
      .moved shadowingNest shadowingKernel 4 ∈ changesOf {} shadowingLoop tree := by
  obtain ⟨tree, target, htree, htarget, hsource, hmoved, -⟩ := exists_run_of_check
    shadowingLoop shadowingNest shadowingKernel 4 [.line 4] (by decide +kernel)
  have hlines : linesAbove target shadowingNest = shadowingLines := by
    rw [linesAbove, hsource, (differs_run htarget).span]
    decide +kernel
  exact ⟨tree, target, htree, htarget, hlines, hmoved⟩

/-- The assignment binds both of its targets. -/
theorem boundIn_shadowingLines :
    BoundIn (Text.unlines shadowingLines) "a" ∧ BoundIn (Text.unlines shadowingLines) "b" := by
  have hspace : ∀ t ∈ ["    a ".toList, " b ".toList], t.getLast? = some ' ' := by decide
  have hform : IsAssignment "    a = b = n".toList ["    a ".toList, " b ".toList] " n".toList := by
    refine ⟨by decide, by decide, fun t ht c hc => ?_, by decide⟩
    obtain rfl : ' ' = c := Option.some.inj ((hspace t ht).symm.trans hc)
    decide
  have hopens : Opens [] := ⟨[], [], rfl, rfl, .inl rfl⟩
  have hends : Ends ('\n' :: "    # acc parallel loop".toList) := by
    intro c hc
    exact .inl (Option.some.inj hc).symm
  have hplace : Text.unlines shadowingLines =
      [] ++ "    a = b = n".toList ++ '\n' :: "    # acc parallel loop".toList := by decide
  have ha : Sets "a".toList ("    ".toList ++ "a".toList ++ " ".toList) :=
    .padded (by decide) (by decide) (.name (by decide +kernel))
  have hb : Sets "b".toList (" ".toList ++ "b".toList ++ " ".toList) :=
    .padded (by decide) (by decide) (.name (by decide +kernel))
  exact ⟨.assignment hplace hopens hends hform (by decide) ha,
    .assignment hplace hopens hends hform (by decide) hb⟩

/-- The first target of the assignment is captured. The second one is hidden behind it, and the
parameter has the name of a builtin. -/
theorem shadowingLoop_misses_names :
    FunctionContext.ofSource shadowingLoop.source = .ok shadowingLoop ∧
      ∃ tree target, (parse {} shadowingLoop.source).outcome = .ok tree ∧
        run (poolSize defaultGangs) tree (.ofContext shadowingLoop Source.defaultTabWidth
          Target.defaultEntry) tree.breadthFirst = .ok target ∧
        .moved shadowingNest shadowingKernel 4 ∈ changesOf {} shadowingLoop tree ∧
        shadowingKernel.render ∈ target.kernels ∧
        (∀ v ∈ ["a".toList, "b".toList, "sum".toList],
          (v ∈ shadowingLoop.bareParameters ∨
            BoundIn (Text.unlines (linesAbove target shadowingNest)) v) ∧
          v ∈ identifiers (Text.unlines shadowingKernel.body) ∧
          (∀ header ∈ shadowingNest.headers, ¬ Sets v header.target) ∧
          ∀ r ∈ shadowingKernel.reductions, r.name ≠ v) ∧
        "a".toList ∈ shadowingKernel.captured ∧ "b".toList ∉ shadowingKernel.captured ∧
        "sum".toList ∉ shadowingKernel.captured := by
  obtain ⟨tree, target, htree, htarget, hlines, hmoved⟩ := exists_run_shadowingLoop
  obtain ⟨hkernels, hcaptures, -⟩ := bound_name_missed_iff {} htarget
  have hkernel := (hkernels _).2 ⟨_, _, _, hmoved, rfl⟩
  have hmissed := (hcaptures _ _ _ hmoved).missed
  have hfree : ∀ v ∈ ["a".toList, "b".toList, "sum".toList],
      ∀ header ∈ shadowingNest.headers, ¬ Sets v header.target := by
    intro v hv header hheader hsets
    obtain rfl := List.mem_singleton.1 hheader
    have hletter : ∀ v ∈ ["a".toList, "b".toList, "sum".toList], ¬ v ⊆ "i".toList := by decide
    exact hletter v hv hsets.subset
  have hbound : ∀ v ∈ ["a".toList, "b".toList, "sum".toList],
      v ∈ shadowingLoop.bareParameters ∨
        BoundIn (Text.unlines (linesAbove target shadowingNest)) v := by
    obtain ⟨ha, hb⟩ := boundIn_shadowingLines
    rw [hlines]
    simp only [List.forall_mem_cons]
    exact ⟨.inr ha, .inr hb, .inl (by decide +kernel), by simp⟩
  have hused : ∀ v ∈ ["a".toList, "b".toList, "sum".toList],
      v ∈ identifiers (Text.unlines shadowingKernel.body) := by decide +kernel
  have hreduced : ∀ v, ∀ r ∈ shadowingKernel.reductions, r.name ≠ v := fun v r hr => nomatch hr
  have hiff : ∀ v ∈ ["a".toList, "b".toList, "sum".toList], v ∉ shadowingKernel.captured ↔
      Missed shadowingLoop.bareParameters shadowingNest.headers shadowingLines v := by
    intro v hv
    rw [← hlines]
    exact hmissed v (hbound v hv) (hused v hv) (hfree v hv) (hreduced v)
  refine ⟨eq_ok_of_toOption (by decide +kernel), tree, target, htree, htarget, hmoved, hkernel,
    fun v hv => ⟨hbound v hv, hused v hv, hfree v hv, hreduced v⟩, ?_, ?_, ?_⟩
  · by_contra hmissing
    cases (hiff _ (by decide)).1 hmissing with
    | builtin h => exact absurd h (by decide)
    | mentioned mem h =>
      obtain rfl := List.mem_singleton.1 mem
      exact absurd h (by decide +kernel)
    | hidden _ lines =>
      exact lines _ List.mem_cons_self (mem_lineBindings.1 (by decide +kernel))
  · refine (hiff _ (by decide)).2 (.hidden (by decide +kernel) fun line hline => ?_)
    rw [← mem_lineBindings]
    revert line
    decide +kernel
  · exact (hiff _ (by decide)).2 (.builtin (by decide))

end Host
end Offload
