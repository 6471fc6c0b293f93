import Offload.Proofs.Carry
import Offload.Proofs.Enclosure

/-!
Headers of loops with a line put into them. A blank line between two lines of a statement adds no
word, no bracket and no quote, so the header stays one, and its iterable stays countable or not. A
statement that does not begin with `for` has no header, whatever is put into it.
-/
namespace Offload

namespace Text

variable {t t' u v mark : Text}

theorem after?_eq_some_iff {head rest : Text} : after? head t = some rest ↔ t = head ++ rest := by
  induction head generalizing t with
  | nil => simp [after?]
  | cons c cs ih =>
    cases t with
    | nil => simp [after?]
    | cons d ds =>
      simp only [after?, List.cons_append, List.cons.injEq]
      split
      · next hcd => simp [ih, hcd]
      · next hcd => simp [Ne.symm hcd]

/-- What has no line end in it is found within a line or not at all. -/
theorem after?_append_newline {head : Text} (h : '\n' ∉ head) (u v : Text) :
    after? head (u ++ '\n' :: v) = (after? head u).map (· ++ '\n' :: v) := by
  induction head generalizing u with
  | nil => simp [after?]
  | cons c cs ih =>
    have hc : c ≠ '\n' := fun he => h (he ▸ List.mem_cons_self)
    cases u with
    | nil => simp [after?, hc]
    | cons d ds =>
      simp only [List.cons_append, after?]
      split
      · exact ih (fun hm => h (List.mem_cons_of_mem _ hm)) ds
      · rfl

theorem blank_append (t u : Text) : blank (t ++ u) = (blank t && blank u) := List.all_append

theorem isBlank_newline : isBlank '\n' = true := by decide

/-- A text that is found in a single line and is not blank. -/
structure InLine (mark : Text) : Prop where
  no_newline : '\n' ∉ mark
  not_blank : blank mark = false

theorem InLine.after?_newline (h : InLine mark) (v : Text) : after? mark ('\n' :: v) = none := by
  have := after?_append_newline h.no_newline [] v
  rw [List.nil_append] at this
  rw [this]
  cases mark with
  | nil => exact absurd h.not_blank (by decide)
  | cons c cs => rfl

theorem InLine.after?_blank (h : InLine mark) {b : Text} (hb : blank b = true) (v : Text) :
    after? mark (b ++ '\n' :: v) = none := by
  rw [after?_append_newline h.no_newline, Option.map_eq_none_iff, Option.eq_none_iff_forall_ne_some]
  intro rest hrest
  rw [after?_eq_some_iff.1 hrest, blank_append, h.not_blank] at hb
  simp at hb

/-- The text `t'` is `t`, or has one more blank line between two lines of `t`. -/
def Spread (t t' : Text) : Prop :=
  t = t' ∨ ∃ u b v, blank b = true ∧ t = u ++ '\n' :: v ∧ t' = u ++ '\n' :: (b ++ '\n' :: v)

namespace Spread

theorem refl (t : Text) : Spread t t := .inl rfl

theorem append (h : Spread t t') (u v : Text) : Spread (u ++ t ++ v) (u ++ t' ++ v) := by
  rcases h with rfl | ⟨a, b, c, hb, rfl, rfl⟩
  · exact refl _
  · exact .inr ⟨u ++ a, b, c ++ v, hb, by simp, by simp⟩

theorem cons (h : Spread t t') (c : Char) : Spread (c :: t) (c :: t') := by
  simpa using h.append [c] []

theorem isEmpty_eq (h : Spread t t') : t.isEmpty = t'.isEmpty := by
  rcases h with rfl | ⟨u, b, v, -, rfl, rfl⟩
  · rfl
  · cases u <;> rfl

theorem head?_eq (h : Spread t t') : t.head? = t'.head? := by
  rcases h with rfl | ⟨u, b, v, -, rfl, rfl⟩
  · rfl
  · cases u <;> rfl

theorem getLast?_eq (h : Spread t t') : t.getLast? = t'.getLast? := by
  rcases h with rfl | ⟨u, b, v, -, rfl, rfl⟩
  · rfl
  · rw [show u ++ '\n' :: (b ++ '\n' :: v) = (u ++ '\n' :: b) ++ '\n' :: v by simp,
      List.getLast?_append, List.getLast?_append, List.getLast?_cons]
    rfl

theorem after? (h : Spread t t') {head : Text} (hm : '\n' ∉ head) :
    Option.Rel Spread (after? head t) (after? head t') := by
  rcases h with rfl | ⟨u, b, v, hb, rfl, rfl⟩
  · cases Text.after? head t with
    | none => exact .none
    | some rest => exact .some (refl rest)
  · rw [after?_append_newline hm, after?_append_newline hm]
    cases Text.after? head u with
    | none => exact .none
    | some rest => exact .some (.inr ⟨rest, b, v, hb, rfl, rfl⟩)

theorem startsWith_eq (h : Spread t t') {head : Text} (hm : '\n' ∉ head) :
    startsWith head t = startsWith head t' := by
  have hrel := h.after? hm
  unfold startsWith
  generalize Text.after? head t = x at hrel ⊢
  generalize Text.after? head t' = x' at hrel ⊢
  cases hrel <;> rfl

end Spread

/-! Trimming. -/

theorem dropWhile_append_of_blank {b : Text} (h : blank b = true) (t : Text) :
    (b ++ t).dropWhile isBlank = t.dropWhile isBlank := by
  rw [List.dropWhile_append, isEmpty_dropWhile, if_pos h]

theorem dropWhile_append_of_not_blank {u : Text} (h : blank u = false) (t : Text) :
    (u ++ t).dropWhile isBlank = u.dropWhile isBlank ++ t := by
  rw [List.dropWhile_append, isEmpty_dropWhile, h, if_neg (by simp)]

theorem blank_reverse (t : Text) : blank t.reverse = blank t := List.all_reverse

theorem dropEndWhile_append_of_blank {b : Text} (h : blank b = true) (t : Text) :
    dropEndWhile isBlank (t ++ b) = dropEndWhile isBlank t := by
  rw [dropEndWhile, List.reverse_append, dropWhile_append_of_blank (by rwa [blank_reverse]),
    dropEndWhile]

theorem dropEndWhile_append_of_not_blank {u : Text} (h : blank u = false) (t : Text) :
    dropEndWhile isBlank (t ++ u) = t ++ dropEndWhile isBlank u := by
  rw [dropEndWhile, List.reverse_append, dropWhile_append_of_not_blank (by rwa [blank_reverse]),
    List.reverse_append, List.reverse_reverse, dropEndWhile]

theorem Spread.trimStart (h : Spread t t') : Spread (trimStart t) (trimStart t') := by
  rcases h with rfl | ⟨u, b, v, hb, rfl, rfl⟩
  · exact refl _
  · unfold Text.trimStart
    cases hu : blank u with
    | true =>
      left
      rw [dropWhile_append_of_blank hu, dropWhile_append_of_blank hu,
        List.dropWhile_cons_of_pos isBlank_newline, List.dropWhile_cons_of_pos isBlank_newline,
        dropWhile_append_of_blank hb, List.dropWhile_cons_of_pos isBlank_newline]
    | false =>
      rw [dropWhile_append_of_not_blank hu, dropWhile_append_of_not_blank hu]
      exact .inr ⟨_, b, v, hb, rfl, rfl⟩

theorem Spread.trimEnd (h : Spread t t') : Spread (trimEnd t) (trimEnd t') := by
  rcases h with rfl | ⟨u, b, v, hb, rfl, rfl⟩
  · exact refl _
  · unfold Text.trimEnd
    cases hv : blank v with
    | true =>
      left
      rw [dropEndWhile_append_of_blank (by simp [blank_cons, isBlank_newline, hv]),
        dropEndWhile_append_of_blank
          (by simp [blank_cons, blank_append, isBlank_newline, hb, hv])]
    | false =>
      right
      refine ⟨u, b, dropEndWhile isBlank v, hb, ?_, ?_⟩
      · rw [List.append_cons, dropEndWhile_append_of_not_blank hv]
        simp
      · rw [show u ++ '\n' :: (b ++ '\n' :: v) = (u ++ '\n' :: (b ++ ['\n'])) ++ v by simp,
          dropEndWhile_append_of_not_blank hv]
        simp

theorem Spread.trim (h : Spread t t') : Spread (trim t) (trim t') := h.trimStart.trimEnd

/-! Comments. -/

/-- A blank neither closes a literal nor escapes anything. -/
theorem beforeComment?_cons_blank {quote : Option Char} (hq : ∀ q ∈ quote, isBlank q = false)
    (escaped : Bool) {c : Char} (hc : isBlank c = true) (t : Text) :
    beforeComment? quote escaped (c :: t) = (beforeComment? quote false t).map (c :: ·) := by
  cases quote with
  | none =>
    have hcomment := ne_of_isBlank hc (d := '#') (by decide)
    simp [beforeComment?, isQuote_of_isBlank hc, hcomment]
  | some q =>
    have hclose := ne_of_isBlank hc (hq q rfl)
    have hescape := beq_eq_false_iff_ne.2 (ne_of_isBlank hc (d := '\\') (by decide))
    simp [beforeComment?, hclose, hescape]

theorem beforeComment?_append_blank {quote : Option Char} (hq : ∀ q ∈ quote, isBlank q = false)
    {b : Text} (hb : blank b = true) (t : Text) :
    beforeComment? quote false (b ++ t) = (beforeComment? quote false t).map (b ++ ·) := by
  induction b with
  | nil => simp
  | cons c b ih =>
    rw [blank_cons, Bool.and_eq_true] at hb
    rw [List.cons_append, beforeComment?_cons_blank hq false hb.1, ih hb.2, Option.map_map]
    rfl

theorem Spread.map_cons {x x' : Option Text} (h : Option.Rel Spread x x') (c : Char) :
    Option.Rel Spread (x.map (c :: ·)) (x'.map (c :: ·)) := by
  cases h with
  | some h => exact .some (h.cons c)
  | none => exact .none

theorem Spread.beforeComment? (h : Spread t t') {quote : Option Char}
    (hq : ∀ q ∈ quote, isBlank q = false) (escaped : Bool) :
    Option.Rel Spread (beforeComment? quote escaped t) (beforeComment? quote escaped t') := by
  rcases h with rfl | ⟨u, b, v, hb, rfl, rfl⟩
  · cases Text.beforeComment? quote escaped t with
    | none => exact .none
    | some code => exact .some (refl code)
  · induction u generalizing quote escaped with
    | nil =>
      rw [List.nil_append, List.nil_append, beforeComment?_cons_blank hq escaped isBlank_newline,
        beforeComment?_cons_blank hq escaped isBlank_newline, beforeComment?_append_blank hq hb,
        beforeComment?_cons_blank hq false isBlank_newline]
      cases Text.beforeComment? quote false v with
      | none => exact .none
      | some code => exact .some (.inr ⟨[], b, code, hb, rfl, by simp⟩)
    | cons c u ih =>
      cases quote with
      | none =>
        simp only [List.cons_append, Text.beforeComment?]
        split
        · next hc =>
          refine map_cons (ih (fun q hmem => ?_) false) c
          obtain rfl := Option.some.inj hmem
          cases hb : isBlank c with
          | false => rfl
          | true => simp [isQuote_of_isBlank hb] at hc
        · split
          · exact .some (refl [])
          · exact map_cons (ih hq false) c
      | some q =>
        simp only [List.cons_append, Text.beforeComment?]
        refine map_cons (ih (fun q' hmem => ?_) _) c
        split at hmem
        · simp at hmem
        · exact hq q' hmem

theorem Spread.withoutComment (h : Spread t t') :
    Spread (withoutComment t) (withoutComment t') := by
  have hrel : Option.Rel Spread (Text.beforeComment? none false t)
      (Text.beforeComment? none false t') := h.beforeComment? (by simp) false
  unfold Text.withoutComment
  generalize Text.beforeComment? none false t = x at hrel
  generalize Text.beforeComment? none false t' = x' at hrel
  cases hrel with
  | some hcode => exact hcode.trimEnd
  | none => exact h

/-! Marks outside brackets. -/

theorem cutAtDepth?_cons_blank (depth : Nat) {c : Char} {t : Text}
    (hc : isBlank c = true) (hno : after? mark (c :: t) = none) :
    cutAtDepth? mark depth (c :: t) =
      (cutAtDepth? mark depth t).map fun (before, rest) => (c :: before, rest) := by
  rw [cutAtDepth?, isOpening_of_isBlank hc, isClosing_of_isBlank hc, hno]
  simp

theorem InLine.cutAtDepth?_append_blank (h : InLine mark) (depth : Nat) {b : Text}
    (hb : blank b = true) (v : Text) :
    cutAtDepth? mark depth (b ++ '\n' :: v) =
      (cutAtDepth? mark depth v).map fun (before, rest) => (b ++ '\n' :: before, rest) := by
  induction b with
  | nil => exact cutAtDepth?_cons_blank depth isBlank_newline (h.after?_newline v)
  | cons c b ih =>
    have hnone := h.after?_blank hb v
    rw [List.cons_append] at hnone
    rw [blank_cons, Bool.and_eq_true] at hb
    rw [List.cons_append, cutAtDepth?_cons_blank depth hb.1 hnone, ih hb.2, Option.map_map]
    rfl

/-- Both parts of a text that is cut may be spread. -/
def SpreadPair (p p' : Text × Text) : Prop := Spread p.1 p'.1 ∧ Spread p.2 p'.2

theorem SpreadPair.map_cons {x x' : Option (Text × Text)} (h : Option.Rel SpreadPair x x')
    (c : Char) :
    Option.Rel SpreadPair (x.map fun (before, rest) => (c :: before, rest))
      (x'.map fun (before, rest) => (c :: before, rest)) := by
  cases h with
  | some h => exact .some ⟨h.1.cons c, h.2⟩
  | none => exact .none

theorem Spread.cutAtDepth? (h : Spread t t') (hm : InLine mark) (depth : Nat) :
    Option.Rel SpreadPair (cutAtDepth? mark depth t) (cutAtDepth? mark depth t') := by
  rcases h with rfl | ⟨u, b, v, hb, rfl, rfl⟩
  · cases Text.cutAtDepth? mark depth t with
    | none => exact .none
    | some parts => exact .some ⟨refl _, refl _⟩
  · induction u generalizing depth with
    | nil =>
      rw [List.nil_append, List.nil_append,
        cutAtDepth?_cons_blank depth isBlank_newline (hm.after?_newline v),
        cutAtDepth?_cons_blank depth isBlank_newline (hm.after?_newline _),
        hm.cutAtDepth?_append_blank depth hb]
      cases Text.cutAtDepth? mark depth v with
      | none => exact .none
      | some parts => exact .some ⟨.inr ⟨[], b, parts.1, hb, rfl, rfl⟩, refl _⟩
    | cons c u ih =>
      have hafter := after?_append_newline hm.no_newline (c :: u)
      simp only [List.cons_append] at hafter
      simp only [List.cons_append, Text.cutAtDepth?, hafter]
      split
      · exact SpreadPair.map_cons (ih _) c
      · by_cases hd : depth = 0
        · simp only [hd, if_true]
          cases Text.after? mark (c :: u) with
          | none => exact SpreadPair.map_cons (ih 0) c
          | some rest => exact .some ⟨refl [], .inr ⟨rest, b, v, hb, rfl, rfl⟩⟩
        · simp only [hd, if_false]
          exact SpreadPair.map_cons (ih depth) c

end Text

/-! Countable iterables. -/

namespace Countable

theorem subscripts_append_blank {b : Text} (hb : Text.blank b = true) (t : Text) :
    subscripts true (b ++ t) = subscripts true t := by
  induction b with
  | nil => rfl
  | cons c b ih =>
    rw [Text.blank_cons, Bool.and_eq_true] at hb
    have hclose := bne_iff_ne.2 (ne_of_isBlank hb.1 (d := ']') (by decide))
    simp [subscripts, hclose, ih hb.2]

theorem subscripts_spread {t t' : Text} (h : Text.Spread t t') (inside : Bool) :
    subscripts inside t = subscripts inside t' := by
  rcases h with rfl | ⟨u, b, v, hb, rfl, rfl⟩
  · rfl
  · induction u generalizing inside with
    | nil => cases inside <;> simp [subscripts, subscripts_append_blank hb]
    | cons c u ih =>
      simp only [List.cons_append, subscripts]
      split
      · exact ih _
      · rw [ih]

theorem dotted_spread {t t' : Text} (h : Text.Spread t t') (fresh : Bool) :
    dotted fresh t = dotted fresh t' := by
  rcases h with rfl | ⟨u, b, v, hb, rfl, rfl⟩
  · rfl
  · induction u generalizing fresh with
    | nil => cases fresh <;> simp [dotted, subscripts, isNameStart, isNameRest]
    | cons c u ih =>
      have hsub := subscripts_spread (.inr ⟨c :: u, b, v, hb, rfl, rfl⟩) false
      simp only [List.cons_append] at hsub
      simp only [List.cons_append, dotted, hsub, ih]

end Countable

theorem isCountable_spread {t t' : Text} (h : Text.Spread t t') : isCountable t = isCountable t' := by
  have htrim := h.trim
  simp only [isCountable]
  rw [htrim.startsWith_eq (by decide), htrim.getLast?_eq, htrim.head?_eq,
    Countable.dotted_spread htrim]

namespace ForHeader

/-- The iterables of the two headers are countable or not. -/
def SameCount (h h' : ForHeader) : Prop := isCountable h.iterable = isCountable h'.iterable

theorem ofClause?_spread {t t' : Text} (h : Text.Spread t t') :
    Option.Rel SameCount (ofClause? t) (ofClause? t') := by
  have hin : Text.InLine " in " := ⟨by decide, by decide⟩
  have hcolon : Text.InLine ":" := ⟨by decide, by decide⟩
  have hcut := h.cutAtDepth? hin 0
  unfold ofClause?
  generalize Text.cutAtDepth? " in " 0 t = x at hcut
  generalize Text.cutAtDepth? " in " 0 t' = x' at hcut
  cases hcut with
  | none => exact .none
  | some hparts =>
    next parts parts' =>
    have hcut := hparts.2.cutAtDepth? hcolon 0
    simp only [Option.bind_eq_bind, Option.bind_some]
    generalize Text.cutAtDepth? ":" 0 parts.2 = y at hcut
    generalize Text.cutAtDepth? ":" 0 parts'.2 = y' at hcut
    cases hcut with
    | none => exact .none
    | some hrest =>
      next rest rest' =>
      simp only [Option.bind_some, hparts.1.trim.isEmpty_eq, hrest.1.trim.isEmpty_eq]
      split
      · exact .none
      · exact .some (isCountable_spread hrest.1.trim)

/-- A blank line inside a statement leaves a header as it is. -/
theorem parse?_spread {t t' : Text} (h : Text.Spread t t') :
    Option.Rel SameCount (parse? t) (parse? t') := by
  have hafter : Option.Rel Text.Spread (Text.after? "for" (Text.withoutComment (Text.trim t)))
      (Text.after? "for" (Text.withoutComment (Text.trim t'))) :=
    h.trim.withoutComment.after? (by decide)
  unfold parse?
  generalize Text.after? "for" (Text.withoutComment (Text.trim t)) = x at hafter
  generalize Text.after? "for" (Text.withoutComment (Text.trim t')) = x' at hafter
  cases hafter with
  | none => exact .none
  | some hrest =>
    next rest rest' =>
    have hhead := hrest.head?_eq
    cases rest with
    | nil =>
      cases rest' with
      | nil => exact .none
      | cons c rest' => simp at hhead
    | cons c rest =>
      cases rest' with
      | nil => simp at hhead
      | cons c' rest' =>
        obtain rfl : c = c' := by simpa using hhead
        simp only
        split
        · exact ofClause?_spread hrest
        · exact .none

/-- Blanks at the end of a statement do not matter. -/
theorem parse?_append_blank {b : Text} (hb : Text.blank b = true) (t : Text) :
    parse? (t ++ b) = parse? t := by
  have htrim : Text.trim (t ++ b) = Text.trim t := by
    unfold Text.trim Text.stripWhile
    cases ht : Text.blank t with
    | true =>
      have hnil : ∀ u, Text.blank u = true → u.dropWhile isBlank = [] := fun u hu =>
        List.isEmpty_iff.1 (by rw [Text.isEmpty_dropWhile, hu])
      rw [Text.dropWhile_append_of_blank ht, hnil b hb, hnil t ht]
    | false =>
      rw [Text.dropWhile_append_of_not_blank ht, Text.dropEndWhile_append_of_blank hb]
  rw [parse?, htrim, ← parse?]

end ForHeader

/-! Statements that are no loops. -/

namespace Text

theorem exists_beforeComment?_append {quote : Option Char} {escaped : Bool} {t code : Text}
    (h : beforeComment? quote escaped t = some code) : ∃ rest, t = code ++ rest := by
  induction t generalizing quote escaped code with
  | nil => simp [beforeComment?] at h
  | cons c cs ih =>
    simp only [beforeComment?] at h
    split at h
    · obtain ⟨code, hcode, rfl⟩ := Option.map_eq_some_iff.1 h
      obtain ⟨rest, rfl⟩ := ih hcode
      exact ⟨rest, rfl⟩
    · split at h
      · obtain ⟨code, hcode, rfl⟩ := Option.map_eq_some_iff.1 h
        obtain ⟨rest, rfl⟩ := ih hcode
        exact ⟨rest, rfl⟩
      · split at h
        · obtain rfl := Option.some.inj h
          exact ⟨c :: cs, rfl⟩
        · obtain ⟨code, hcode, rfl⟩ := Option.map_eq_some_iff.1 h
          obtain ⟨rest, rfl⟩ := ih hcode
          exact ⟨rest, rfl⟩

theorem exists_withoutComment_append (t : Text) : ∃ rest, t = withoutComment t ++ rest := by
  unfold withoutComment
  split
  · next code hcode =>
    obtain ⟨rest, hrest⟩ := exists_beforeComment?_append hcode
    obtain ⟨tail, htail⟩ := exists_dropEndWhile_append isBlank code
    refine ⟨tail ++ rest, ?_⟩
    rw [← List.append_assoc, trimEnd, ← htail, hrest]
  · exact ⟨[], by simp⟩

/-- The line begins with the word `for`. -/
def opensFor (line : Text) : Bool :=
  match after? "for" (trimStart line) with
  | some [] => true
  | some (c :: _) => isBlank c
  | none => false

end Text

theorem ForHeader.parse?_eq_none {line rest : Text} (hfor : Text.opensFor line = false)
    (hline : Text.blank line = false) (hrest : rest = [] ∨ ∃ more, rest = '\n' :: more) :
    parse? (line ++ rest) = none := by
  have hstart : Text.trimStart (line ++ rest) = Text.trimStart line ++ rest :=
    Text.dropWhile_append_of_not_blank hline rest
  obtain ⟨tail, htail⟩ := Text.exists_trim_append (line ++ rest)
  obtain ⟨comment, hcomment⟩ := Text.exists_withoutComment_append (Text.trim (line ++ rest))
  unfold parse?
  split
  · next c more hafter =>
    split
    · next hc =>
      have hcode : Text.trimStart line ++ rest = "for".toList ++ c :: (more ++ comment ++ tail) := by
        rw [← hstart, htail, hcomment, Text.after?_eq_some_iff.1 hafter]
        simp
      -- The word stands on the first line, since it has no line end in it.
      have hword : ∃ y, Text.after? "for" (Text.trimStart line) = some y ∧
          y ++ rest = c :: (more ++ comment ++ tail) := by
        rcases hrest with rfl | ⟨next, rfl⟩
        · rw [List.append_nil] at hcode
          exact ⟨_, Text.after?_eq_some_iff.2 hcode, by simp⟩
        · have hsome := Text.after?_eq_some_iff.2 hcode
          rw [Text.after?_append_newline (by decide), Option.map_eq_some_iff] at hsome
          exact hsome
      obtain ⟨y, hy, happend⟩ := hword
      cases y with
      | nil => rw [Text.opensFor, hy] at hfor; simp at hfor
      | cons d y =>
        obtain rfl : d = c := by simpa using congrArg List.head? happend
        rw [Text.opensFor, hy] at hfor
        simp [hc] at hfor
    · rfl
  · rfl

end Offload
