import Offload.Proofs.Bracket
import Offload.Proofs.Replacement

/-!
Bodies on the line of the header. Whether a loop has one is told from lines: the loop is refused when
nothing deeper stands behind its header. The text behind the colon is never looked at, so it is lost
when a deeper comment or statement follows.
-/
namespace Offload

open Outcome

namespace Text

/-- Nothing but blanks and a comment, which ends with its line. -/
def bare (t : Text) : Bool :=
  blank t || ((trimStart t).head? == some '#' && blank ((trimStart t).dropWhile (· != '\n')))

theorem trim_of_blank {t : Text} (h : blank t = true) : trim t = [] := by
  rw [trim_eq, blank_iff_trimStart.1 h]
  rfl

/-- Behind two texts that are equal but for the blanks around them, the same follows. -/
theorem trimStart_eq_of_append {t t' u u' : Text} (h : t ++ u = t' ++ u') (htrim : trim t = trim t')
    (hne : trim t ≠ []) : trimStart u = trimStart u' := by
  have hcut : ∀ {v w : Text}, trim v ≠ [] →
      ∃ b, blank b = true ∧ trimStart (v ++ w) = trim v ++ (b ++ w) := by
    intro v w hv
    have hsolid : blank v = false := by
      rw [← Bool.not_eq_true]
      exact mt trim_of_blank hv
    obtain ⟨b, hb, heq⟩ := exists_trim_append_blank v
    refine ⟨b, hb, ?_⟩
    rw [← List.append_assoc, ← heq]
    exact dropWhile_append_of_not_blank hsolid w
  obtain ⟨b, hb, heq⟩ := hcut (w := u) hne
  obtain ⟨b', hb', heq'⟩ := hcut (w := u') (htrim ▸ hne)
  rw [h, heq', ← htrim] at heq
  calc trimStart u = trimStart (b ++ u) := (trimStart_append hb u).symm
    _ = trimStart (b' ++ u') := by rw [List.append_cancel_left heq]
    _ = trimStart u' := trimStart_append hb' u'

end Text

namespace ForHeader

variable {header : ForHeader} {statement behind : Text}

/-- The statement starts with the header of a loop, and `behind` is what follows the colon. -/
def Heads (header : ForHeader) (statement behind : Text) : Prop :=
  ∃ target iterable : Text,
    Text.trimStart statement = "for" ++ target ++ " in " ++ iterable ++ ":" ++ behind ∧
      Text.trim target = header.target ∧ Text.trim iterable = header.iterable

theorem ofClause?_eq_some {rest : Text} (h : ofClause? rest = some header) :
    ∃ target iterable behind : Text, rest = target ++ " in " ++ iterable ++ ":" ++ behind ∧
      Text.trim target = header.target ∧ Text.trim iterable = header.iterable ∧
      header.target ≠ [] ∧ header.iterable ≠ [] := by
  unfold ofClause? at h
  obtain ⟨⟨target, more⟩, htarget, h⟩ := Option.bind_eq_some_iff.1 h
  obtain ⟨⟨iterable, behind⟩, hiterable, h⟩ := Option.bind_eq_some_iff.1 h
  dsimp only at hiterable h
  split at h
  · simp at h
  · next hne =>
    simp only [Bool.or_eq_true, List.isEmpty_iff, not_or] at hne
    rw [← Option.some.inj h]
    refine ⟨target, iterable, behind, ?_, rfl, rfl, hne⟩
    rw [Text.eq_of_cutAtDepth? htarget, Text.eq_of_cutAtDepth? hiterable]
    simp only [List.append_assoc]

theorem exists_heads (h : parse? statement = some header) :
    (∃ behind, header.Heads statement behind) ∧ header.target ≠ [] ∧ header.iterable ≠ [] := by
  unfold parse? at h
  split at h
  · next c rest hfor =>
    split at h
    · obtain ⟨target, iterable, behind, hrest, htarget, hiterable, hne⟩ := ofClause?_eq_some h
      have hcode := Text.after?_eq_some_iff.1 hfor
      obtain ⟨comment, hcomment⟩ := Text.exists_withoutComment_append (Text.trim statement)
      obtain ⟨blanks, hblanks⟩ := Text.exists_trim_append statement
      refine ⟨⟨behind ++ comment ++ blanks, target, iterable, ?_, htarget, hiterable⟩, hne⟩
      rw [hblanks, hcomment, hcode, hrest]
      simp only [List.append_assoc]
    · simp at h
  · simp at h

/-- Texts that read alike and are followed by the same marks are the same. -/
theorem eq_of_append_eq {target target' iterable iterable' behind' : Text}
    (h : target ++ (" in " ++ (iterable ++ ':' :: behind)) =
      target' ++ (" in " ++ (iterable' ++ ':' :: behind')))
    (ht : Text.trim target = Text.trim target') (htarget : Text.trim target ≠ [])
    (hi : Text.trim iterable = Text.trim iterable') (hiterable : Text.trim iterable ≠ []) :
    target = target' ∧ iterable = iterable' ∧ behind = behind' := by
  have hin := Text.trimStart_eq_of_append h ht htarget
  have hword : ∀ u : Text, Text.trimStart (" in " ++ u) = "in " ++ u := fun u => rfl
  rw [hword, hword] at hin
  have hmore := List.append_cancel_left hin
  have hcolon := Text.trimStart_eq_of_append hmore hi hiterable
  have hmark : ∀ u : Text, Text.trimStart (':' :: u) = ':' :: u := fun u => rfl
  rw [hmark, hmark] at hcolon
  have hbehind := (List.cons.inj hcolon).2
  rw [hmore] at h
  rw [hbehind] at hmore
  exact ⟨List.append_cancel_right h, List.append_cancel_right hmore, hbehind⟩

/-- What stands behind the colon of a header is determined. -/
theorem Heads.unique {behind' : Text} (htarget : header.target ≠ [])
    (hiterable : header.iterable ≠ []) (h : header.Heads statement behind)
    (h' : header.Heads statement behind') : behind = behind' := by
  obtain ⟨target, iterable, hsplit, ht, hi⟩ := h
  obtain ⟨target', iterable', hsplit', ht', hi'⟩ := h'
  rw [hsplit] at hsplit'
  simp only [List.append_assoc] at hsplit'
  have hrest := List.append_cancel_left hsplit'
  exact (eq_of_append_eq hrest (ht.trans ht'.symm) (ht.symm ▸ htarget) (hi.trans hi'.symm)
    (hi.symm ▸ hiterable)).2.2

end ForHeader

namespace Source

variable {s : Source} {l m n outer inner : Nat} {lines : List Nat}

/-- A loop with code behind the colon of its header. -/
def Inline (s : Source) (l : Nat) : Prop :=
  ∃ header behind, s.forHeader? l = some header ∧
    header.Heads (s.textOf ⟨l, s.logicalEnd l + 1⟩) behind ∧ Text.bare behind = false

/-- Behind the statement at line `l`, and before any statement that is not deeper, stands a deeper
statement or comment. -/
def DeepBehind (s : Source) (l : Nat) : Prop :=
  ∃ m, s.logicalEnd l < m ∧
    (∀ k, s.logicalEnd l < k → k < m → s.has Line.startsStatement k = false) ∧
    (s.has Line.startsStatement m = true ∧ s.indentAt l < s.indentAt m ∨
      s.has (Line.deepComment (s.indentAt l)) m = true)

theorem startsStatement_of_deepComment {depth : Nat} (h : s.has (Line.deepComment depth) m = true) :
    s.has Line.startsStatement m = false ∧ s.has (Line.outerTrivia depth) m = false := by
  obtain ⟨line, hline, hcomment⟩ := has_eq_true.1 h
  simp only [Line.deepComment, Bool.and_eq_true, beq_iff_eq, decide_eq_true_eq] at hcomment
  constructor
  · simp [has, hline, Line.startsStatement, hcomment.1]
  · simp [has, hline, Line.outerTrivia, hcomment.1, hcomment.2]

section Extent

variable (hs : s.Scanned) (hl : s.has Line.startsStatement l = true)

include hs hl

/-- What stands deeper behind a statement belongs to it. -/
theorem DeepBehind.lt_statementStop (h : s.DeepBehind l) :
    s.logicalEnd l + 1 < s.statementStop l := by
  obtain ⟨m, hm, hfree, hdeep⟩ := h
  have hreach := (s.reaches_statementStop l).le
  have hextent := hs.isExtent_of_startsStatement hl
  by_contra hlt
  have hle : s.statementStop l ≤ m := by omega
  rcases hdeep with ⟨hstart, hindent⟩ | hcomment
  · have hnext : s.nextStatement? (s.statementStop l) = some m :=
      nextStatement?_eq_some_iff.2 ⟨hle, hstart, fun k hk hkm => hfree k (by omega) hkm⟩
    have hshallow := (not_partOf_of_nextStatement? hs hl hnext).1
    omega
  · have hkind := startsStatement_of_deepComment hcomment
    have htrivia := hextent.rest m hle (lt_size_of_has hcomment) (by
      intro k hk hkm
      rcases Nat.eq_or_lt_of_le hkm with rfl | hkm
      · exact hkind.1
      · exact hfree k (by omega) hkm)
    simp [hkind.2] at htrivia

/-- An extent that reaches behind the header holds a deeper statement, or ends in a deeper
comment. -/
theorem deepBehind_of_lt_statementStop (h : s.Undivided l)
    (hlt : s.logicalEnd l + 1 < s.statementStop l) : s.DeepBehind l := by
  have hextent := hs.isExtent_of_startsStatement hl
  by_cases hfirst : ∃ k, s.nextStatement? (s.logicalEnd l + 1) = some k ∧ k < s.statementStop l
  · obtain ⟨k, hnext, hk⟩ := hfirst
    have hnext' := nextStatement?_eq_some_iff.1 hnext
    exact ⟨k, hnext'.1, hnext'.2.2, .inl ⟨hnext'.2.1, h k hnext'.1 hk hnext'.2.1⟩⟩
  · have hfree : ∀ k, s.logicalEnd l < k → k < s.statementStop l →
        s.has Line.startsStatement k = false := by
      intro k hk hkstop
      rw [← Bool.not_eq_true]
      intro hstart
      obtain ⟨first, hnext, hle⟩ := exists_nextStatement? hk hstart
      exact hfirst ⟨first, hnext, by omega⟩
    rcases hextent.last with ⟨k, hk, hstart, hon, -⟩ | hcomment
    · -- The statement that ends there would start behind the header.
      have hbehind : s.logicalEnd l < k := by
        by_contra hle
        have hcut := hs.continuation_behind_logicalEnd (lt_size_of_has hl)
        have hgoes := hon (s.logicalEnd l + 1) (by omega) (by omega)
        simp [hgoes] at hcut
      have hnone := hfree k hbehind (by omega)
      simp [hstart] at hnone
    · exact ⟨s.statementStop l - 1, by omega, fun k hk hkm => hfree k hk (by omega), .inr hcomment⟩

/-- A statement is undivided exactly if no part goes on with it. -/
theorem undivided_iff : s.Undivided l ↔ ∀ n, ¬ s.GoesOnWith Line.resumesStatement l n := by
  constructor
  · intro h n
    exact h.not_goesOnWith hs hl
  · intro hnone m hm hlt hstart
    -- The first statement that is not deeper would go on with the one at line `l`.
    induction m using Nat.strongRecOn with
    | ind m ih =>
      by_contra hshallow
      rcases partOf_of_lt_statementStop hs hl hm hlt hstart with hdeep | ⟨hindent, hresumes⟩
      · exact hshallow hdeep
      · refine hnone m ⟨⟨hm, hstart, by omega, fun k hk hkm hkstart => ?_⟩, hindent, hresumes⟩
        exact ih k hkm hk (by omega) hkstart

end Extent
end Source

namespace Host.LoopNest

variable {s : Source} {d : Directive} {region : Span} {nest : LoopNest} {headers : List ForHeader}
  {outer inner l : Nat}

/-- A body of a loop can move if something deeper stands behind the header, and no part goes on with
the loop. -/
def Movable (s : Source) (l : Nat) : Prop :=
  s.DeepBehind l ∧ ∀ n, ¬ s.GoesOnWith Line.resumesStatement l n

/-- The loop has code behind its colon, and all lines of its header are replaced, but not moved. -/
structure Drops (s : Source) (nest : LoopNest) (l : Nat) : Prop where
  inline : s.Inline l
  replaced : nest.span.start ≤ l ∧ s.logicalEnd l < nest.span.stop
  unmoved : s.logicalEnd l < nest.body.start

theorem exists_ofLines_iff_movable (hs : s.Scanned)
    (hinner : s.has Line.startsStatement inner = true) :
    (∃ nest, ofLines s headers outer inner = .ok nest) ↔ Movable s inner := by
  rw [exists_ofLines_iff, Movable, ← Source.undivided_iff hs hinner]
  constructor
  · rintro ⟨hlt, hund⟩
    exact ⟨Source.deepBehind_of_lt_statementStop hs hinner hund hlt, hund⟩
  · rintro ⟨hdeep, hund⟩
    exact ⟨hdeep.lt_statementStop hs hinner, hund⟩

/-- A nest that cannot be moved is refused for its shape. -/
theorem ofLines_refused_or_ok :
    (∃ nest, ofLines s headers outer inner = .ok nest) ∨
      ∃ line fault, ofLines s headers outer inner = .error (.generation line fault) ∧
        fault.category = .unsupportedShape := by
  simp only [ofLines]
  split
  · exact .inr ⟨_, _, rfl, rfl⟩
  · split
    · exact .inr ⟨_, _, rfl, rfl⟩
    · exact .inl ⟨_, rfl⟩

theorem Locates.drops (hs : s.Scanned) (h : Locates s d region headers outer inner)
    (hfind : find s d region = .ok nest) (hl : l ∈ lines s d region) (hinline : s.Inline l) :
    Drops s nest l := by
  have hof : ofLines s headers outer inner = .ok nest := h.found ▸ hfind
  have hnest := (ofLines_eq_ok hof).1
  have hinside := h.isNest.toLoops.header_inside hs h.first h.last hl
  subst hnest
  exact ⟨hinline, ⟨hinside.1, hinside.2.1⟩, Nat.lt_succ_of_le hinside.2.2⟩

/-- What becomes of code behind the colons of the loops that a directive governs. -/
structure TreatsInline (s : Source) (d : Directive) (region : Span) : Prop where
  /-- What stands behind the colon of a header is determined. -/
  behind : ∀ l ∈ lines s d region, ∀ header, s.forHeader? l = some header →
    ∃ text, header.Heads (s.textOf ⟨l, s.logicalEnd l + 1⟩) text ∧
      ∀ other, header.Heads (s.textOf ⟨l, s.logicalEnd l + 1⟩) other → other = text
  /-- If a nest is found, code behind any colon of it is lost. -/
  lost : ∀ nest, find s d region = .ok nest → ∀ l ∈ lines s d region, s.Inline l → Drops s nest l
  /-- So it is lost exactly if the innermost body can move. -/
  dropped : (∃ nest, find s d region = .ok nest ∧ ∃ l ∈ lines s d region, Drops s nest l) ↔
    (∃ l ∈ lines s d region, s.Inline l) ∧ ∃ inner ∈ (lines s d region).getLast?, Movable s inner
  /-- Otherwise the loop is refused. -/
  refused : (∃ l ∈ lines s d region, s.Inline l) →
    ((∃ line fault, find s d region = .error (.generation line fault) ∧
        fault.category = .unsupportedShape) ↔
      ∃ inner ∈ (lines s d region).getLast?, ¬ Movable s inner)

theorem Locates.treatsInline (hs : s.Scanned) (h : Locates s d region headers outer inner) :
    TreatsInline s d region := by
  have hinner := h.isNest.starts inner (List.mem_of_mem_getLast? h.last)
  have hmovable : (∃ nest, ofLines s headers outer inner = .ok nest) ↔ Movable s inner :=
    exists_ofLines_iff_movable hs hinner
  rw [← h.found] at hmovable
  constructor
  case behind =>
    intro l _ header hheader
    obtain ⟨⟨text, htext⟩, htarget, hiterable⟩ := ForHeader.exists_heads hheader
    exact ⟨text, htext, fun other hother => hother.unique htarget hiterable htext⟩
  case lost =>
    intro nest hfind l hl hinline
    exact h.drops hs hfind hl hinline
  case dropped =>
    simp only [h.last, Option.mem_some_iff, exists_eq_left', ← hmovable]
    constructor
    · rintro ⟨nest, hfind, l, hl, hdrops⟩
      exact ⟨⟨l, hl, hdrops.inline⟩, nest, hfind⟩
    · rintro ⟨⟨l, hl, hinline⟩, nest, hfind⟩
      exact ⟨nest, hfind, l, hl, h.drops hs hfind hl hinline⟩
  case refused =>
    intro _
    simp only [h.last, Option.mem_some_iff, exists_eq_left', ← hmovable]
    constructor
    · rintro ⟨line, fault, hfind, -⟩ ⟨nest, hok⟩
      simp [hok] at hfind
    · intro hnone
      rw [h.found] at hnone ⊢
      exact ofLines_refused_or_ok.resolve_left hnone

/-- A directive that governs no loop has no code behind a colon. -/
theorem treatsInline_of_forHeader?
    (h : ¬ ∃ l ∈ lines s d region, ∃ header, s.forHeader? l = some header) :
    TreatsInline s d region := by
  have hnone : ¬ ∃ l ∈ lines s d region, s.Inline l := by
    rintro ⟨l, hl, header, behind, hheader, -⟩
    exact h ⟨l, hl, header, hheader⟩
  constructor
  case behind =>
    intro l hl header hheader
    exact absurd ⟨l, hl, header, hheader⟩ h
  case lost =>
    intro nest _ l hl hinline
    exact absurd ⟨l, hl, hinline⟩ hnone
  case dropped =>
    constructor
    · rintro ⟨nest, -, l, hl, hdrops⟩
      exact absurd ⟨l, hl, hdrops.inline⟩ hnone
    · rintro ⟨hinline, -⟩
      exact absurd hinline hnone
  case refused => exact fun hinline => absurd hinline hnone

end Host.LoopNest

open Host

/-- Code behind the colon of a loop is lost exactly if the innermost body can move all the same, and
otherwise the loop is refused. -/
theorem inline_body_dropped_iff_movable {config : Config} {tabWidth : Nat} {t : Text}
    {tree : DirectiveTree} {id : Nat} {d : Directive} {region : Span}
    (hparse : (parseDirectives config (.ofText tabWidth t)).outcome = .ok tree)
    (hget : tree.get? id = some d) (hregion : d.region = some region) :
    LoopNest.TreatsInline (.ofText tabWidth t) d region := by
  have hs := Source.scanned_ofText tabWidth t
  have hnames := LoopNest.namesNest_of_parseDirectives hparse hget hregion
  by_cases h : ∃ l ∈ LoopNest.lines (.ofText tabWidth t) d region, ∃ header,
      (Source.ofText tabWidth t).forHeader? l = some header
  · obtain ⟨l, hl, header, hheader⟩ := h
    obtain ⟨headers, outer, inner, hlocates⟩ := LoopNest.exists_locates hs hnames hl hheader
    exact hlocates.treatsInline hs
  · exact LoopNest.treatsInline_of_forHeader? h

/-- A body on the line of the header, and a deeper comment behind it. -/
def inlineText : Text := Text.unlines ["# acc parallel loop", "for i in a: g(i)", "    # note"]

/-- The same loop before a comment that is not deeper. -/
def refusedText : Text := Text.unlines ["# acc parallel loop", "for i in a: g(i)", "# note"]

theorem inlineText_drops_refusedText_refused :
    (∃ tree d nest, (parseDirectives {} (.ofText 8 inlineText)).outcome = .ok tree ∧
      tree.get? 2 = some d ∧ d.region = some ⟨1, 3⟩ ∧
      LoopNest.find (.ofText 8 inlineText) d ⟨1, 3⟩ = .ok nest ∧
      LoopNest.Drops (.ofText 8 inlineText) nest 1 ∧ LoopNest.Movable (.ofText 8 inlineText) 1) ∧
    ∃ tree d, (parseDirectives {} (.ofText 8 refusedText)).outcome = .ok tree ∧
      tree.get? 2 = some d ∧ d.region = some ⟨1, 2⟩ ∧
      LoopNest.find (.ofText 8 refusedText) d ⟨1, 2⟩ = .error (.generation 1 .bodyOnHeaderLine) ∧
      ¬ LoopNest.Movable (.ofText 8 refusedText) 1 := by
  constructor
  · have hcheck : ((parseDirectives {} (.ofText 8 inlineText)).outcome.toOption.any fun tree =>
        (tree.get? 2).any fun d => d.region == some ⟨1, 3⟩ &&
          (LoopNest.find (.ofText 8 inlineText) d ⟨1, 3⟩).toOption ==
            some ⟨[⟨"i", "a"⟩], ⟨1, 3⟩, ⟨2, 3⟩⟩ &&
          LoopNest.lines (.ofText 8 inlineText) d ⟨1, 3⟩ == [1]) = true := by
      decide +kernel
    obtain ⟨tree, htree, hfacts⟩ := exists_of_any hcheck
    obtain ⟨d, hd, hfacts⟩ := (Option.any_eq_true _ _).1 hfacts
    simp only [Bool.and_eq_true, beq_iff_eq] at hfacts
    obtain ⟨⟨hregion, hfind⟩, hlines⟩ := hfacts
    have hnest := eq_ok_of_toOption hfind
    have hinline : (Source.ofText 8 inlineText).Inline 1 :=
      ⟨⟨"i", "a"⟩, " g(i)", by decide +kernel,
        ⟨" i", "a", by decide +kernel, by decide +kernel, by decide +kernel⟩, by decide +kernel⟩
    have hdrops : LoopNest.Drops (.ofText 8 inlineText) ⟨[⟨"i", "a"⟩], ⟨1, 3⟩, ⟨2, 3⟩⟩ 1 :=
      ⟨hinline, by decide +kernel, by decide +kernel⟩
    have hdropped := (inline_body_dropped_iff_movable htree hd hregion).dropped
    rw [hlines] at hdropped
    obtain ⟨-, inner, hinner, hmovable⟩ := hdropped.1 ⟨_, hnest, 1, by simp, hdrops⟩
    rw [← Option.some.inj hinner] at hmovable
    exact ⟨tree, d, _, htree, hd, hregion, hnest, hdrops, hmovable⟩
  · have hcheck : ((parseDirectives {} (.ofText 8 refusedText)).outcome.toOption.any fun tree =>
        (tree.get? 2).any fun d => d.region == some ⟨1, 2⟩ &&
          decide (LoopNest.find (.ofText 8 refusedText) d ⟨1, 2⟩ =
            .error (.generation 1 .bodyOnHeaderLine)) &&
          LoopNest.lines (.ofText 8 refusedText) d ⟨1, 2⟩ == [1]) = true := by
      decide +kernel
    obtain ⟨tree, htree, hfacts⟩ := exists_of_any hcheck
    obtain ⟨d, hd, hfacts⟩ := (Option.any_eq_true _ _).1 hfacts
    simp only [Bool.and_eq_true, beq_iff_eq, decide_eq_true_eq] at hfacts
    obtain ⟨⟨hregion, hfind⟩, hlines⟩ := hfacts
    have hinline : (Source.ofText 8 refusedText).Inline 1 :=
      ⟨⟨"i", "a"⟩, " g(i)", by decide +kernel,
        ⟨" i", "a", by decide +kernel, by decide +kernel, by decide +kernel⟩, by decide +kernel⟩
    have hrefused := (inline_body_dropped_iff_movable htree hd hregion).refused
    rw [hlines] at hrefused
    obtain ⟨inner, hinner, hmovable⟩ := (hrefused ⟨1, by simp, hinline⟩).1 ⟨_, _, hfind, rfl⟩
    rw [← Option.some.inj hinner] at hmovable
    exact ⟨tree, d, htree, hd, hregion, hfind, hmovable⟩

end Offload
