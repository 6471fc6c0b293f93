import Mathlib.Data.List.Chain
import Offload.Proofs.Blame

/-!
Tight loop nests. The search for a nest compares where the code of two loops ends. That the ends
agree means that the body of the outer loop is the inner loop and nothing else, whatever the
headers, comments and further parts look like. So the search finds the one tight nest that cannot be
continued.
-/
namespace Offload

open Outcome

namespace Source

/-- The body of the loop at `outer` is the statement at `inner` and nothing else: it is the first
statement behind the header, and all statements of the body start in it. -/
structure Tight (s : Source) (outer inner : Nat) : Prop where
  next : s.nextStatement? (s.logicalEnd outer + 1) = some inner
  inside : inner < s.statementStop outer
  sole : ∀ m, s.logicalEnd outer < m → m < s.statementStop outer →
    s.has Line.startsStatement m = true → inner ≤ m ∧ m < s.statementStop inner

/-- The lines of loops, the first of which is the first statement of the span, and each of which is
the body of the one before. -/
structure IsNest (s : Source) (span : Span) (lines : List Nat) : Prop where
  first : ∀ l ∈ lines.head?, s.firstStatement? span = some l
  loops : ∀ l ∈ lines, ∃ header, s.forHeader? l = some header
  tight : lines.IsChain s.Tight

/-- A nest that no loop can be appended to. -/
structure IsWholeNest (s : Source) (span : Span) (lines : List Nat) : Prop
    extends IsNest s span lines where
  whole : ∀ l, ¬ s.IsNest span (lines ++ [l])

variable {s : Source} {span : Span} {outer inner : Nat} {header : ForHeader}
  {lines lines' : List Nat}

/-! Loops inside loops. -/

theorem Tight.logicalEnd_lt (h : s.Tight outer inner) : s.logicalEnd outer < inner :=
  (nextStatement?_eq_some_iff.1 h.next).1

theorem Tight.lt (h : s.Tight outer inner) : outer < inner := by
  have hend := s.le_logicalEnd outer
  have hbehind := h.logicalEnd_lt
  omega

theorem Tight.starts (h : s.Tight outer inner) : s.has Line.startsStatement inner = true :=
  (nextStatement?_eq_some_iff.1 h.next).2.1

theorem Tight.unique {inner' : Nat} (h : s.Tight outer inner) (h' : s.Tight outer inner') :
    inner = inner' := Option.some.inj (h.next.symm.trans h'.next)

section Codes

variable (h : s.Scanned) (houter : s.has Line.startsStatement outer = true)
  (hnext : s.nextStatement? (s.logicalEnd outer + 1) = some inner)

include h houter hnext

theorem statementStop_le_of_next (hinside : inner < s.statementStop outer)
    (hheader : s.forHeader? inner = some header) :
    s.statementStop inner ≤ s.statementStop outer := by
  obtain ⟨hbehind, hstart, -⟩ := nextStatement?_eq_some_iff.1 hnext
  exact h.statementStop_le_of_forHeader? (isTrivia_of_startsStatement houter)
    (lt_size_of_has houter) hbehind hinside hstart hheader

/-- Where all statements of the body start in the inner loop, there is no code behind that loop. -/
theorem isTrivia_behind_of_sole
    (hsole : ∀ m, s.logicalEnd outer < m → m < s.statementStop outer →
      s.has Line.startsStatement m = true → inner ≤ m ∧ m < s.statementStop inner)
    {m : Nat} (hm : s.statementStop inner ≤ m) (hlt : m < s.statementStop outer) :
    s.has (fun line => !line.isTrivia) m = false := by
  have hsize := (h.isExtent_of_startsStatement houter).le_size
  obtain ⟨hbehind, hstart, -⟩ := nextStatement?_eq_some_iff.1 hnext
  have hown := (s.reaches_statementStop inner).le
  have hend := s.le_logicalEnd inner
  rw [has_not]
  cases hcode : s.has Line.isTrivia m with
  | true => simp
  | false =>
    exfalso
    obtain ⟨k, hk, hkstart, hon⟩ := h.exists_start (by omega) (.inl hcode)
    -- The code belongs to a statement, which starts neither in the inner loop nor behind it.
    rcases Nat.lt_or_ge k (s.statementStop inner) with hbefore | hafter
    · have hcut := hon _ hbefore hm
      simp [s.continuation_statementStop inner] at hcut
    · have hin := (hsole k (by omega) (by omega) hkstart).2
      omega

/-- The code of two loops ends together exactly if the body of the outer one is the inner one. -/
theorem codeStop_eq_iff_tight (hinside : inner < s.statementStop outer)
    (hheader : s.forHeader? inner = some header) :
    s.codeStop outer (s.statementStop outer) = s.codeStop inner (s.statementStop inner) ↔
      s.Tight outer inner := by
  obtain ⟨hbehind, hstart, hmin⟩ := nextStatement?_eq_some_iff.1 hnext
  have hend := s.le_logicalEnd outer
  have hstop := statementStop_le_of_next h houter hnext hinside hheader
  have hown := (h.isExtent_of_startsStatement hstart).lt
  have hcodes := s.codeEnds_codeStop outer (s.statementStop outer)
  have hcodes' := s.codeEnds_codeStop inner (s.statementStop inner)
  constructor
  · intro heq
    refine ⟨hnext, hinside, fun m hm hlt hmstart => ?_⟩
    have hle : inner ≤ m := by
      by_contra hgt
      simp [hmin m hm (by omega)] at hmstart
    refine ⟨hle, ?_⟩
    have hcode := has_of_has (fun _ => Line.not_isTrivia_of_startsStatement) hmstart
    have hbefore : m < s.codeStop inner (s.statementStop inner) := by
      by_contra hge
      simp [hcodes.rest m (by omega) hlt] at hcode
    rcases hcodes'.last with hone | ⟨hall, -⟩
    · omega
    · omega
  · intro htight
    apply codeStop_eq
    have hlt := hcodes'.lt
    constructor
    · omega
    · right
      rcases hcodes'.last with hone | ⟨hall, hlast⟩
      · rw [hone, Nat.add_sub_cancel]
        exact ⟨by omega, has_of_has (fun _ => Line.not_isTrivia_of_startsStatement) hstart⟩
      · exact ⟨by omega, hlast⟩
    · intro m hm hlt
      rcases Nat.lt_or_ge m (s.statementStop inner) with hin | hout
      · exact hcodes'.rest m hm hin
      · exact isTrivia_behind_of_sole h houter hnext htight.sole hout hlt

end Codes

/-! Nests as lists of lines. -/

theorem IsNest.of_append (h : s.IsNest span (lines ++ lines')) : s.IsNest span lines where
  first l hl := by
    apply h.first l
    rw [List.head?_append, Option.mem_def.1 hl]
    rfl
  loops l hl := h.loops l (List.mem_append_left _ hl)
  tight := h.tight.left_of_append

/-- The loops of a nest are statements. -/
theorem IsNest.starts (h : s.IsNest span lines) :
    ∀ l ∈ lines, s.has Line.startsStatement l = true := by
  have hchain : ∀ {lines : List Nat}, lines.IsChain s.Tight →
      (∀ l ∈ lines.head?, s.has Line.startsStatement l = true) →
      ∀ l ∈ lines, s.has Line.startsStatement l = true := by
    intro lines hlines
    induction hlines with
    | nil => simp
    | singleton a => simp
    | cons_cons htight _ ih =>
      intro hfirst l hl
      rcases List.mem_cons.1 hl with rfl | hl
      · exact hfirst l rfl
      · exact ih (fun l hl => Option.some.inj hl ▸ htight.starts) l hl
  apply hchain h.tight
  intro l hl
  obtain ⟨hnext, -⟩ := Option.filter_eq_some_iff.1 (h.first l hl)
  exact (nextStatement?_eq_some_iff.1 hnext).2.1

/-- Each loop of a nest lies inside those before it. -/
theorem IsNest.nested (hs : s.Scanned) (h : s.IsNest span lines) :
    lines.Pairwise fun a b => a < b ∧ s.statementStop b ≤ s.statementStop a := by
  have : Trans (fun a b => a < b ∧ s.statementStop b ≤ s.statementStop a)
      (fun a b => a < b ∧ s.statementStop b ≤ s.statementStop a)
      (fun a b => a < b ∧ s.statementStop b ≤ s.statementStop a) :=
    ⟨fun hab hbc => ⟨by omega, by omega⟩⟩
  apply List.IsChain.pairwise
  refine h.tight.imp_of_mem_imp fun a b ha hb htight => ⟨htight.lt, ?_⟩
  obtain ⟨header, hheader⟩ := h.loops b hb
  exact statementStop_le_of_next hs (h.starts a ha) htight.next htight.inside hheader

/-- Of two nests in the same place, one continues the other. -/
theorem IsNest.comparable (h : s.IsNest span lines) (h' : s.IsNest span lines') :
    lines <+: lines' ∨ lines' <+: lines := by
  have hchain : ∀ {ks ls : List Nat}, ks.IsChain s.Tight → ls.IsChain s.Tight →
      (∀ k ∈ ks.head?, ∀ l ∈ ls.head?, k = l) → ks <+: ls ∨ ls <+: ks := by
    intro ks
    induction ks with
    | nil => exact fun _ _ _ => .inl (List.nil_prefix)
    | cons k ks ih =>
      intro ls hks hls hfirst
      cases ls with
      | nil => exact .inr List.nil_prefix
      | cons l ls =>
        obtain rfl := hfirst k rfl l rfl
        obtain ⟨hk, hks⟩ := List.isChain_cons.1 hks
        obtain ⟨hl, hls⟩ := List.isChain_cons.1 hls
        have hrest := ih hks hls fun a ha b hb => (hk a ha).unique (hl b hb)
        rwa [List.cons_prefix_cons, List.cons_prefix_cons, and_iff_right rfl, and_iff_right rfl]
  apply hchain h.tight h'.tight
  intro k hk l hl
  exact Option.some.inj ((h.first k hk).symm.trans (h'.first l hl))

theorem IsWholeNest.eq_of_continues (h : s.IsWholeNest span lines) (h' : s.IsNest span lines')
    (hfront : lines <+: lines') : lines = lines' := by
  obtain ⟨more, rfl⟩ := hfront
  cases more with
  | nil => simp
  | cons l more =>
    have hlonger : s.IsNest span ((lines ++ [l]) ++ more) := by simpa using h'
    exact absurd hlonger.of_append (h.whole l)

theorem IsWholeNest.unique (h : s.IsWholeNest span lines) (h' : s.IsWholeNest span lines') :
    lines = lines' := by
  rcases h.comparable h'.toIsNest with hfront | hfront
  · exact h.eq_of_continues h'.toIsNest hfront
  · exact (h'.eq_of_continues h.toIsNest hfront).symm

end Source

/-! The search for a nest. -/

namespace NestedLoop

open Source

variable {s : Source} {codeStop : Option Nat} {line : Nat}

/-- What the search gives from line `line` on, when the code has to end at `codeStop`. -/
structure Finds (s : Source) (codeStop : Option Nat) (line : Nat) (lines : List Nat) : Prop where
  first : ∀ l ∈ lines.head?, l = line
  fits : lines ≠ [] → ∀ e ∈ codeStop, e = s.codeStop line (s.statementStop line)
  refused : lines = [] → ∀ header, s.forHeader? line = some header →
    ∃ e ∈ codeStop, e ≠ s.codeStop line (s.statementStop line)
  loops : ∀ l ∈ lines, ∃ header, s.forHeader? l = some header
  tight : lines.IsChain s.Tight
  whole : ∀ last ∈ lines.getLast?, ∀ l, s.Tight last l → s.forHeader? l = none

theorem Finds.noLoop (h : s.forHeader? line = none) : Finds s codeStop line [] where
  first := by simp
  fits := by simp
  refused _ header hheader := by simp [h] at hheader
  loops := by simp
  tight := .nil
  whole := by simp

theorem Finds.other {e : Nat} (h : e ≠ s.codeStop line (s.statementStop line)) :
    Finds s (some e) line [] where
  first := by simp
  fits := by simp
  refused _ _ _ := ⟨e, rfl, h⟩
  loops := by simp
  tight := .nil
  whole := by simp

/-- A loop whose body does not begin with a statement of its own ends the nest. -/
theorem Finds.single {header : ForHeader} (hheader : s.forHeader? line = some header)
    (hfits : ∀ e ∈ codeStop, e = s.codeStop line (s.statementStop line))
    (hwhole : ∀ l, s.Tight line l → s.forHeader? l = none) : Finds s codeStop line [line] where
  first := by simp
  fits _ := hfits
  refused := by simp
  loops := by simpa using ⟨header, hheader⟩
  tight := .singleton line
  whole := by simpa using hwhole

/-- What is found in the body of a loop goes on with the nest, or ends it. -/
theorem Finds.cons (hs : s.Scanned) (hline : s.has Line.startsStatement line = true)
    {header : ForHeader} {next : Nat} {rest : List Nat} (hheader : s.forHeader? line = some header)
    (hfits : ∀ e ∈ codeStop, e = s.codeStop line (s.statementStop line))
    (hnext : s.nextStatement? (s.logicalEnd line + 1) = some next)
    (hinside : next < s.statementStop line)
    (h : Finds s (some (s.codeStop line (s.statementStop line))) next rest) :
    Finds s codeStop line (line :: rest) := by
  have hcodes := fun {inner : ForHeader} (hinner : s.forHeader? next = some inner) =>
    codeStop_eq_iff_tight hs hline hnext hinside hinner
  cases rest with
  | nil =>
    apply Finds.single hheader hfits
    intro l htight
    obtain rfl : next = l := Option.some.inj (hnext.symm.trans htight.next)
    cases hinner : s.forHeader? next with
    | none => rfl
    | some inner =>
      obtain ⟨e, he, hne⟩ := h.refused rfl inner hinner
      obtain rfl := Option.some.inj he
      exact absurd ((hcodes hinner).2 htight) hne
  | cons l rest =>
    obtain rfl : l = next := h.first l rfl
    obtain ⟨inner, hinner⟩ := h.loops l List.mem_cons_self
    have htight : s.Tight line l := (hcodes hinner).1 (h.fits (by simp) _ rfl)
    exact {
      first := by simp
      fits := fun _ => hfits
      refused := by simp
      loops := by
        intro k hk
        rcases List.mem_cons.1 hk with rfl | hk
        · exact ⟨header, hheader⟩
        · exact h.loops k hk
      tight := .cons_cons htight h.tight
      whole := by
        intro last hlast
        rw [List.getLast?_cons_cons] at hlast
        exact h.whole last hlast }

theorem finds_nestFrom (hs : s.Scanned) (hline : s.has Line.startsStatement line = true) :
    Finds s codeStop line ((nestFrom s codeStop line).map NestedLoop.line) := by
  induction hn : s.size - line using Nat.strongRecOn generalizing codeStop line with
  | ind n ih =>
  have hsize := lt_size_of_has hline
  have hend := s.le_logicalEnd line
  rw [nestFrom.eq_def]
  cases hheader : s.forHeader? line with
  | none => exact .noLoop hheader
  | some header =>
    dsimp only
    split
    · next hother =>
      cases codeStop with
      | none => simp at hother
      | some e => exact .other (by simpa using hother)
    · next hsame =>
      have hfits : ∀ e ∈ codeStop, e = s.codeStop line (s.statementStop line) := by
        rintro e rfl
        simpa using hsame
      rw [List.map_cons]
      split
      · next next hfind =>
        have hnext : s.nextStatement? (s.logicalEnd line + 1) = some next := hfind
        obtain ⟨hbehind, hstart, -⟩ := nextStatement?_eq_some_iff.1 hnext
        split
        · next hinside =>
          exact .cons hs hline hheader hfits hnext hinside (ih _ (by omega) hstart rfl)
        · next houtside =>
          apply Finds.single hheader hfits
          intro l htight
          obtain rfl : next = l := Option.some.inj (hnext.symm.trans htight.next)
          exact absurd htight.inside houtside
      · next hfind =>
        apply Finds.single hheader hfits
        intro l htight
        have hnone : s.nextStatement? (s.logicalEnd line + 1) = none := hfind
        exact absurd (htight.next.symm.trans hnone) (by simp)

/-- The loops that the search finds in a span are the whole tight nest of it. -/
theorem isWholeNest_nestIn (hs : s.Scanned) (span : Span) :
    s.IsWholeNest span ((nestIn s span).map NestedLoop.line) := by
  unfold nestIn
  cases hfirst : s.firstStatement? span with
  | none =>
    refine ⟨⟨by simp, by simp, .nil⟩, fun l hlonger => ?_⟩
    exact absurd (hfirst.symm.trans (hlonger.first l rfl)) (by simp)
  | some line =>
    dsimp only
    obtain ⟨hnext, -⟩ := Option.filter_eq_some_iff.1 hfirst
    have hfinds : Finds s none line ((nestFrom s none line).map NestedLoop.line) :=
      finds_nestFrom hs (nextStatement?_eq_some_iff.1 hnext).2.1
    generalize (nestFrom s none line).map NestedLoop.line = lines at hfinds ⊢
    refine ⟨⟨fun l hl => hfinds.first l hl ▸ hfirst, hfinds.loops, hfinds.tight⟩, ?_⟩
    intro l hlonger
    obtain ⟨header, hheader⟩ := hlonger.loops l (by simp)
    rcases List.eq_nil_or_concat lines with rfl | ⟨init, last, rfl⟩
    · obtain rfl : line = l := Option.some.inj (hfirst.symm.trans (hlonger.first l rfl))
      obtain ⟨e, he, -⟩ := hfinds.refused rfl header hheader
      simp at he
    · have htight := (List.isChain_append.1 hlonger.tight).2.2 last (by simp) l rfl
      rw [hfinds.whole last (by simp) l htight] at hheader
      simp at hheader

theorem forHeader?_of_mem_nestIn (hs : s.Scanned) {span : Span} {l : NestedLoop}
    (h : l ∈ nestIn s span) : s.forHeader? l.line = some l.header := by
  unfold nestIn at h
  split at h
  · next line hfirst =>
    obtain ⟨hnext, -⟩ := Option.filter_eq_some_iff.1 hfirst
    exact (of_mem_nestFrom hs (nextStatement?_eq_some_iff.1 hnext).2.1 h).2.2.2
  · simp at h

end NestedLoop

/-! What `collapse` and `tile` are given. -/

/-- What associating `count` loops with a directive at `line` gives, when the loops of the nest are
those at `lines`. -/
structure Associates (s : Source) (span : Span) (count line : Nat) (lines : List Nat) : Prop where
  succeeds : (∃ loops, associateLoops s span count line = .ok loops) ↔
    lines.length = count ∧
      ∀ l ∈ lines, ∃ header, s.forHeader? l = some header ∧ isCountable header.iterable = true
  returned : ∀ loops, associateLoops s span count line = .ok loops →
    List.Forall₂ (fun l loop => loop.line = l ∧ s.forHeader? l = some ⟨loop.target, loop.iterable⟩)
      lines loops
  nested : ∀ loops, associateLoops s span count line = .ok loops →
    loops.Pairwise fun a b => a.line < b.line ∧ s.statementStop b.line ≤ s.statementStop a.line
  mismatch : lines.length ≠ count → associateLoops s span count line =
    .error (.malformed line (.loopCount count lines.length))

theorem NestedLoop.associate_eq_ok {s : Source} {l : NestedLoop} {loop : AssociatedLoop}
    (h : l.associate s = .ok loop) :
    loop.line = l.line ∧ ⟨loop.target, loop.iterable⟩ = l.header := by
  simp only [associate] at h
  split at h
  · obtain rfl := Except.ok.inj h
    exact ⟨rfl, rfl⟩
  · simp at h

theorem Outcome.forall₂_of_mapM {α β ε : Type} {f : α → Except ε β} {as : List α} {bs : List β}
    (h : as.mapM f = .ok bs) : List.Forall₂ (fun a b => f a = .ok b) as bs := by
  induction as generalizing bs with
  | nil =>
    obtain rfl := Except.ok.inj h
    exact .nil
  | cons a as ih =>
    rw [List.mapM_cons] at h
    obtain ⟨b, hb, h⟩ := bind_eq_ok.1 h
    obtain ⟨rest, hrest, h⟩ := bind_eq_ok.1 h
    obtain rfl := Except.ok.inj h
    exact .cons hb (ih hrest)

theorem mapM_of_associateLoops {s : Source} {span : Span} {count line : Nat}
    {loops : List AssociatedLoop} (h : associateLoops s span count line = .ok loops) :
    (NestedLoop.nestIn s span).mapM (NestedLoop.associate s) = .ok loops := by
  simp only [associateLoops] at h
  split at h
  · exact h
  · simp at h

/-- The associated loops are those of the nest, one by one. -/
theorem forall₂_of_associateLoops {s : Source} (hs : s.Scanned) {span : Span} {count line : Nat}
    {loops : List AssociatedLoop} (h : associateLoops s span count line = .ok loops) :
    List.Forall₂ (fun l loop => loop.line = l ∧ s.forHeader? l = some ⟨loop.target, loop.iterable⟩)
      ((NestedLoop.nestIn s span).map NestedLoop.line) loops := by
  have hheaders := (List.forall₂_and_left _ _).2
    ⟨fun _ => NestedLoop.forHeader?_of_mem_nestIn hs, forall₂_of_mapM (mapM_of_associateLoops h)⟩
  rw [List.forall₂_map_left_iff]
  apply hheaders.imp
  rintro l loop ⟨hheader, hloop⟩
  obtain ⟨hline, hsame⟩ := NestedLoop.associate_eq_ok hloop
  exact ⟨hline, hsame ▸ hheader⟩

theorem lines_of_associateLoops {s : Source} (hs : s.Scanned) {span : Span} {count line : Nat}
    {loops : List AssociatedLoop} (h : associateLoops s span count line = .ok loops) :
    loops.map AssociatedLoop.line = (NestedLoop.nestIn s span).map NestedLoop.line := by
  have hlines := (forall₂_of_associateLoops hs h).imp fun _ _ hloop => hloop.1.symm
  rw [← List.forall₂_map_right_iff, List.forall₂_eq_eq_eq] at hlines
  exact hlines.symm

/-- A region has one whole tight nest, and `collapse` and `tile` see exactly that nest. -/
theorem associates_whole_tight_nest (tabWidth : Nat) (t : Text) (span : Span) (count line : Nat) :
    ∃ lines, (Source.ofText tabWidth t).IsWholeNest span lines ∧
      (∀ lines', (Source.ofText tabWidth t).IsWholeNest span lines' → lines' = lines) ∧
      Associates (.ofText tabWidth t) span count line lines := by
  have hs := Source.scanned_ofText tabWidth t
  generalize Source.ofText tabWidth t = s at hs ⊢
  have hnest := NestedLoop.isWholeNest_nestIn hs span
  refine ⟨_, hnest, fun lines' hlines' => hlines'.unique hnest, ?_⟩
  constructor
  case succeeds =>
    rw [exists_associateLoops_iff, List.eq_replicate_iff, NestedLoop.counts, List.length_map,
      List.length_map, List.forall_mem_map, List.forall_mem_map]
    apply and_congr_right
    intro _
    apply forall₂_congr
    intro l hl
    simp [NestedLoop.forHeader?_of_mem_nestIn hs hl]
  case returned => exact fun loops hloops => forall₂_of_associateLoops hs hloops
  case nested =>
    intro loops hloops
    have hnested := hnest.nested hs
    rwa [← lines_of_associateLoops hs hloops, List.pairwise_map] at hnested
  case mismatch =>
    intro hcount
    rw [List.length_map] at hcount ⊢
    rw [associateLoops, if_neg hcount]

end Offload
