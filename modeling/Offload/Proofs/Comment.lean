import Offload.Proofs.Trivia

/-!
When a line of trivia changes the nesting. It does so exactly when it is a deep comment behind a
construct's statement, with an annotation between the two: the statement takes in the comment, and
with it the annotation.
-/
namespace Offload

open Outcome Source

namespace Region

theorem start_lt_stop_of_scope {s : Source} {line : Nat} {span : Span}
    (h : scope s line = .ok span) : span.start < span.stop := by
  unfold scope at h
  split at h
  · simp at h
  · next first hfirst =>
    split at h
    · simp at h
    · obtain rfl := Except.ok.inj h
      have hle := (findFrom?_eq_some_iff.1 hfirst).1
      have hend := s.le_logicalEnd first
      have hreach := (s.reaches_statementStop first).le
      simp only
      omega

theorem scope_of_find {m : Markers} {s : Source} {kind : DirectiveKind} {line : Nat} {r : Region}
    (h : find m s kind line = .ok (some r)) (hr : r.delimited = false) :
    scope s line = .ok r.span := by
  unfold find at h
  split at h
  · simp at h
  · obtain ⟨span, hspan, h⟩ := bind_eq_ok.1 h
    obtain rfl := Option.some.inj (Except.ok.inj h)
    exact hspan
  · obtain ⟨block, -, h⟩ := bind_eq_ok.1 h
    cases block with
    | some span =>
      obtain rfl := Option.some.inj (Except.ok.inj h)
      simp at hr
    | none =>
      obtain ⟨span, hspan, h⟩ := bind_eq_ok.1 h
      obtain rfl := Option.some.inj (Except.ok.inj h)
      exact hspan

end Region

theorem PragmaLine.scope_of_region {config : Config} {s : Source} {line : Nat} {p : Pragma}
    {r : Region} (h : region config s line p = .ok (some r)) (hr : r.delimited = false) :
    Region.scope s line = .ok r.span := by
  unfold region at h
  split at h
  · obtain ⟨span, hspan, h⟩ := bind_eq_ok.1 h
    obtain rfl := Option.some.inj (Except.ok.inj h)
    exact hspan
  · exact Region.scope_of_find h hr

namespace Growing

variable {config : Config} {s : Source} {t : DirectiveTree} {a : PragmaLine}

/-- A construct is what the annotation on its line says. -/
theorem yields_of_compute (h : Growing config s [] t) {i : Nat} {e : TreeEntry}
    (he : t.entries[i]? = some e) (hc : e.directive.kind.isCompute = true)
    (ha : a ∈ PragmaLine.scan config.framework s) (hline : e.directive.line = a.line) :
    a.Yields config s e.directive := by
  obtain ⟨other, hmem, hnew, hyields⟩ := (h.covered a ha).resolve_left (by simp)
  obtain ⟨j, hj⟩ := List.getElem?_of_mem hmem
  have hij := h.grown.eq_of_line_eq he hj (h.grown.inserted_of_compute he hc) hnew
    (by rw [hline, hyields.line])
  subst hij
  obtain rfl : e = other := Option.some.inj (he.symm.trans hj)
  exact hyields

end Growing

namespace DirectiveTree

/-- The kind, line and parent of every node but the root. -/
def skeleton (t : DirectiveTree) : List (DirectiveKind × Nat × Nat) :=
  t.entries.map fun e => (e.directive.kind, e.directive.line, e.parent)

/-- The skeleton after a line has been put in front of line `k`. -/
def shiftSkeleton (k : Nat) (nodes : List (DirectiveKind × Nat × Nat)) :
    List (DirectiveKind × Nat × Nat) :=
  nodes.map fun (kind, line, parent) => (kind, shiftLine k line, parent)

variable {config : Config} {s : Source} {k : Nat} {t t' : DirectiveTree}

theorem Renumbered.skeleton_eq (h : t.Renumbered config s k t') :
    t'.skeleton = shiftSkeleton k t.skeleton := by
  unfold skeleton shiftSkeleton
  rw [List.map_map]
  refine List.ext_getElem? fun i => ?_
  have hi := h i
  rw [List.getElem?_map, List.getElem?_map]
  generalize t.entries[i]? = found at hi ⊢
  generalize t'.entries[i]? = found' at hi ⊢
  cases hi with
  | none => rfl
  | some hee => simp [hee.directive.kind, hee.directive.line, hee.parent]

theorem exists_of_skeleton (h : t'.skeleton = shiftSkeleton k t.skeleton) {i : Nat} {e : TreeEntry}
    (he : t.entries[i]? = some e) :
    ∃ e', t'.entries[i]? = some e' ∧ e'.directive.kind = e.directive.kind ∧
      e'.directive.line = shiftLine k e.directive.line := by
  have hi := congrArg (·[i]?) h
  simp only [skeleton, shiftSkeleton, List.map_map, List.getElem?_map, he, Option.map_some,
    Option.map_eq_some_iff] at hi
  obtain ⟨e', he', heq⟩ := hi
  simp only [Function.comp, Prod.mk.injEq] at heq
  exact ⟨e', he', heq.1, heq.2.1⟩

theorem parent?_of_skeleton (h : t'.skeleton = shiftSkeleton k t.skeleton) (id : Nat) :
    t'.parent? id = t.parent? id := by
  cases id with
  | zero => rfl
  | succ i =>
    have hi := congrArg (fun nodes => nodes[i]?.map fun node => node.2.2) h
    simpa [skeleton, shiftSkeleton, List.getElem?_map, Function.comp_def, parent?] using hi

end DirectiveTree

/-- The region of the construct `p` comes to reach over the directive `w` with the line `x` in front
of line `k`: the line is a comment deeper than the statement of `p`, and between the two there are
only trivia, `w` among them. -/
structure Directive.Absorbs (s : Source) (k : Nat) (x : Line) (p w : Directive) : Prop where
  compute : p.kind.isCompute = true
  plain : p.delimited = false
  comment : x.kind = .comment
  takes : ∃ r first, p.region = some r ∧
    s.findFrom? (fun line => !line.isTrivia) (p.line + 1) = some first ∧
    s.indentAt first < x.indent ∧ r.stop ≤ w.line ∧ w.line < k ∧
    ∀ m, r.stop ≤ m → m < k → s.has Line.isTrivia m = true ∧ s.has Line.continuation m = false

section

variable {config : Config} {s s' : Source} {k : Nat} {x : Line} {t t' : DirectiveTree}

theorem quiet_of_not_absorbs (h : Inserted s s' k x) (hgrowing : Growing config s [] t)
    (hnone : ∀ p ∈ t.entries, ∀ w ∈ t.entries, ¬ p.directive.Absorbs s k x w.directive)
    {a : PragmaLine} (ha : a ∈ PragmaLine.scan config.framework s) : a.Quiet config s k x := by
  rintro p r hread hcompute hregion b hb ⟨⟨hplain, first, hfirst, htakes⟩, hle, hlt⟩
  obtain ⟨e, he, -, hyields⟩ := (hgrowing.covered a ha).resolve_left (by simp)
  obtain ⟨w, hw, -, hyieldsw⟩ := (hgrowing.covered b hb).resolve_left (by simp)
  obtain ⟨p', found, hread', hregion', hkind, hspan, hdelimited⟩ := hyields.read
  obtain rfl : p = p' := Except.ok.inj (hread.symm.trans hread')
  obtain rfl : some r = found := Except.ok.inj (hregion.symm.trans hregion')
  obtain ⟨hcomment, hdeep, htrivia⟩ := (h.takesIn_iff (by omega)).1 htakes
  refine hnone e he w hw ⟨hkind ▸ hcompute, hdelimited.trans hplain, hcomment, r.span, first, hspan,
    ?_, hdeep, ?_, ?_, htrivia⟩
  · rwa [hyields.line]
  · rwa [hyieldsw.line]
  · rwa [hyieldsw.line]

/-- A construct that takes in an annotation comes to govern its line. -/
theorem governs_of_absorbs (h : Inserted s s' k x) (hx : Ordinary config s k x)
    (hgrowing : Growing config s [] t) (hgrowing' : Growing config s' [] t') {i : Nat}
    {p p' : TreeEntry} (hi : t.entries[i]? = some p) (hi' : t'.entries[i]? = some p')
    (hkind : p'.directive.kind = p.directive.kind)
    (hline : p'.directive.line = shiftLine k p.directive.line) {w : Directive}
    (habsorbs : p.directive.Absorbs s k x w) :
    p'.directive.governs (shiftLine k w.line) = true ∧
      p.directive.governs w.line = false ∧ p.directive.line < w.line := by
  obtain ⟨hcompute, hplain, hcomment, r, first, hr, hfirst, hdeep, hle, hlt, htrivia⟩ := habsorbs
  have htakes := (h.takesIn_iff (by omega)).2 ⟨hcomment, hdeep, htrivia⟩
  obtain ⟨a, ha, hpa, -⟩ := hgrowing.annotated p (List.mem_of_getElem? hi)
  have ha' : a.shift k ∈ PragmaLine.scan config.framework s' := by
    rw [PragmaLine.scan_shift h hx.annotation]
    exact List.mem_map_of_mem ha
  have hyields := hgrowing.yields_of_compute hi hcompute ha hpa
  have hyields' := hgrowing'.yields_of_compute hi' (by rwa [hkind]) ha' (by rw [hline, hpa]; rfl)
  obtain ⟨q, found, hread, hregion, -, hspan, hdelimited⟩ := hyields.read
  obtain ⟨q', found', hread', hregion', -, hspan', -⟩ := hyields'.read
  obtain rfl : q = q' := Except.ok.inj (hread.symm.trans hread')
  -- The region of the construct is found again, and now it reaches to the new line.
  obtain ⟨other, hother, halike⟩ :=
    PragmaLine.follows_region h hx.opens hx.closes (hx.behind a ha) q found hregion
  obtain rfl : other = found' := Except.ok.inj (hother.symm.trans hregion')
  rw [hr, eq_comm, Option.map_eq_some_iff] at hspan
  obtain ⟨region, rfl, rfl⟩ := hspan
  cases halike with
  | some halike =>
    next region' =>
    have hdel : region.delimited = false := by
      rw [← hplain, hdelimited]
      rfl
    have hstart := Region.start_lt_stop_of_scope (PragmaLine.scope_of_region hregion hdel)
    have hbelow := hgrowing.grown.region_below hi hr
    have hin : Region.TakesIn s k x a.line region := ⟨hdel, first, by rwa [← hpa], htakes⟩
    have hstop := (halike.stop.resolve_left fun hout => hout.1 hin).2
    refine ⟨Directive.governs_iff.2 ⟨region'.span, hspan', ?_, ?_⟩, ?_, by omega⟩
    · exact (halike.code.start w.line).1 (by omega)
    · rw [hstop, shiftLine_of_lt hlt]
      omega
    · rw [Directive.governs, hr]
      simp only [Span.contains, Bool.and_eq_false_imp, decide_eq_true_eq, decide_eq_false_iff_not]
      omega

/-- A construct that takes in an annotation becomes an ancestor of its directive. -/
theorem not_skeleton_of_absorbs (h : Inserted s s' k x) (hx : Ordinary config s k x)
    (hapart : config.MarkersApart) (hgrowing : Growing config s [] t)
    (hgrowing' : Growing config s' [] t') (hv : t.validate = .ok ()) (hv' : t'.validate = .ok ())
    {p w : TreeEntry} (hp : p ∈ t.entries) (hw : w ∈ t.entries)
    (habsorbs : p.directive.Absorbs s k x w.directive) :
    t'.skeleton ≠ DirectiveTree.shiftSkeleton k t.skeleton := by
  intro hskeleton
  obtain ⟨i, hi⟩ := List.getElem?_of_mem hp
  obtain ⟨j, hj⟩ := List.getElem?_of_mem hw
  obtain ⟨p', hi', hkind', hline'⟩ := DirectiveTree.exists_of_skeleton hskeleton hi
  obtain ⟨w', hj', -, hlinew⟩ := DirectiveTree.exists_of_skeleton hskeleton hj
  obtain ⟨hgov', hgov, hlt⟩ :=
    governs_of_absorbs h hx hgrowing hgrowing' hi hi' hkind' hline' habsorbs
  have hij : i ≠ j := by
    rintro rfl
    obtain rfl : p = w := Option.some.inj (hi.symm.trans hj)
    omega
  have hcompute := habsorbs.compute
  have habove : i + 1 ∈ t'.ancestors (j + 1) := by
    refine (hgrowing'.grown.mem_ancestors_iff_governs (hgrowing'.snug hapart) hv' hi' hj' ?_ hij).2
      (.inl ?_)
    · rwa [hkind']
    · rwa [hlinew]
  rw [DirectiveTree.ancestors_congr fun i _ => DirectiveTree.parent?_of_skeleton hskeleton i,
    hgrowing.grown.mem_ancestors_iff_governs (hgrowing.snug hapart) hv hi hj hcompute hij] at habove
  rcases habove with hgoverns | hhalf
  · simp [hgov] at hgoverns
  · simp only [Directive.isLoopHalfOf, Bool.and_eq_true, beq_iff_eq] at hhalf
    omega

/-- A line of trivia keeps the nesting exactly when no construct takes in an annotation with it. -/
theorem exists_skeleton_iff (h : Inserted s s' k x) (hx : Ordinary config s k x)
    (hapart : config.MarkersApart) (htree : (parseDirectives config s).outcome = .ok t) :
    (∃ t', (parseDirectives config s').outcome = .ok t' ∧
        t'.skeleton = DirectiveTree.shiftSkeleton k t.skeleton) ↔
      ∀ p ∈ t.entries, ∀ w ∈ t.entries, ¬ p.directive.Absorbs s k x w.directive := by
  obtain ⟨hgrow, hv⟩ := exists_growTree_of_parseDirectives htree
  have hgrowing := growing_of_growTree hgrow
  constructor
  · rintro ⟨t', htree', hskeleton⟩ p hp w hw habsorbs
    obtain ⟨hgrow', hv'⟩ := exists_growTree_of_parseDirectives htree'
    exact not_skeleton_of_absorbs h hx hapart hgrowing (growing_of_growTree hgrow') hv hv' hp hw
      habsorbs hskeleton
  · intro hnone
    obtain ⟨t', hgrow', hboth⟩ :=
      follows_growTree h hx (fun a ha => quiet_of_not_absorbs h hgrowing hnone ha) t hgrow
    have hv' := hboth.same.validate hgrowing.grown hboth.grows'.grown ?_ hv
    · refine ⟨t', ?_, hboth.same.skeleton_eq⟩
      rw [parseDirectives_outcome (isFramework_of_parseDirectives htree), hgrow', ok_bind, hv']
      rfl
    · intro e he
      obtain ⟨a, ha, hline, -⟩ := hgrowing.annotated e he
      exact ⟨a, ha, hline⟩

end

/-- A blank line or an ordinary comment keeps the nesting of a source, apart from the numbers of
lines, exactly when no construct takes in an annotation with it. The line is put in front of
`below`, outside literals and not behind a backslash. -/
theorem trivia_keeps_nesting_iff {source source' x : Text} {above below : List Text}
    {tree : DirectiveTree} (hlines : source.lines = above ++ below)
    (hlines' : source'.lines = above ++ x :: below)
    (htrivia : Line.kindOf (Carry.after above) x ≠ .code)
    (hliteral : (Carry.after above).quote = none)
    (hbackslash : (Carry.after above).pending = true → 0 < (Carry.after above).depth)
    (hordinary : Ordinary {} (.ofText Source.defaultTabWidth source) above.length
      (Line.ofText Source.defaultTabWidth (Carry.after above) x))
    (htree : (parseDirectives {} (.ofText Source.defaultTabWidth source)).outcome = .ok tree) :
    (∃ tree', (parseDirectives {} (.ofText Source.defaultTabWidth source')).outcome = .ok tree' ∧
        tree'.skeleton = DirectiveTree.shiftSkeleton above.length tree.skeleton) ↔
      ∀ p ∈ tree.entries, ∀ w ∈ tree.entries,
        ¬ p.directive.Absorbs (.ofText Source.defaultTabWidth source) above.length
          (Line.ofText Source.defaultTabWidth (Carry.after above) x) w.directive := by
  have hinserted := inserted_ofText Source.defaultTabWidth hlines hlines' hliteral
    hbackslash htrivia
  exact exists_skeleton_iff hinserted hordinary Config.markersApart_default htree

/-- A loop nest under two annotations, with a directive behind it. -/
def nestSource : Text :=
  "# acc parallel\nfor i in x:\n    # acc loop\n    for j in x:\n        f(j)\n# acc wait\ng(x)"

/-- The same with a comment that the outer loop takes in. -/
def commentedNestSource : Text :=
  "# acc parallel\nfor i in x:\n    # acc loop\n    for j in x:\n        f(j)\n    # note\n# acc wait\ng(x)"

theorem nestSource_keeps_nesting :
    ∃ tree tree',
      (parseDirectives {} (.ofText Source.defaultTabWidth nestSource)).outcome = .ok tree ∧
      (parseDirectives {} (.ofText Source.defaultTabWidth commentedNestSource)).outcome =
        .ok tree' ∧
      tree'.skeleton = DirectiveTree.shiftSkeleton 5 tree.skeleton := by
  have hcheck : ((parseDirectives {} (.ofText Source.defaultTabWidth nestSource)).outcome.toOption.any
      fun t => t.entries.all fun p => t.entries.all fun w =>
        p.directive.region.all fun r => !(r.stop ≤ w.directive.line && w.directive.line < 5)) =
      true := by
    decide +kernel
  obtain ⟨tree, htree, hnone⟩ := exists_of_any hcheck
  have hbehind : ∀ a ∈ PragmaLine.scan PragmaLine.defaultFramework
      (.ofText Source.defaultTabWidth nestSource), a.line + 1 ≠ 5 := by
    decide +kernel
  have hends : (Source.ofText Source.defaultTabWidth nestSource).has Line.continues 4 = false := by
    decide +kernel
  have hheader : ¬ (Source.ofText Source.defaultTabWidth nestSource).InForHeader 5 := by
    rintro ⟨i, hi, -, hopen, -⟩
    simp [hopen 4 (by omega) (by omega)] at hends
  obtain ⟨tree', htree', hskeleton⟩ := (@trivia_keeps_nesting_iff nestSource
    commentedNestSource "    # note" (nestSource.lines.take 5) (nestSource.lines.drop 5) tree
    (by decide +kernel) (by decide +kernel) (by decide +kernel)
    (by decide +kernel) (by decide +kernel)
    ⟨by decide +kernel, by decide +kernel, by decide +kernel, hbehind, fun _ => hheader⟩ htree).2 (by
      rintro p hp w hw ⟨-, -, -, r, first, hr, -, -, hle, hlt, -⟩
      have := List.all_eq_true.1 (List.all_eq_true.1 hnone p hp) w hw
      simp only [hr, Option.all_some, Bool.not_eq_true', Bool.and_eq_false_imp,
        decide_eq_true_eq, decide_eq_false_iff_not] at this
      exact this hle hlt)
  exact ⟨tree, tree', htree, htree', hskeleton⟩

/-- A construct, and behind its statement a directive and a comment. -/
def waitSource : Text := "# acc parallel\nfor i in x:\n    y\n# acc wait\n# note\nz"

/-- The same with a deeper comment behind the other one. -/
def absorbedWaitSource : Text :=
  "# acc parallel\nfor i in x:\n    y\n# acc wait\n# note\n    # deep\nz"

/-- One more comment, away from annotations, literals and backslashes, moves a directive under the
construct above it. -/
theorem absorbedWaitSource_moves_directive :
    waitSource.lines = waitSource.lines.take 5 ++ waitSource.lines.drop 5 ∧
      absorbedWaitSource.lines =
        waitSource.lines.take 5 ++ "    # deep".toList :: waitSource.lines.drop 5 ∧
      Line.kindOf (Carry.after (waitSource.lines.take 5)) "    # deep" = .comment ∧
      Carry.after (waitSource.lines.take 5) = {} ∧
      PragmaLine.body? PragmaLine.defaultFramework "    # deep" = none ∧
      Markers.opens {} "    # deep" = false ∧ Markers.closes {} "    # deep" = false ∧
      (∀ a ∈ PragmaLine.scan PragmaLine.defaultFramework
        (.ofText Source.defaultTabWidth waitSource), a.line + 1 ≠ 5) ∧
      ∃ tree tree',
        (parseDirectives {} (.ofText Source.defaultTabWidth waitSource)).outcome = .ok tree ∧
        (parseDirectives {} (.ofText Source.defaultTabWidth absorbedWaitSource)).outcome =
          .ok tree' ∧
        tree.skeleton = [(.parallel, 0, 0), (.wait, 3, 0)] ∧
        tree'.skeleton = [(.parallel, 0, 0), (.wait, 3, 1)] ∧
        tree'.skeleton ≠ DirectiveTree.shiftSkeleton 5 tree.skeleton := by
  have hcheck : ((parseDirectives {} (.ofText Source.defaultTabWidth waitSource)).outcome.toOption.any
      fun t => decide (t.skeleton = [(.parallel, 0, 0), (.wait, 3, 0)])) = true := by
    decide +kernel
  have hcheck' : ((parseDirectives {}
      (.ofText Source.defaultTabWidth absorbedWaitSource)).outcome.toOption.any
      fun t => decide (t.skeleton = [(.parallel, 0, 0), (.wait, 3, 1)])) = true := by
    decide +kernel
  obtain ⟨tree, htree, hskeleton⟩ := exists_of_any hcheck
  obtain ⟨tree', htree', hskeleton'⟩ := exists_of_any hcheck'
  rw [decide_eq_true_eq] at hskeleton hskeleton'
  refine ⟨by decide +kernel, by decide +kernel, by decide +kernel, by decide +kernel,
    by decide +kernel, by decide +kernel, by decide +kernel, by decide +kernel, tree, tree', htree,
    htree', hskeleton, hskeleton', ?_⟩
  rw [hskeleton, hskeleton']
  decide

end Offload
