import Offload.Proofs.Layout
import Offload.Proofs.Lock

/-!
Where the lines of a kernel come from. A loop body moves line by line: each line of the kernel is a
line of the source, or it takes the lock for an atomic region.
-/
namespace Offload

open Outcome

/-! Lines by number. -/

namespace Span

/-- The line numbers of a span, in order. -/
def lines (span : Span) : List Nat := List.range' span.start span.length

theorem Tiles.flatMap_lines {first stop : Nat} {spans : List Span} (h : Tiles first stop spans) :
    first ≤ stop ∧ spans.flatMap lines = List.range' first (stop - first) := by
  induction h with
  | nil stop => simp
  | @cons span spans stop hlt _ ih =>
    obtain ⟨hle, hlines⟩ := ih
    refine ⟨by omega, ?_⟩
    have hsplit : stop - span.start = span.length + (stop - span.stop) := by
      rw [length]
      omega
    have hnext : span.start + span.length = span.stop := by
      rw [length]
      omega
    rw [List.flatMap_cons, hlines, lines, hsplit, ← List.range'_append_1, hnext]

theorem Tiles.eq_nil_or_concat {first stop : Nat} {spans : List Span} (h : Tiles first stop spans) :
    spans = [] ∧ first = stop ∨
      ∃ init last, spans = init ++ [last] ∧ last.stop = stop ∧ last.start < last.stop := by
  induction h with
  | nil stop => exact .inl ⟨rfl, rfl⟩
  | @cons span spans stop hsolid _ ih =>
    right
    rcases ih with ⟨rfl, hstop⟩ | ⟨init, last, rfl, hlast⟩
    · exact ⟨[], span, rfl, hstop, hsolid⟩
    · exact ⟨span :: init, last, rfl, hlast⟩

end Span

namespace Source

variable {s : Source} {i : Nat}

theorem statementStop_le (h : i < s.size) : s.statementStop i ≤ s.size := by
  have hend := (goesOnTo_logicalEnd h).lt_size
  rcases (s.reaches_statementStop i).last with heq | hlast
  · omega
  · have := lt_size_of_has hlast
    omega

theorem slice_eq_map {span : Span} (h : span.stop ≤ s.size) :
    s.slice span = span.lines.map s.textAt := by
  have hsize : s.lines.length = s.size := rfl
  have hlength : span.length = span.stop - span.start := rfl
  refine List.ext_getElem? fun m => ?_
  rw [slice, List.getElem?_map, List.getElem?_map, List.getElem?_drop, List.getElem?_take]
  by_cases hm : span.start + m < span.stop
  · have hget := List.getElem?_eq_getElem (l := s.lines) (i := span.start + m) (by omega)
    rw [if_pos hm, Span.lines, List.getElem?_range' (by omega), Nat.one_mul]
    simp [textAt, text?, hget]
  · rw [if_neg hm, Span.lines, List.getElem?_eq_none (by rw [List.length_range']; omega)]
    rfl

theorem newline_not_mem_textAt (tabWidth : Nat) (t : Text) (i : Nat) :
    '\n' ∉ (ofText tabWidth t).textAt i := by
  have htext : (ofText tabWidth t).textAt i = t.lines[i]?.getD [] := by
    rw [textAt, text?, ofText, Line.getElem?_scan, Option.map_map]
    cases t.lines[i]? <;> rfl
  rw [htext]
  cases hline : t.lines[i]? with
  | none => simp
  | some line => exact Text.newline_not_mem_of_mem_lines (List.mem_of_getElem? hline)

end Source

/-! Regions end where the source does, at the latest. -/

namespace Region

variable {s : Source} {m : Markers} {line : Nat} {span : Span}

theorem stop_le_of_scope (h : scope s line = .ok span) : span.stop ≤ s.size := by
  unfold scope at h
  split at h
  · simp at h
  · next first hfind =>
    split at h
    · simp at h
    · obtain ⟨-, hfirst, -⟩ := Source.findFrom?_eq_some_iff.1 hfind
      rw [← Except.ok.inj h]
      exact Source.statementStop_le (Source.lt_size_of_has hfirst)

theorem closingOffset?_lt {depth : Int} {lines : List Line} {offset : Nat}
    (h : closingOffset? m depth lines = some offset) : offset < lines.length := by
  induction lines generalizing depth offset with
  | nil => simp [closingOffset?] at h
  | cons line lines ih =>
    have hstep : ∀ {depth : Int}, (closingOffset? m depth lines).map (· + 1) = some offset →
        offset < lines.length + 1 := by
      intro depth hmap
      obtain ⟨rest, hrest, rfl⟩ := Option.map_eq_some_iff.1 hmap
      exact Nat.succ_lt_succ (ih hrest)
    rw [closingOffset?] at h
    rw [List.length_cons]
    split at h
    · exact hstep h
    · split at h
      · exact hstep h
      · split at h
        · split at h
          · rw [← Option.some.inj h]
            omega
          · exact hstep h
        · exact hstep h

theorem stop_le_of_block? (h : block? m s line = .ok (some span)) : span.stop ≤ s.size := by
  unfold block? at h
  split at h
  · simp at h
  · split at h
    · split at h
      · next offset hoffset =>
        have hlt := closingOffset?_lt hoffset
        rw [List.length_drop] at hlt
        rw [← Option.some.inj (Except.ok.inj h)]
        change line + 1 + offset ≤ s.lines.length
        omega
      · simp at h
    · simp at h

theorem stop_le_of_find {kind : DirectiveKind} {r : Region}
    (h : find m s kind line = .ok (some r)) : r.span.stop ≤ s.size := by
  unfold find at h
  split at h
  · simp at h
  · obtain ⟨span, hspan, h⟩ := bind_eq_ok.1 h
    obtain rfl := Option.some.inj (Except.ok.inj h)
    exact stop_le_of_scope hspan
  · obtain ⟨block, hblock, h⟩ := bind_eq_ok.1 h
    cases block with
    | some span =>
      obtain rfl := Option.some.inj (Except.ok.inj h)
      exact stop_le_of_block? hblock
    | none =>
      obtain ⟨span, hspan, h⟩ := bind_eq_ok.1 h
      obtain rfl := Option.some.inj (Except.ok.inj h)
      exact stop_le_of_scope hspan

end Region

theorem PragmaLine.stop_le_of_region {config : Config} {s : Source} {line : Nat} {p : Pragma}
    {r : Region} (h : region config s line p = .ok (some r)) : r.span.stop ≤ s.size := by
  unfold region at h
  split at h
  · obtain ⟨span, hspan, h⟩ := bind_eq_ok.1 h
    obtain rfl := Option.some.inj (Except.ok.inj h)
    exact Region.stop_le_of_scope hspan
  · exact Region.stop_le_of_find h

namespace Host

variable {config : Config} {tree : DirectiveTree} {s : Source} {d : Directive}

theorem atomic_stop_le {source : Text} (h : (parse config source).outcome = .ok tree)
    {body region : Span} (hregion : region ∈ atomicsIn tree body) :
    region.stop ≤ (Source.ofText config.tabWidth source).size := by
  obtain ⟨d, hd, hkind, -, hregion⟩ := mem_atomicsIn.1 hregion
  obtain ⟨hgrow, -⟩ := exists_growTree_of_parseDirectives (mapError_eq_ok.1 h)
  rcases List.mem_cons.1 hd with rfl | hd
  · exact absurd hkind (by simp [DirectiveTree.root, Directive.root])
  · obtain ⟨e, he, rfl⟩ := List.mem_map.1 hd
    obtain ⟨a, -, -, p, found, hfound, hspan⟩ := (growing_of_growTree hgrow).annotated e he
    rw [hregion, eq_comm, Option.map_eq_some_iff] at hspan
    obtain ⟨r, rfl, rfl⟩ := hspan
    exact PragmaLine.stop_le_of_region hfound

/-! Nests that can be moved. -/

theorem LoopNest.ofLines_eq_ok {headers : List ForHeader} {outer inner : Nat} {nest : LoopNest}
    (h : ofLines s headers outer inner = .ok nest) :
    nest = ⟨headers, ⟨outer, s.statementStop outer⟩,
      ⟨s.logicalEnd inner + 1, s.statementStop inner⟩⟩ ∧ nest.body.start < nest.body.stop := by
  simp only [ofLines] at h
  split at h
  · simp at h
  · next hlt =>
    split at h
    · simp at h
    · obtain rfl := Except.ok.inj h
      exact ⟨rfl, Nat.lt_of_not_le hlt⟩

theorem LoopNest.exists_ofLines_of_find {region : Span} {nest : LoopNest}
    (h : find s d region = .ok nest) :
    ∃ headers outer inner, ofLines s headers outer inner = .ok nest := by
  unfold find at h
  split at h
  · obtain ⟨⟨header, line⟩, -, h⟩ := bind_eq_ok.1 h
    exact ⟨_, _, _, h⟩
  · exact ⟨_, _, _, h⟩

theorem LoopNest.body_of_find {region : Span} {nest : LoopNest} (h : find s d region = .ok nest) :
    nest.body.start < nest.body.stop ∧ nest.body.stop ≤ s.size := by
  obtain ⟨headers, outer, inner, h⟩ := exists_ofLines_of_find h
  obtain ⟨rfl, hlt⟩ := ofLines_eq_ok h
  refine ⟨hlt, ?_⟩
  -- A body has lines behind the header, so its last line is there.
  rcases (s.reaches_statementStop inner).last with heq | hlast
  · exact absurd hlt (by simp [heq])
  · have := Source.lt_size_of_has hlast
    change s.statementStop inner ≤ s.size
    omega

/-! How a kernel comes about. -/

/-- The lines of a loop body on their way into a kernel. -/
def kernelLines (s : Source) (tree : DirectiveTree) (nest : LoopNest) : List Text :=
  Text.unindent (lockAtomics s (atomicsIn tree nest.body) nest.body.start nest.body.stop)

/-- The loop of the directive gives the nest and its kernel. -/
structure Made (tree : DirectiveTree) (target : Target) (d : Directive) (region : Span)
    (nest : LoopNest) (kernel : Kernel) : Prop where
  found : LoopNest.find target.source d region = .ok nest
  reductions : reductionsOf d = .ok kernel.reductions
  kernel : kernelOf d target nest kernel.reductions (atomicsIn tree nest.body) = .ok kernel

section

variable {fallback gangs : Nat} {target next : Target} {region : Span} {nest : LoopNest}
  {kernel : Kernel} {ids : List Nat}

theorem kernelOf_eq_ok {reductions : List ReductionVar} {atomics : List Span} :
    kernelOf d target nest reductions atomics = .ok kernel ↔ ∃ body,
      functionBody (resultTuple reductions) (Text.unindent
        (lockAtomics target.source atomics nest.body.start nest.body.stop)) = .ok body ∧
      { line := d.line
        captured := capturedNames (visibleNames target nest) nest.headers reductions body
        headers := nest.headers
        reductions
        body } = kernel := by
  rw [kernelOf, bind_eq_ok]
  simp only [mapError_eq_ok]
  constructor
  · rintro ⟨body, hbody, hkernel⟩
    exact ⟨body, hbody, Except.ok.inj hkernel⟩
  · rintro ⟨body, hbody, hkernel⟩
    exact ⟨body, hbody, congrArg Except.ok hkernel⟩

namespace Made

theorem body (h : Made tree target d region nest kernel) :
    functionBody (resultTuple kernel.reductions) (kernelLines target.source tree nest) =
      .ok kernel.body := by
  obtain ⟨body, hbody, hkernel⟩ := kernelOf_eq_ok.1 h.kernel
  rw [kernelLines, hbody, ← hkernel]

theorem captured (h : Made tree target d region nest kernel) : kernel.captured =
    capturedNames (visibleNames target nest) nest.headers kernel.reductions kernel.body := by
  obtain ⟨body, -, hkernel⟩ := kernelOf_eq_ok.1 h.kernel
  rw [← hkernel]

end Made

theorem exists_made_of_move {construct : Directive} {c : Change}
    (h : move fallback d construct region tree target = .ok c) :
    ∃ nest kernel, c = .moved nest kernel (gangsFor fallback d construct) ∧
      Made tree target d region nest kernel := by
  obtain ⟨nest, hnest, h⟩ := bind_eq_ok.1 h
  obtain ⟨reductions, hreductions, h⟩ := bind_eq_ok.1 h
  obtain ⟨kernel, hkernel, hc⟩ := bind_eq_ok.1 h
  have hsame : kernel.reductions = reductions := by
    obtain ⟨body, -, heq⟩ := kernelOf_eq_ok.1 hkernel
    rw [← heq]
  rw [← hsame] at hreductions hkernel
  exact ⟨nest, kernel, (Except.ok.inj hc).symm, hnest, hreductions, hkernel⟩

/-- Only a loop is moved, and it is moved from its region. -/
theorem exists_loop_of_change?
    (h : change? fallback d tree target = some (.moved nest kernel gangs)) :
    ∃ region, d.kind = .loop ∧ d.region = some region ∧ Made tree target d region nest kernel := by
  rcases change?_eq_some.1 h with ⟨hkind, hloop⟩ | ⟨-, -, region, -, hlocked⟩
  · obtain ⟨region, construct, hregion, -, -, -, hmove⟩ := loopChange?_eq_some.1 hloop
    obtain ⟨nest', kernel', hmoved, hmade⟩ := exists_made_of_move hmove
    obtain ⟨rfl, rfl, -⟩ := Change.moved.inj hmoved
    exact ⟨region, hkind, hregion, hmade⟩
  · simp at hlocked

theorem exists_made_of_change?
    (h : change? fallback d tree target = some (.moved nest kernel gangs)) :
    ∃ region, Made tree target d region nest kernel := by
  obtain ⟨region, -, -, hmade⟩ := exists_loop_of_change? h
  exact ⟨region, hmade⟩

/-- A kernel depends on what generation leaves as it is. -/
theorem Made.of_differs {changes : List Change} (hdiffers : Differs tree changes target next)
    (h : Made tree next d region nest kernel) : Made tree target d region nest kernel := by
  have hvisible : visibleNames next nest = visibleNames target nest := by
    rw [visibleNames, visibleNames, hdiffers.source, hdiffers.span, hdiffers.parameters]
  have hkernel := h.kernel
  rw [kernelOf_eq_ok, hvisible, hdiffers.source, ← kernelOf_eq_ok] at hkernel
  exact ⟨hdiffers.source ▸ h.found, h.reductions, hkernel⟩

/-- Every nest that a run moves comes from the region of one of the loops. -/
theorem exists_loop_of_moved
    (h : .moved nest kernel gangs ∈ changesFrom fallback tree target ids) :
    ∃ id ∈ ids, ∃ region, (tree.get id).kind = .loop ∧ (tree.get id).region = some region ∧
      Made tree target (tree.get id) region nest kernel := by
  obtain ⟨id, hid, before, changes, hdiffers, hchange⟩ := exists_change?_of_mem h
  obtain ⟨region, hkind, hregion, hmade⟩ := exists_loop_of_change? hchange
  exact ⟨id, hid, region, hkind, hregion, hmade.of_differs hdiffers⟩

/-- Every kernel of a run comes from the loop of one of the nodes. -/
theorem exists_made (h : .moved nest kernel gangs ∈ changesFrom fallback tree target ids) :
    ∃ id ∈ ids, ∃ region, Made tree target (tree.get id) region nest kernel := by
  obtain ⟨id, hid, region, -, -, hmade⟩ := exists_loop_of_moved h
  exact ⟨id, hid, region, hmade⟩

end

/-! The lines of a kernel before they are moved to the left. -/

/-- A line of a kernel takes the lock for a region, or it is a line of the source, which stands one
level deeper under the lock. -/
inductive Origin
  | lock (region : Span)
  | own (line : Nat) (locked : Bool)
deriving DecidableEq

namespace Origin

def text (s : Source) : Origin → Text
  | lock region =>
    Text.margin (s.textAt ((s.firstStatement? region).getD region.start)) ++ "with " ++ lockName ++
      ":"
  | own l locked => if locked then Writer.insetLine (s.textAt l) else s.textAt l

def line? : Origin → Option Nat
  | lock _ => none
  | own l _ => some l

end Origin

namespace Part

def span : Part → Span
  | line l => ⟨l, l + 1⟩
  | changed c => c.span

/-- The origins of the lines of a part. A change stands for a region under the lock. -/
def origins : Part → List Origin
  | line l => [.own l false]
  | changed c => .lock c.span :: c.span.lines.map (.own · true)

theorem filterMap_origins (p : Part) : p.origins.filterMap Origin.line? = p.span.lines := by
  cases p with
  | line l => simp [origins, Origin.line?, span, Span.lines, Span.length]
  | changed c =>
    rw [origins, List.filterMap_cons_none rfl, List.filterMap_map]
    exact List.filterMap_some

theorem exists_origins_concat {p : Part} (h : p.span.start < p.span.stop) :
    ∃ init locked, p.origins = init ++ [.own (p.span.stop - 1) locked] := by
  cases p with
  | line l => exact ⟨[], false, rfl⟩
  | changed c =>
    have hlength : c.span.length = c.span.stop - 1 - c.span.start + 1 := by
      change c.span.start < c.span.stop at h
      rw [Span.length]
      omega
    have hlast : c.span.start + 1 * (c.span.stop - 1 - c.span.start) = c.span.stop - 1 := by
      change c.span.start < c.span.stop at h
      omega
    rw [origins, Span.lines, hlength, List.range'_concat, hlast, List.map_append]
    exact ⟨.lock c.span :: _, true, rfl⟩

theorem lines_locked {region : Span} (h : region.stop ≤ s.size) :
    (changed (.locked region)).lines s =
      (changed (.locked region)).origins.map (Origin.text s) := by
  change lockedLines s region = _
  rw [lockedLines, Source.slice_eq_map h, origins, List.map_cons, List.map_map, List.map_map]
  rfl

end Part

/-- The origins of the lines of a kernel. -/
def origins (tree : DirectiveTree) (nest : LoopNest) : List Origin :=
  (kernelParts tree nest).flatMap Part.origins

/-- The walk over a body ends at its stop, or at the stop of a region that reaches further. -/
structure WalkStop (tree : DirectiveTree) (nest : LoopNest) (stop : Nat) : Prop where
  le : nest.body.stop ≤ stop
  taken : ∀ r, .changed (.locked r) ∈ kernelParts tree nest → r.stop ≤ stop
  attained : stop = nest.body.stop ∨
    ∃ r, .changed (.locked r) ∈ kernelParts tree nest ∧ r.stop = stop

section

variable {atomics : List Span} {line stop : Nat}

theorem lockAtomics_eq_map (h : ∀ r ∈ atomics, r.stop ≤ s.size) :
    lockAtomics s atomics line stop =
      ((lockParts atomics line stop).flatMap Part.origins).map (Origin.text s) := by
  rw [lockAtomics_eq]
  fun_induction lockParts atomics line stop with
  | case1 line hlt region hfind ih =>
    have hregion := h region (of_find?_start hfind).1
    rw [List.flatMap_cons, List.flatMap_cons, List.map_append, ih, Part.lines_locked hregion]
  | case2 line hlt hfind ih =>
    rw [List.flatMap_cons, List.flatMap_cons, List.map_append, ih]
    rfl
  | case3 line hge => rfl

theorem mem_of_mem_lockParts {region : Span}
    (h : .changed (.locked region) ∈ lockParts atomics line stop) : region ∈ atomics := by
  fun_induction lockParts atomics line stop with
  | case1 line hlt taken hfind ih =>
    rcases List.mem_cons.1 h with heq | h
    · obtain rfl := Change.locked.inj (Part.changed.inj heq)
      exact (of_find?_start hfind).1
    · exact ih h
  | case2 line hlt hfind ih =>
    simp only [List.mem_cons, reduceCtorEq, false_or] at h
    exact ih h
  | case3 line hge => simp at h

theorem lockParts_of_le (h : stop ≤ line) : lockParts atomics line stop = [] := by
  rw [lockParts, if_neg (by omega)]

/-- The walk takes up every line once, and passes its end only with the last region. -/
theorem exists_tiles_lockParts (atomics : List Span) (h : line < stop) :
    ∃ last, Span.Tiles line last ((lockParts atomics line stop).map Part.span) ∧ stop ≤ last ∧
      (∀ r, .changed (.locked r) ∈ lockParts atomics line stop → r.stop ≤ last) ∧
      (last = stop ∨ ∃ r, .changed (.locked r) ∈ lockParts atomics line stop ∧ r.stop = last) := by
  fun_induction lockParts atomics line stop with
  | case1 line hlt region hfind ih =>
    obtain ⟨-, rfl, hsolid⟩ := of_find?_start hfind
    rcases Nat.lt_or_ge region.stop stop with hstop | hstop
    · obtain ⟨last, htiles, hle, htaken, hattained⟩ := ih hstop
      refine ⟨last, .cons hsolid htiles, hle, ?_, ?_⟩
      · intro r hr
        rcases List.mem_cons.1 hr with heq | hr
        · obtain rfl := Change.locked.inj (Part.changed.inj heq)
          exact Nat.le_trans (Nat.le_of_lt hstop) hle
        · exact htaken r hr
      · rcases hattained with hlast | ⟨r, hr, hlast⟩
        · exact .inl hlast
        · exact .inr ⟨r, List.mem_cons_of_mem _ hr, hlast⟩
    · rw [lockParts_of_le hstop]
      refine ⟨region.stop, .cons hsolid (.nil _), hstop, ?_, .inr ⟨region, by simp, rfl⟩⟩
      intro r hr
      obtain rfl : r = region := by simpa using hr
      exact Nat.le_refl _
  | case2 line hlt hfind ih =>
    rcases Nat.lt_or_ge (line + 1) stop with hstop | hstop
    · obtain ⟨last, htiles, hle, htaken, hattained⟩ := ih hstop
      refine ⟨last, @Span.Tiles.cons ⟨line, line + 1⟩ _ _ (Nat.lt_succ_self line) htiles, hle,
        ?_, ?_⟩
      · simpa using htaken
      · simpa using hattained
    · obtain rfl : stop = line + 1 := by omega
      rw [lockParts_of_le (Nat.le_refl _)]
      refine ⟨line + 1, @Span.Tiles.cons ⟨line, line + 1⟩ _ _ (Nat.lt_succ_self line) (.nil _),
        Nat.le_refl _, ?_, .inl rfl⟩
      simp
  | case3 line hge => exact absurd h hge

end

/-- The walk over the body of a nest that has been found in a parsed source. -/
structure Walked (s : Source) (tree : DirectiveTree) (nest : LoopNest) (stop : Nat) : Prop
    extends WalkStop tree nest stop where
  source : ∃ tabWidth text, s = .ofText tabWidth text
  body : nest.body.start < nest.body.stop
  size : nest.body.stop ≤ s.size
  atomics : ∀ r ∈ atomicsIn tree nest.body, r.stop ≤ s.size
  lines : (origins tree nest).filterMap Origin.line? =
    List.range' nest.body.start (stop - nest.body.start)
  last : ∃ init locked, origins tree nest = init ++ [.own (stop - 1) locked]

/-- A kernel takes up the lines from the start of the body to where the walk ends. -/
theorem exists_walked {source : Text} {region : Span} {nest : LoopNest}
    (hparse : (parse config source).outcome = .ok tree) (hs : s = .ofText config.tabWidth source)
    (hfind : LoopNest.find s d region = .ok nest) : ∃ stop, Walked s tree nest stop := by
  obtain ⟨hbody, hsize⟩ := LoopNest.body_of_find hfind
  obtain ⟨stop, htiles, hle, htaken, hattained⟩ :=
    exists_tiles_lockParts (atomicsIn tree nest.body) hbody
  refine ⟨stop, ⟨hle, htaken, hattained⟩, ⟨_, _, hs⟩, hbody, hsize,
    fun r hr => hs ▸ atomic_stop_le hparse hr, ?_, ?_⟩
  · rw [origins, List.filterMap_flatMap, ← htiles.flatMap_lines.2, List.flatMap_map]
    congr 1
    funext p
    exact p.filterMap_origins
  · obtain ⟨spans, span, hspans, rfl, hsolid⟩ := htiles.eq_nil_or_concat.resolve_left (by omega)
    obtain ⟨parts, ends, hparts, -, hend⟩ := List.map_eq_append_iff.1 hspans
    obtain ⟨p, rfl, rfl⟩ := List.map_eq_singleton_iff.1 hend
    obtain ⟨init, locked, hinit⟩ := Part.exists_origins_concat hsolid
    refine ⟨parts.flatMap Part.origins ++ init, locked, ?_⟩
    rw [origins, kernelParts, hparts, List.flatMap_append, List.flatMap_singleton, hinit,
      List.append_assoc]

theorem kernelLines_eq {nest : LoopNest} {stop : Nat} (h : Walked s tree nest stop) :
    kernelLines s tree nest = ((origins tree nest).map (Origin.text s)).map
      (Text.moved (Text.commonMargin ((origins tree nest).map (Origin.text s)))) := by
  rw [kernelLines, lockAtomics_eq_map h.atomics, Text.unindent_eq]
  rfl

theorem Walked.le_size {nest : LoopNest} {stop : Nat} (h : Walked s tree nest stop) :
    stop ≤ s.size := by
  rcases h.attained with heq | ⟨r, hr, rfl⟩
  · have := h.size
    omega
  · exact h.atomics r (mem_of_mem_lockParts hr)

theorem Walked.newline_not_mem {nest : LoopNest} {stop : Nat} (h : Walked s tree nest stop)
    (i : Nat) : '\n' ∉ s.textAt i := by
  obtain ⟨tabWidth, text, rfl⟩ := h.source
  exact Source.newline_not_mem_textAt tabWidth text i

end Host
end Offload
