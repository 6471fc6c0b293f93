import Offload.Proofs.Compound
import Offload.Proofs.Complaint

/-!
Where errors point. Reading annotations fails at the first one that cannot be processed. The error
names the line of that annotation, or the line of a loop without a countable range in its region.
-/
namespace Offload

open Outcome

namespace Source

variable {s : Source} {first l : Nat} {header : ForHeader}

theorem isTrivia_of_startsStatement (h : s.has Line.startsStatement l = true) :
    s.has Line.isTrivia l = false := by
  have hcode := has_of_has (fun _ => Line.not_isTrivia_of_startsStatement) h
  rw [has_not, Bool.and_eq_true, Bool.not_eq_true'] at hcode
  exact hcode.2

theorem continuation_of_startsStatement (h : s.has Line.startsStatement l = true) :
    s.has Line.continuation l = false := by
  obtain ⟨line, hline, hstart⟩ := has_eq_true.1 h
  simp only [Line.startsStatement, Bool.and_eq_true, Bool.not_eq_true'] at hstart
  simp [has, hline, hstart.2]

theorem Scanned.isExtent_of_startsStatement (h : s.Scanned)
    (hstart : s.has Line.startsStatement l = true) :
    s.IsExtent Line.resumesStatement l (s.statementStop l) :=
  h.isExtent_statementStop (lt_size_of_has hstart) (isTrivia_of_startsStatement hstart)

/-- A statement with the header of a loop begins with the word `for`. -/
theorem opensFor_of_forHeader? (h : s.Linked) (hstart : s.has Line.startsStatement l = true)
    (hheader : s.forHeader? l = some header) : Text.opensFor (s.textAt l) = true := by
  obtain ⟨line, hline, hline'⟩ := has_eq_true.1 hstart
  have hsize := lt_size_of_has hstart
  have hend := goesOnTo_logicalEnd hsize
  have htext : s.textAt l = line.text := by simp [textAt, text?, hline]
  have hslice : ∃ rest, s.slice ⟨l, s.logicalEnd l + 1⟩ = s.textAt l :: rest := by
    have hle := hend.le
    have hstop : (⟨l, s.logicalEnd l + 1⟩ : Span).stop ≤ s.size := hend.lt_size
    rw [slice_eq_map hstop, Span.lines, Span.length]
    change ∃ rest, (List.range' l (s.logicalEnd l + 1 - l)).map s.textAt = s.textAt l :: rest
    rw [show s.logicalEnd l + 1 - l = (s.logicalEnd l - l) + 1 by omega, List.range'_succ]
    exact ⟨_, rfl⟩
  obtain ⟨rest, hrest⟩ := hslice
  obtain ⟨tail, htail, hform⟩ := Text.exists_unlines_cons (s.textAt l) rest
  cases hfor : Text.opensFor (s.textAt l) with
  | true => rfl
  | false =>
    have hblank := h.written l line hline hline'
    rw [← htext] at hblank
    rw [forHeader?, textOf, hrest, htail, ForHeader.parse?_eq_none hfor hblank hform] at hheader
    simp at hheader

/-- A loop is no further part of another statement. -/
theorem resumesStatement_of_opensFor (h : Text.opensFor (s.textAt l) = true) :
    s.has Line.resumesStatement l = false := by
  rw [has]
  cases hline : s.lines[l]? with
  | none => rfl
  | some line =>
    rw [textAt, text?, hline, Option.map_some, Option.getD_some, Text.opensFor] at h
    rw [Option.any_some, Line.resumesStatement]
    cases hrest : Text.after? "for" (Text.trimStart line.text) with
    | none =>
      rw [hrest] at h
      simp at h
    | some rest =>
      rw [Text.after?_eq_some_iff.1 hrest]
      rfl

/-- A loop inside a statement ends with it at the latest. -/
theorem Scanned.statementStop_le_of_forHeader? (h : s.Scanned)
    (hcode : s.has Line.isTrivia first = false) (hi : first < s.size)
    (hbehind : s.logicalEnd first < l) (hl : l < s.statementStop first)
    (hstart : s.has Line.startsStatement l = true) (hheader : s.forHeader? l = some header) :
    s.statementStop l ≤ s.statementStop first := by
  have hpart := (h.isExtent_statementStop hi hcode).parts l hbehind hl hstart
  have hfor := resumesStatement_of_opensFor (opensFor_of_forHeader? h.toLinked hstart hheader)
  obtain ⟨line, hline, hpart⟩ := has_eq_true.1 hpart
  simp only [has, hline, Option.any_some] at hfor
  simp only [Line.partOf, hfor, Bool.and_false, Bool.or_false, decide_eq_true_eq] at hpart
  apply h.statementStop_le_of_deeper (lt_size_of_has hstart) hl
  simpa [indentAt, indent?, hline] using hpart

end Source

namespace NestedLoop

open Source

variable {s : Source} {l : NestedLoop}

theorem forHeader?_of_mem_nestFrom {codeStop : Option Nat} {line : Nat}
    (h : l ∈ nestFrom s codeStop line) : ∃ header, s.forHeader? line = some header := by
  rw [nestFrom.eq_def] at h
  split at h
  · simp at h
  · next header hheader => exact ⟨header, hheader⟩

/-- The loops of a nest are statements inside the first one, and have headers. -/
theorem of_mem_nestFrom (hs : s.Scanned) {codeStop : Option Nat} {line : Nat}
    (hline : s.has Line.startsStatement line = true) (h : l ∈ nestFrom s codeStop line) :
    line ≤ l.line ∧ l.line < s.statementStop line ∧ s.has Line.startsStatement l.line = true ∧
      s.forHeader? l.line = some l.header := by
  induction hn : s.size - line using Nat.strongRecOn generalizing codeStop line with
  | ind n ih =>
  have hsize := lt_size_of_has hline
  have hend := s.le_logicalEnd line
  have hreach := (s.reaches_statementStop line).le
  rw [nestFrom.eq_def] at h
  split at h
  · simp at h
  · next header hheader =>
    dsimp only at h
    split at h
    · simp at h
    · rcases List.mem_cons.1 h with rfl | h
      · exact ⟨Nat.le_refl _, by dsimp only; omega, hline, hheader⟩
      · split at h
        · next next hfind =>
          obtain ⟨hle, hstart, -⟩ := findFrom?_eq_some_iff.1 hfind
          split at h
          · next hin =>
            obtain ⟨hlow, hhigh, hrest⟩ := ih (s.size - next) (by omega) hstart h rfl
            obtain ⟨inner, hinner⟩ := forHeader?_of_mem_nestFrom h
            have hstop := hs.statementStop_le_of_forHeader? (isTrivia_of_startsStatement hline) hsize
              hle hin hstart hinner
            exact ⟨by omega, by omega, hrest⟩
          · simp at h
        · simp at h

end NestedLoop

/-- A loop in a governed statement ends with the region at the latest. -/
theorem Region.statementStop_le_of_scope {s : Source} {line outer : Nat} {span : Span}
    {header : ForHeader} (hs : s.Scanned) (hscope : scope s line = .ok span)
    (hlow : span.start ≤ outer) (hin : outer < span.stop)
    (hstart : s.has Line.startsStatement outer = true)
    (hheader : s.forHeader? outer = some header) : s.statementStop outer ≤ span.stop := by
  unfold scope at hscope
  split at hscope
  · simp at hscope
  · next first hfind =>
    split at hscope
    · simp at hscope
    · obtain rfl := Except.ok.inj hscope
      dsimp only at hlow hin ⊢
      obtain ⟨-, hfirst, hmin⟩ := Source.findFrom?_eq_some_iff.1 hfind
      rw [Source.has_not, Bool.and_eq_true, decide_eq_true_eq, Bool.not_eq_true'] at hfirst
      have hle : first ≤ outer := by
        by_contra hlt
        have hnone := hmin outer hlow (by omega)
        rw [Source.has_not] at hnone
        simp [Source.isTrivia_of_startsStatement hstart, Source.lt_size_of_has hstart] at hnone
      rcases Nat.eq_or_lt_of_le hle with rfl | hlt
      · exact Nat.le_refl _
      · -- A statement starts behind the logical line of the first one.
        have hbehind : s.logicalEnd first < outer := by
          by_contra hge
          have hon := hs.continuation_of_le_logicalEnd hfirst.1 hlt (by omega)
          simp [Source.continuation_of_startsStatement hstart] at hon
        exact hs.statementStop_le_of_forHeader? hfirst.2 hfirst.1 hbehind hin hstart hheader

namespace NestedLoop

open Source

variable {s : Source} {l : NestedLoop}

/-- The loops of the nest that an annotation governs are statements of its region. -/
theorem of_mem_nestIn (hs : s.Scanned) {line : Nat} {span : Span}
    (hscope : Region.scope s line = .ok span) (h : l ∈ nestIn s span) :
    span.contains l.line = true ∧ s.has Line.startsStatement l.line = true ∧
      s.forHeader? l.line = some l.header := by
  unfold nestIn firstStatement? at h
  split at h
  · next outer houter =>
    obtain ⟨hnext, hin⟩ := Option.filter_eq_some_iff.1 houter
    obtain ⟨hlow, hstart, -⟩ := nextStatement?_eq_some_iff.1 hnext
    obtain ⟨hle, hlt, hrest⟩ := of_mem_nestFrom hs hstart h
    refine ⟨?_, hrest⟩
    rw [Span.contains, Bool.and_eq_true, decide_eq_true_eq, decide_eq_true_eq]
    obtain ⟨header, hheader⟩ := forHeader?_of_mem_nestFrom h
    have hstop := Region.statementStop_le_of_scope hs hscope hlow (by simpa using hin) hstart hheader
    exact ⟨Nat.le_trans hlow hle, Nat.lt_of_lt_of_le hlt hstop⟩
  · simp at h

end NestedLoop

namespace PragmaLine

/-- The first annotation of the scan that cannot be added to the tree of those before it. -/
def FirstFailing (config : Config) (s : Source) (a : PragmaLine) (e : Error) : Prop :=
  ∃ before behind tree, scan config.framework s = before ++ a :: behind ∧
    before.foldlM (fun t b => (b.addTo config s t).outcome) (.empty s.size) = .ok tree ∧
    (a.addTo config s tree).outcome = .error e

/-- The error says that the loop at a line, a statement in the region of the annotation, has no
countable range. -/
structure BlamesLoop (config : Config) (s : Source) (a : PragmaLine) (l : Nat) (e : Error) :
    Prop where
  governed : ∃ p region, Pragma.read a.body = .ok p ∧
    PragmaLine.region config s a.line p = .ok (some region) ∧ region.span.contains l = true
  starts : s.has Line.startsStatement l = true
  opens : Text.opensFor (s.textAt l) = true
  uncountable : ∃ header, s.forHeader? l = some header ∧
    e = .malformed l (.uncountable header.iterable)

/-- A complaint names the line of its annotation, or that of a loop in its region. -/
theorem Blames.line_eq_or_blamesLoop {config : Config} {s : Source} {a : PragmaLine} {e : Error}
    {l : Nat} (hs : s.Scanned) (h : a.Blames config s e) (hl : e.line? = some l) :
    l = a.line ∨ a.BlamesLoop config s l e := by
  cases h with
  | clause fault => exact .inl (Option.some.inj hl).symm
  | malformed fault => exact .inl (Option.some.inj hl).symm
  | @loop p span loop hread hregion hscope hmem =>
    obtain rfl : loop.line = l := Option.some.inj hl
    obtain ⟨hin, hstart, hheader⟩ := NestedLoop.of_mem_nestIn hs hscope hmem
    exact .inr {
      governed := ⟨p, ⟨span, false⟩, hread, hregion, hin⟩
      starts := hstart
      opens := Source.opensFor_of_forHeader? hs.toLinked hstart hheader
      uncountable := ⟨loop.header, hheader, rfl⟩ }

end PragmaLine

/-- An error with a line arises while an annotation is added: a bad keyword and a failed final check
have none. -/
theorem growTree_eq_error_of_line? {config : Config} {s : Source} {e : Error} {l : Nat}
    (h : (parseDirectives config s).outcome = .error e) (hl : e.line? = some l) :
    growTree config s = .error e := by
  by_cases hf : PragmaLine.isFramework config.framework = true
  · rw [parseDirectives_outcome hf, bind_eq_error] at h
    rcases h with hgrow | ⟨t, -, hcheck⟩
    · exact hgrow
    · rw [bind_eq_error] at hcheck
      rcases hcheck with hcheck | ⟨_, -, hok⟩
      · obtain ⟨fault, -, rfl⟩ := mapError_eq_error.1 hcheck
        simp [Error.line?] at hl
      · simp at hok
  · have hbad : PragmaLine.checkFramework config.framework =
        .error (.internal (.badFramework config.framework)) := by
      simp [PragmaLine.checkFramework, hf]
    rw [parseDirectives, Logged.outcome_bind, Logged.outcome_lift, hbad, error_bind] at h
    obtain rfl := Except.error.inj h
    simp [Error.line?] at hl

/-- The line of an error is a line of the source: that of the first annotation that cannot be
processed, or, for a loop without a countable range only, that of a loop in the region of this
annotation. -/
theorem parseDirectives_error_line {config : Config} {tabWidth : Nat} {t : Text} {e : Error} {l : Nat}
    (h : (parseDirectives config (.ofText tabWidth t)).outcome = .error e)
    (hl : e.line? = some l) :
    l < (Source.ofText tabWidth t).size ∧
      ∃ a, PragmaLine.FirstFailing config (.ofText tabWidth t) a e ∧
        (l = a.line ∨ a.BlamesLoop config (.ofText tabWidth t) l e) := by
  obtain ⟨before, a, behind, tree, hscan, htree, hfails, hblames⟩ :=
    exists_blames_of_growTree (growTree_eq_error_of_line? h hl)
  have hline := hblames.line_eq_or_blamesLoop (Source.scanned_ofText tabWidth t) hl
  refine ⟨?_, a, ⟨before, behind, tree, hscan, htree, hfails⟩, hline⟩
  rcases hline with rfl | hloop
  · have hmem : a ∈ PragmaLine.scan config.framework (.ofText tabWidth t) := by simp [hscan]
    exact PragmaLine.line_lt_of_mem_scan hmem
  · exact Source.lt_size_of_has hloop.starts

/-- The inner loop of the nest has no countable range, and the last annotation is unknown. -/
def uncountableText : Text :=
  Text.unlines ["# acc wait", "# acc loop collapse(2)", "for i in range(n):", "    for j in iter(f):",
    "        g(i, j)", "# acc nothing"]

theorem uncountableText_error_line :
    (parseDirectives {} (.ofText 8 uncountableText)).outcome =
        .error (.malformed 3 (.uncountable "iter(f)")) ∧
      3 < (Source.ofText 8 uncountableText).size ∧
      ∃ a, PragmaLine.FirstFailing {} (.ofText 8 uncountableText) a
          (.malformed 3 (.uncountable "iter(f)")) ∧
        a.BlamesLoop {} (.ofText 8 uncountableText) 3 (.malformed 3 (.uncountable "iter(f)")) := by
  have hfails : (parseDirectives {} (.ofText 8 uncountableText)).outcome =
      .error (.malformed 3 (.uncountable "iter(f)")) := by
    apply (map_eq_error (f := fun tree => tree.entries.length)).1
    decide +kernel
  have hcode : ∀ a ∈ PragmaLine.scan PragmaLine.defaultFramework (.ofText 8 uncountableText),
      a.line ≠ 3 := by
    decide +kernel
  obtain ⟨hlt, a, hfirst, hline⟩ := parseDirectives_error_line hfails rfl
  have hmem : a ∈ PragmaLine.scan PragmaLine.defaultFramework (.ofText 8 uncountableText) := by
    obtain ⟨before, behind, tree, hscan, -⟩ := hfirst
    rw [hscan]
    simp
  exact ⟨hfails, hlt, a, hfirst, hline.resolve_left (hcode a hmem).symm⟩

end Offload
