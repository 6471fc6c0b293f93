import Offload.Proofs.Jump
import Offload.Proofs.Bracket
import Offload.Proofs.Inline
import Offload.Proofs.Soundness

/-!
How the lines of a kernel are indented. A body moves to the left by the least number of spaces in
front of any of its lines, so a comment, the inside of a literal or a tab decides where its
statements come to stand.
-/
namespace Offload

namespace Text

variable {tabWidth width : Nat} {t u : Text}

/-- A tab follows the leading spaces. -/
def tabbed (t : Text) : Bool := (t.drop (leadingSpaces t)).head? == some '\t'

/-! Columns of indentation. -/

theorem le_indentWidth_go (tabWidth width : Nat) (t : Text) :
    width ≤ indentWidth.go tabWidth width t := by
  fun_induction indentWidth.go tabWidth width t <;> omega

theorem indentWidth_go_eq_self_iff (htab : 0 < tabWidth) :
    indentWidth.go tabWidth width t = width ↔ t.head? ≠ some ' ' ∧ t.head? ≠ some '\t' := by
  fun_cases indentWidth.go tabWidth width t with
  | case1 rest =>
    have hle := le_indentWidth_go tabWidth (width + 1) rest
    have hne : indentWidth.go tabWidth (width + 1) rest ≠ width := by omega
    simp [hne]
  | case2 rest =>
    have hlt := Nat.mod_lt width htab
    have hle := le_indentWidth_go tabWidth (width + (tabWidth - width % tabWidth)) rest
    have hne : indentWidth.go tabWidth (width + (tabWidth - width % tabWidth)) rest ≠ width := by
      omega
    simp [hne]
  | case3 t hspace htab =>
    cases t with
    | nil => simp
    | cons c cs =>
      have hc : c ≠ ' ' := fun hc => hspace cs (by rw [hc])
      have hc' : c ≠ '\t' := fun hc => htab cs (by rw [hc])
      simp [hc, hc']

theorem indentWidth_go_spaces (tabWidth width n : Nat) (t : Text) :
    indentWidth.go tabWidth width (spaces n ++ t) = indentWidth.go tabWidth (width + n) t := by
  induction n generalizing width with
  | zero => rfl
  | succ n ih =>
    have hcons : spaces (n + 1) ++ t = ' ' :: (spaces n ++ t) := rfl
    rw [hcons, indentWidth.go, ih]
    congr 1
    omega

theorem indentWidth_go_margin (tabWidth width : Nat) (t : Text) :
    indentWidth.go tabWidth width (margin t) = indentWidth.go tabWidth width t := by
  fun_induction indentWidth.go tabWidth width t with
  | case1 width rest ih =>
    have hmargin : margin (' ' :: rest) = ' ' :: margin rest := rfl
    rw [hmargin, indentWidth.go, ih]
  | case2 width rest ih =>
    have hmargin : margin ('\t' :: rest) = '\t' :: margin rest := rfl
    rw [hmargin, indentWidth.go, ih]
  | case3 t width hspace htab =>
    cases t with
    | nil => rfl
    | cons c cs =>
      by_cases hc : isBlank c = true
      · rw [margin, List.takeWhile_cons_of_pos hc, indentWidth.go]
        · exact fun rest hrest => hspace cs (by rw [(List.cons.inj hrest).1])
        · exact fun rest hrest => htab cs (by rw [(List.cons.inj hrest).1])
      · rw [margin, List.takeWhile_cons_of_neg hc]
        rfl

/-- Only the margin counts. -/
theorem indentWidth_eq_of_margin (h : margin t = margin u) :
    indentWidth tabWidth t = indentWidth tabWidth u := by
  rw [indentWidth, indentWidth, ← indentWidth_go_margin, h, indentWidth_go_margin]

/-! Margins of the lines that are written. -/

theorem margin_append (h : blank t = true) (u : Text) : margin (t ++ u) = t ++ margin u :=
  List.takeWhile_append_of_pos (List.all_eq_true.1 h)

theorem margin_append_of_not_blank (h : blank t = false) (u : Text) :
    margin (t ++ u) = margin t := by
  induction t with
  | nil => simp [blank] at h
  | cons c cs ih =>
    by_cases hc : isBlank c = true
    · have hcs : blank cs = false := by simpa [blank, hc] using h
      rw [List.cons_append, margin, List.takeWhile_cons_of_pos hc, margin,
        List.takeWhile_cons_of_pos hc]
      exact congrArg (c :: ·) (ih hcs)
    · rw [List.cons_append, margin, List.takeWhile_cons_of_neg hc, margin,
        List.takeWhile_cons_of_neg hc]

theorem margin_chomp (h : blank t = false) : margin (chomp t) = margin t := by
  by_cases hend : t.getLast? = some '\r'
  · have hchomp : blank (chomp t) = false := by rw [blank_chomp, h]
    rw [← margin_append_of_not_blank hchomp ['\r'], chomp_of_eq hend]
  · rw [chomp_of_ne hend]

/-! The common margin. -/

theorem commonMargin_eq_iff {ls : List Text} {l : Text} (hl : l ∈ ls) (hb : blank l = false) :
    commonMargin ls = leadingSpaces l ↔
      ∀ l' ∈ ls, blank l' = false → leadingSpaces l ≤ leadingSpaces l' := by
  constructor
  · intro heq l' hl' hb'
    rw [← heq]
    exact commonMargin_le hl' hb'
  · intro hleast
    have hmem : leadingSpaces l ∈ (ls.filter fun line => !blank line).map leadingSpaces :=
      List.mem_map_of_mem (List.mem_filter.2 ⟨hl, by simp [hb]⟩)
    have hmin : ((ls.filter fun line => !blank line).map leadingSpaces).min? =
        some (leadingSpaces l) := by
      refine List.min?_eq_some_iff.2 ⟨hmem, fun n hn => ?_⟩
      obtain ⟨l', hl', rfl⟩ := List.mem_map.1 hn
      rw [List.mem_filter, Bool.not_eq_true'] at hl'
      exact hleast l' hl'.1 hl'.2
    rw [commonMargin, hmin, Option.getD_some]

theorem head?_drop_eq_space_iff {n : Nat} (h : n ≤ leadingSpaces t) :
    (t.drop n).head? = some ' ' ↔ n < leadingSpaces t := by
  rw [List.head?_drop]
  constructor
  · intro hspace
    by_contra hge
    obtain rfl : n = leadingSpaces t := by omega
    have hnot := List.head?_dropWhile_not (· == ' ') t
    have hdrop : t.dropWhile (· == ' ') = t.drop (leadingSpaces t) := by
      have hleft : (t.takeWhile (· == ' ') ++ t.dropWhile (· == ' ')).drop (leadingSpaces t) =
          t.dropWhile (· == ' ') := List.drop_left
      rw [← hleft, List.takeWhile_append_dropWhile]
    rw [hdrop, List.head?_drop, hspace] at hnot
    simp at hnot
  · intro hlt
    rw [← spaces_append_drop (le_refl (leadingSpaces t)), List.getElem?_append_left]
    · simp [spaces, hlt]
    · simpa [spaces] using hlt

/-- A line that has lost some of its spaces has no indentation left exactly if these were all. -/
theorem indentWidth_go_drop_eq_iff {n : Nat} (htab : 0 < tabWidth) (h : n ≤ leadingSpaces t) :
    indentWidth.go tabWidth width (t.drop n) = width ↔
      n = leadingSpaces t ∧ tabbed t = false := by
  rw [indentWidth_go_eq_self_iff htab, Ne, head?_drop_eq_space_iff h, tabbed]
  constructor
  · intro ⟨hspace, htabbed⟩
    obtain rfl : n = leadingSpaces t := by omega
    simpa using htabbed
  · rintro ⟨rfl, htabbed⟩
    simpa using htabbed

/-- The first character is no blank. -/
def Begins (t : Text) : Prop := ∃ c rest, t = c :: rest ∧ isBlank c = false

theorem Begins.append (h : Begins t) (u : Text) : Begins (t ++ u) := by
  obtain ⟨c, rest, rfl, hc⟩ := h
  exact ⟨c, rest ++ u, rfl, hc⟩

theorem begins_of_trim (h : trim t = t) (hne : t ≠ []) : Begins t := by
  have hstart := List.dropWhile_eq_self_iff.1 (trim_eq_self_iff.1 h).1
  obtain ⟨c, rest, rfl⟩ := List.exists_cons_of_ne_nil hne
  have hc : ¬ isBlank c = true := hstart (by simp)
  exact ⟨c, rest, rfl, by simpa using hc⟩

theorem Begins.indentWidth_go (h : Begins t) (tabWidth width : Nat) :
    indentWidth.go tabWidth width t = width := by
  obtain ⟨c, rest, rfl, hc⟩ := h
  have hspace : c ≠ ' ' := by
    rintro rfl
    exact absurd hc (by decide)
  have htab : c ≠ '\t' := by
    rintro rfl
    exact absurd hc (by decide)
  simp [indentWidth.go, hspace, htab]

theorem Begins.indentWidth_inset (h : Begins t) (tabWidth : Nat) :
    indentWidth tabWidth (Writer.inset t) = 4 := by
  obtain ⟨c, rest, rfl, hc⟩ := h
  have hnewline : c ≠ '\n' := by
    rintro rfl
    exact absurd hc (by decide)
  have hinset : ∃ out, Writer.inset (c :: rest) = spaces 4 ++ c :: out := by
    rw [Writer.inset, Writer.padded]
    · exact ⟨_, rfl⟩
    · exact hnewline
  obtain ⟨out, hout⟩ := hinset
  have hbegins : Begins (c :: out) := ⟨c, out, rfl, hc⟩
  rw [hout, indentWidth, indentWidth_go_spaces, hbegins.indentWidth_go]

end Text

theorem Writer.margin_insetLine {line : Text} (hb : Text.blank line = false) :
    Text.margin (insetLine line) = Text.spaces 4 ++ Text.margin line := by
  rw [insetLine, hb, if_neg (by simp)]
  exact Text.margin_append (Text.blank_spaces 4) line

/-! The line that takes an element of the iteration space apart. -/

theorem ForHeader.begins_target {header : ForHeader} {statement : Text}
    (h : parse? statement = some header) :
    Text.trim header.target = header.target ∧ Text.Begins header.target := by
  obtain ⟨⟨behind, target, iterable, -, htarget, -⟩, hne, -⟩ := exists_heads h
  have htrim : Text.trim header.target = header.target := by rw [← htarget, Text.trim_trim]
  exact ⟨htrim, Text.begins_of_trim htrim hne⟩

namespace Host

/-- The line of a kernel that sets the loop targets. -/
def Kernel.unpacking (k : Kernel) : Text :=
  Writer.inset (targetPattern k.headers ++ " = " ++ indexName)

theorem begins_targetPattern {headers : List ForHeader} (hne : headers ≠ [])
    (h : ∀ header ∈ headers, Text.trim header.target = header.target ∧
      Text.Begins header.target) : Text.Begins (targetPattern headers) := by
  obtain ⟨first, more, rfl⟩ := List.exists_cons_of_ne_nil hne
  obtain ⟨htrim, hbegins⟩ := h first List.mem_cons_self
  cases more with
  | nil => exact hbegins
  | cons next more =>
    rw [targetPattern, List.map_cons, List.map_cons, join_cons_cons, List.append_assoc]
    · apply Text.Begins.append
      dsimp only
      rw [htrim]
      split
      · exact ⟨'(', _, rfl, by decide⟩
      · exact hbegins
    · simp

/-! Lines that are written. -/

section

variable {s : Source} {tree : DirectiveTree} {nest : LoopNest} {kernel : Kernel} {returned : Text}
  {before : List Text} {line line' : Text} {o : Origin} {j stop tabWidth : Nat}

/-- A return stands where the `continue` has stood. -/
theorem margin_of_lineResult (h : lineResult returned before line = .ok line')
    (hb : Text.blank line = false) :
    Text.margin line' = Text.margin line ∧ Text.blank line' = false := by
  rcases eq_or_eq_of_lineResult h with rfl | ⟨-, rfl⟩
  · exact ⟨rfl, hb⟩
  · have hreturn : Text.margin ("return" ++ returned) = [] := rfl
    constructor
    · rw [List.append_assoc, Text.margin_append (Text.blank_margin line), hreturn, List.append_nil]
    · have hsolid : Text.blank "return" = false := by decide
      rw [Text.blank_append, Text.blank_append, hsolid, Bool.and_false, Bool.false_and]

/-- A line that is not blank is written four columns in. -/
theorem Kernel.exists_printed (hsingle : ∀ line ∈ kernel.body, '\n' ∉ line)
    (h : kernel.body[j]? = some line) (hb : Text.blank line = false) :
    ∃ written, kernel.printed[j]? = some written ∧
      Text.margin written = Text.spaces 4 ++ Text.margin line := by
  obtain ⟨init, last, hconcat⟩ : ∃ init last, kernel.body = init ++ [last] := by
    rcases List.eq_nil_or_concat' kernel.body with hnil | hconcat
    · simp [hnil] at h
    · exact hconcat
  rw [Kernel.printed_eq hconcat hsingle]
  rw [hconcat] at h
  by_cases hj : j < init.length
  · rw [List.getElem?_append_left hj] at h
    have hchomp : Text.blank (Text.chomp line) = false := by rw [Text.blank_chomp, hb]
    refine ⟨Writer.insetLine (Text.chomp line), ?_, ?_⟩
    · rw [List.getElem?_append_left (by simpa using hj), List.getElem?_map, h, Option.map_some]
    · rw [Writer.margin_insetLine hchomp, Text.margin_chomp hb]
  · rw [List.getElem?_append_right (Nat.not_lt.1 hj), List.getElem?_singleton] at h
    split at h
    · next hzero =>
      obtain rfl := Option.some.inj h
      have hne : last ≠ [] := by
        rintro rfl
        simp [Text.blank] at hb
      refine ⟨Writer.insetLine last, ?_, Writer.margin_insetLine hb⟩
      rw [if_neg hne, List.getElem?_append_right (by simpa using hj), List.length_map, hzero]
      rfl
    · simp at h

/-- Where a line of the body comes to stand. -/
theorem exists_printed_of_origin (hwalk : Walked s tree nest stop)
    (hreturned : '\n' ∉ resultTuple kernel.reductions)
    (hbody : functionBody (resultTuple kernel.reductions) (kernelLines s tree nest) =
      .ok kernel.body)
    (ho : (origins tree nest)[j]? = some o) (hb : Text.blank (o.text s) = false) :
    ∃ written, kernel.printed[j]? = some written ∧
      ∀ tabWidth, Text.indentWidth tabWidth written = Text.indentWidth.go tabWidth 4
        ((o.text s).drop (Text.commonMargin ((origins tree nest).map (Origin.text s)))) := by
  have hsingle := newline_not_mem_of_stands (forall₂_stands hwalk hreturned hbody)
  rw [kernelLines_eq hwalk, functionBody_eq_ok] at hbody
  obtain ⟨hlength, hresult⟩ := hbody
  rw [List.length_map, List.length_map] at hlength
  have hj : j < kernel.body.length := by
    rw [hlength]
    exact (List.getElem?_eq_some_iff.1 ho).1
  have hmem : o.text s ∈ (origins tree nest).map (Origin.text s) :=
    List.mem_map_of_mem (List.mem_of_getElem? ho)
  have hle := Text.commonMargin_le hmem hb
  have hmoved : Text.moved (Text.commonMargin ((origins tree nest).map (Origin.text s)))
      (o.text s) = (o.text s).drop
        (Text.commonMargin ((origins tree nest).map (Origin.text s))) := by
    rw [Text.moved, hb, if_neg (by simp)]
  have hline := hresult j _ kernel.body[j]
    (by rw [List.getElem?_map, List.getElem?_map, ho]; rfl) (List.getElem?_eq_getElem hj)
  rw [hmoved] at hline
  obtain ⟨hmargin, hsolid⟩ := margin_of_lineResult hline (by rw [Text.blank_drop hle, hb])
  obtain ⟨written, hwritten, hinset⟩ :=
    Kernel.exists_printed hsingle (List.getElem?_eq_getElem hj) hsolid
  refine ⟨written, hwritten, fun tabWidth => ?_⟩
  rw [hmargin, ← Text.margin_append (Text.blank_spaces 4)] at hinset
  rw [Text.indentWidth_eq_of_margin hinset, Text.indentWidth, Text.indentWidth_go_spaces]

end

/-! Statements of a kernel. -/

/-- The line of a kernel starts a statement. -/
def Origin.starts (s : Source) : Origin → Bool
  | lock _ => true
  | own l _ => s.has Line.startsStatement l

/-- The first of the lines that starts a statement. -/
structure IsFirstStatement (s : Source) (os : List Origin) (j : Nat) (o : Origin) : Prop where
  at_row : os[j]? = some o
  starts : o.starts s = true
  first : ∀ i < j, ∀ o', os[i]? = some o' → o'.starts s = false

/-- No tab follows the leading spaces of the line, and every other line has at least as many of them,
blank lines apart. -/
structure Leftmost (s : Source) (os : List Origin) (o : Origin) : Prop where
  spaced : Text.tabbed (o.text s) = false
  least : ∀ o' ∈ os, Text.blank (o'.text s) = false →
    Text.leadingSpaces (o.text s) ≤ Text.leadingSpaces (o'.text s)

section

variable {s : Source} {tree : DirectiveTree} {nest : LoopNest} {o : Origin} {stop tabWidth : Nat}

theorem blank_of_starts (hwalk : Walked s tree nest stop) (h : o.starts s = true) :
    Text.blank (o.text s) = false := by
  rw [← Bool.not_eq_true, Text.blank_iff_trimStart]
  cases o with
  | lock region =>
    rw [Origin.trimStart_lock rfl]
    simp
  | own l locked =>
    intro hnil
    have hstatement := isStatementLine_of_startsStatement hwalk h
      (Origin.trimStart_own (s := s) (o := .own l locked) rfl)
    rw [isStatementLine, Text.trim_eq, hnil] at hstatement
    exact absurd hstatement (by decide)

theorem leftmost_iff (htab : 0 < tabWidth) {os : List Origin} (ho : o ∈ os)
    (hb : Text.blank (o.text s) = false) :
    Text.indentWidth.go tabWidth 4
        ((o.text s).drop (Text.commonMargin (os.map (Origin.text s)))) = 4 ↔
      Leftmost s os o := by
  have hmem : o.text s ∈ os.map (Origin.text s) := List.mem_map_of_mem ho
  rw [Text.indentWidth_go_drop_eq_iff htab (Text.commonMargin_le hmem hb),
    Text.commonMargin_eq_iff hmem hb, List.forall_mem_map]
  exact ⟨fun ⟨hleast, hspaced⟩ => ⟨hspaced, hleast⟩, fun h => ⟨h.least, h.spaced⟩⟩

end

theorem Made.headers {tree : DirectiveTree} {target : Target} {d : Directive} {region : Span}
    {nest : LoopNest} {kernel : Kernel} (h : Made tree target d region nest kernel) :
    kernel.headers = nest.headers := by
  obtain ⟨body, -, hkernel⟩ := kernelOf_eq_ok.1 h.kernel
  rw [← hkernel]

/-- Loop targets have no blanks around them, so the line that sets them is four columns in. -/
theorem LoopNest.Keeps.indentWidth_unpacking {s : Source} {lines : List Nat} {nest : LoopNest}
    {kernel : Kernel} (h : Keeps s lines nest) (hheaders : kernel.headers = nest.headers)
    (tabWidth : Nat) : Text.indentWidth tabWidth kernel.unpacking = 4 := by
  have hne : nest.headers ≠ [] := by
    intro hnil
    have hlines := h.headers
    have hfirst := h.first
    rw [hnil, List.forall₂_nil_right_iff] at hlines
    simp [hlines] at hfirst
  have htargets : ∀ header ∈ nest.headers, Text.trim header.target = header.target ∧
      Text.Begins header.target := by
    intro header hheader
    obtain ⟨i, hi, rfl⟩ := List.getElem_of_mem hheader
    have hlength := h.headers.length_eq
    exact ForHeader.begins_target ((List.forall₂_iff_get.1 h.headers).2 i (by omega) hi)
  have hpattern := begins_targetPattern hne htargets
  rw [Kernel.unpacking, hheaders, List.append_assoc]
  exact (hpattern.append _).indentWidth_inset tabWidth

/-- For every loop that is moved into a kernel: each statement of the kernel is written, none further
left than the line that sets the loop targets, and the first one is level with that line exactly if
no tab follows its leading spaces and no line that moves with it, comments and the insides of
literals included, has fewer of them. -/
theorem first_statement_level_iff_leftmost {config : Config} {f : FunctionContext}
    {tree : DirectiveTree} {ids : List Nat} {target : Target} {nest : LoopNest} {kernel : Kernel}
    {gangs tabWidth : Nat}
    (hparse : (parse config f.source).outcome = .ok tree)
    (hrun : run (poolSize config.gangs) tree (.ofContext f config.tabWidth config.entry) ids =
      .ok target)
    (hmoved : .moved nest kernel gangs ∈ changesFrom (poolSize config.gangs) tree
      (.ofContext f config.tabWidth config.entry) ids)
    (htab : 0 < tabWidth) :
    kernel.render ∈ target.kernels ∧
      (∃ accumulators, kernel.render = kernel.head ++ kernel.unpacking ++ accumulators ++
        kernel.printed.flatMap (· ++ ['\n']) ++ kernel.closing) ∧
      (∀ (j : Nat) (o : Origin), (origins tree nest)[j]? = some o → o.starts target.source = true →
        ∃ line, kernel.printed[j]? = some line ∧
          Text.indentWidth tabWidth kernel.unpacking ≤ Text.indentWidth tabWidth line) ∧
      ∀ j o line, IsFirstStatement target.source (origins tree nest) j o →
        kernel.printed[j]? = some line →
        (Text.indentWidth tabWidth line = Text.indentWidth tabWidth kernel.unpacking ↔
          Leftmost target.source (origins tree nest) o) := by
  have hsource : target.source = .ofText config.tabWidth f.source := (differs_run hrun).source
  obtain ⟨id, -, region, hkind, hregion, hmade⟩ := exists_loop_of_moved hmoved
  obtain ⟨headers, outer, inner, hlocates⟩ :=
    LoopNest.exists_locates_of_parse hparse hkind hregion hmade.found
  have hkeeps := hlocates.keeps (Source.scanned_ofText config.tabWidth f.source) hmade.found
  obtain ⟨stop, hwalk⟩ := exists_walked hparse rfl hmade.found
  have hnames := fun r => isIdentifier_of_reductionsOf (r := r) hmade.reductions
  have hnewline := not_mem_resultTuple (c := '\n') hnames
    (Identifier.isXidContinue_of_isSign (by decide)) (by decide)
  rw [hkeeps.indentWidth_unpacking hmade.headers, hsource]
  refine ⟨?_, ⟨_, kernel.render_eq⟩, ?_, ?_⟩
  · exact (mem_kernels_iff hrun).2 ⟨nest, kernel, gangs, hmoved, rfl⟩
  · intro j o ho hstarts
    have hb := blank_of_starts hwalk hstarts
    obtain ⟨line, hline, hwidth⟩ := exists_printed_of_origin hwalk hnewline hmade.body ho hb
    refine ⟨line, hline, ?_⟩
    rw [hwidth]
    exact Text.le_indentWidth_go _ _ _
  · intro j o line hfirst hline
    have hb := blank_of_starts hwalk hfirst.starts
    obtain ⟨line', hline', hwidth⟩ :=
      exists_printed_of_origin hwalk hnewline hmade.body hfirst.at_row hb
    obtain rfl : line = line' := Option.some.inj (hline.symm.trans hline')
    rw [hwidth]
    exact leftmost_iff htab (List.mem_of_getElem? hfirst.at_row) hb

/-- A comment stands further left than the statements around it. -/
def notedLoop : FunctionContext where
  source := Text.unlines ["# acc parallel loop", "for i in x:", "        g(i)", "    # note",
    "        h(i)"]

def notedNest : LoopNest where
  headers := [⟨"i", "x"⟩]
  span := ⟨1, 5⟩
  body := ⟨2, 5⟩

def notedKernel : Kernel where
  line := 0
  captured := []
  headers := notedNest.headers
  reductions := []
  body := ["    g(i)", "# note", "    h(i)"]

/-- The first statement of the first kernel, which takes the lock, is level with the line above it;
a comment moves that of the second kernel to the right. -/
theorem guardedLoop_level_notedLoop_not_level :
    (∃ tree target line, (parse {} guardedLoop.source).outcome = .ok tree ∧
      run (poolSize defaultGangs) tree (.ofContext guardedLoop Source.defaultTabWidth
        Target.defaultEntry) tree.breadthFirst = .ok target ∧
      .moved guardedNest guardedKernel 4 ∈ changesOf {} guardedLoop tree ∧
      IsFirstStatement target.source (origins tree guardedNest) 1 (.lock ⟨3, 4⟩) ∧
      guardedKernel.printed[1]? = some line ∧
      Text.indentWidth 8 line = Text.indentWidth 8 guardedKernel.unpacking) ∧
    ∃ tree target line, (parse {} notedLoop.source).outcome = .ok tree ∧
      run (poolSize defaultGangs) tree (.ofContext notedLoop Source.defaultTabWidth
        Target.defaultEntry) tree.breadthFirst = .ok target ∧
      .moved notedNest notedKernel 4 ∈ changesOf {} notedLoop tree ∧
      IsFirstStatement target.source (origins tree notedNest) 0 (.own 2 false) ∧
      notedKernel.printed[0]? = some line ∧
      Text.indentWidth 8 line ≠ Text.indentWidth 8 notedKernel.unpacking := by
  constructor
  · obtain ⟨tree, target, htree, htarget, hsource, hmoved, hparts⟩ := exists_run_of_check
      guardedLoop guardedNest guardedKernel 4
      [.line 2, .changed (.locked ⟨3, 4⟩), .line 4, .line 5, .line 6] (by decide +kernel)
    have horigins : origins tree guardedNest = [.own 2 false, .lock ⟨3, 4⟩, .own 3 true,
        .own 4 false, .own 5 false, .own 6 false] := by
      rw [origins, hparts]
      rfl
    have hfirst : IsFirstStatement target.source (origins tree guardedNest) 1 (.lock ⟨3, 4⟩) := by
      rw [horigins, hsource]
      refine ⟨rfl, rfl, fun i hi o ho => ?_⟩
      obtain rfl : i = 0 := by omega
      obtain rfl := Option.some.inj ho
      decide +kernel
    obtain ⟨-, -, hwritten, hlevel⟩ :=
      first_statement_level_iff_leftmost htree htarget hmoved (by decide : 0 < 8)
    obtain ⟨line, hline, -⟩ := hwritten 1 _ hfirst.at_row hfirst.starts
    refine ⟨tree, target, line, htree, htarget, hmoved, hfirst, hline,
      (hlevel 1 _ line hfirst hline).2 ?_⟩
    rw [horigins, hsource]
    exact ⟨by decide +kernel, by decide +kernel⟩
  · obtain ⟨tree, target, htree, htarget, hsource, hmoved, hparts⟩ := exists_run_of_check
      notedLoop notedNest notedKernel 4 [.line 2, .line 3, .line 4] (by decide +kernel)
    have horigins : origins tree notedNest = [.own 2 false, .own 3 false, .own 4 false] := by
      rw [origins, hparts]
      rfl
    have hfirst : IsFirstStatement target.source (origins tree notedNest) 0 (.own 2 false) := by
      rw [horigins, hsource]
      exact ⟨rfl, by decide +kernel, fun i hi => by omega⟩
    obtain ⟨-, -, hwritten, hlevel⟩ :=
      first_statement_level_iff_leftmost htree htarget hmoved (by decide : 0 < 8)
    obtain ⟨line, hline, -⟩ := hwritten 0 _ hfirst.at_row hfirst.starts
    refine ⟨tree, target, line, htree, htarget, hmoved, hfirst, hline, ?_⟩
    rw [Ne, hlevel 0 _ line hfirst hline, horigins, hsource]
    intro hleftmost
    exact absurd (hleftmost.least (.own 3 false) (by simp) (by decide +kernel)) (by decide +kernel)

end Host
end Offload
