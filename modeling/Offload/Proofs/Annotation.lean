import Offload.Proofs.Bracket
import Offload.Proofs.Growth
import Offload.Proofs.Jump

/-!
Annotations. The scanner reports exactly the lines that read as annotations and do not start inside
a string, each with the text behind the keyword. They are comments, and what stands behind the number
sign of such a line has no effect on how any line is read.
-/
namespace Offload

open Text

namespace Text

theorem trim_between {gap tail : Text} (hgap : blank gap = true) (htail : blank tail = true)
    (t : Text) : trim (gap ++ t ++ tail) = trim t := by
  rw [trim_append_of_blank htail, trim_of_blank_append hgap]

theorem trimStart_of_head {c : Char} (hc : isBlank c = false) (cs : Text) :
    trimStart (c :: cs) = c :: cs := List.dropWhile_cons_of_neg (by simp [hc])

end Text

namespace PragmaLine

/-! The form of an annotation. -/

variable {framework line t body : Text}

/-- The keyword, and then the end of the line or blanks around the body. -/
def ReadsKeyword (framework t body : Text) : Prop :=
  ∃ gap tail, t = framework ++ gap ++ body ++ tail ∧ blank gap = true ∧ blank tail = true ∧
    trim body = body ∧ (gap = [] → body ++ tail = [])

/-- The word `pragma`, at least one blank, and the keyword. -/
def ReadsPragma (framework t body : Text) : Prop :=
  ∃ gap rest, t = "pragma" ++ gap ++ rest ∧ blank gap = true ∧ gap ≠ [] ∧
    ReadsKeyword framework rest body

/-- A line that is a comment and reads as an annotation, in which `pragma` is taken as such wherever
that gives an annotation. -/
def Annotates (framework line body : Text) : Prop :=
  ∃ margin gap rest, line = margin ++ '#' :: (gap ++ rest) ∧ blank margin = true ∧
    blank gap = true ∧ (ReadsPragma framework rest body ∨
      ReadsKeyword framework rest body ∧ ∀ other, ¬ ReadsPragma framework rest other)

theorem afterKeyword?_eq_some_iff :
    afterKeyword? framework t = some body ↔ ReadsKeyword framework t body := by
  constructor
  · intro h
    unfold afterKeyword? at h
    split at h
    · next hafter =>
      obtain rfl := Option.some.inj h
      exact ⟨[], [], by simpa using after?_eq_some_iff.1 hafter, rfl, rfl, rfl, fun _ => rfl⟩
    · next c rest hafter =>
      split at h
      · next hc =>
        obtain rfl := Option.some.inj h
        obtain ⟨tail, htail, htrim⟩ := exists_trim_append_blank (c :: rest)
        refine ⟨margin (c :: rest), tail, ?_, blank_margin _, htail, trim_trim _, fun hgap => ?_⟩
        · rw [after?_eq_some_iff.1 hafter, List.append_assoc, List.append_assoc, ← htrim,
            margin_append_trimStart]
        · simp [margin, hc] at hgap
      · simp at h
    · simp at h
  · rintro ⟨gap, tail, rfl, hgap, htail, hbody, hend⟩
    have hafter : after? framework (framework ++ gap ++ body ++ tail) =
        some (gap ++ body ++ tail) := after?_eq_some_iff.2 (by simp)
    unfold afterKeyword?
    rw [hafter]
    cases gap with
    | nil =>
      have hnil := hend rfl
      obtain ⟨rfl, rfl⟩ := List.append_eq_nil_iff.1 hnil
      rfl
    | cons c cs =>
      have hc : isBlank c = true := List.all_eq_true.1 hgap c List.mem_cons_self
      have htrim := trim_between hgap htail body
      rw [hbody] at htrim
      simp only [List.cons_append] at htrim ⊢
      rw [if_pos hc, htrim]

theorem exists_framework (hf : isFramework framework = true) :
    ∃ c cs, framework = c :: cs ∧ isBlank c = false := by
  cases framework with
  | nil => simp [isFramework] at hf
  | cons c cs =>
    simp only [isFramework, List.isEmpty_cons, Bool.not_false, List.any_cons, Bool.not_or,
      Bool.true_and, Bool.and_eq_true, Bool.not_eq_true'] at hf
    exact ⟨c, cs, rfl, hf.1⟩

theorem ReadsKeyword.trimStart (hf : isFramework framework = true)
    (h : ReadsKeyword framework t body) : trimStart t = t := by
  obtain ⟨gap, tail, rfl, -⟩ := h
  obtain ⟨c, cs, rfl, hc⟩ := exists_framework hf
  exact trimStart_of_head hc _

theorem ReadsPragma.trimStart (h : ReadsPragma framework t body) : trimStart t = t := by
  obtain ⟨gap, rest, rfl, -⟩ := h
  exact trimStart_of_head (by decide) _

theorem afterPragma?_eq_some_iff (hf : isFramework framework = true) :
    afterPragma? framework t = some body ↔ ReadsPragma framework t body := by
  constructor
  · intro h
    unfold afterPragma? at h
    split at h
    · next c rest hafter =>
      split at h
      · next hc =>
        refine ⟨c :: margin rest, trimStart rest, ?_, ?_, by simp, afterKeyword?_eq_some_iff.1 h⟩
        · rw [after?_eq_some_iff.1 hafter, List.append_assoc, List.cons_append,
            margin_append_trimStart]
        · have hmargin := blank_margin rest
          unfold blank at hmargin ⊢
          rw [List.all_cons, hc, hmargin]
          rfl
      · simp at h
    · simp at h
  · rintro ⟨gap, rest, rfl, hgap, hne, hkeyword⟩
    obtain ⟨c, cs, rfl⟩ := List.exists_cons_of_ne_nil hne
    have hafter : after? "pragma" ("pragma" ++ (c :: cs) ++ rest) = some (c :: (cs ++ rest)) :=
      after?_eq_some_iff.2 (by simp)
    obtain ⟨hc, hcs⟩ := Bool.and_eq_true_iff.1 (List.all_cons.symm.trans hgap)
    have hrest : trimStart (cs ++ rest) = rest := by
      rw [trimStart_append hcs, hkeyword.trimStart hf]
    unfold afterPragma?
    rw [hafter]
    dsimp only
    rw [if_pos hc, hrest]
    exact afterKeyword?_eq_some_iff.2 hkeyword

/-- What the scanner takes for an annotation is one, and it takes every one. -/
theorem body?_eq_some_iff (hf : isFramework framework = true) :
    body? framework line = some body ↔ Annotates framework line body := by
  constructor
  · intro h
    unfold body? at h
    split at h
    · next rest hline =>
      have hmargin := margin_append_trimStart line
      have hgap := margin_append_trimStart rest
      refine ⟨margin line, margin rest, trimStart rest, ?_, blank_margin _, blank_margin _, ?_⟩
      · rw [hgap, ← hline, hmargin]
      · dsimp only at h
        cases hpragma : afterPragma? framework (trimStart rest) with
        | some found =>
          rw [hpragma] at h
          obtain rfl := Option.some.inj h
          exact .inl ((afterPragma?_eq_some_iff hf).1 hpragma)
        | none =>
          rw [hpragma] at h
          refine .inr ⟨afterKeyword?_eq_some_iff.1 h, fun other hother => ?_⟩
          rw [(afterPragma?_eq_some_iff hf).2 hother] at hpragma
          simp at hpragma
    · simp at h
  · rintro ⟨front, gap, rest, rfl, hfront, hgap, hreads⟩
    have hline : trimStart (front ++ '#' :: (gap ++ rest)) = '#' :: (gap ++ rest) := by
      rw [trimStart_append hfront]
      exact trimStart_of_head (by decide) _
    have hrest : trimStart (gap ++ rest) = rest := by
      rw [trimStart_append hgap]
      rcases hreads with hpragma | ⟨hkeyword, -⟩
      · exact hpragma.trimStart
      · exact hkeyword.trimStart hf
    unfold body?
    rw [hline]
    change (afterPragma? framework (trimStart (gap ++ rest)) <|>
      afterKeyword? framework (trimStart (gap ++ rest))) = _
    rw [hrest]
    rcases hreads with hpragma | ⟨hkeyword, hnot⟩
    · rw [(afterPragma?_eq_some_iff hf).2 hpragma]
      rfl
    · have hnone : afterPragma? framework rest = none := by
        rw [Option.eq_none_iff_forall_not_mem]
        exact fun other hother => hnot other ((afterPragma?_eq_some_iff hf).1 hother)
      rw [hnone, afterKeyword?_eq_some_iff.2 hkeyword]
      rfl

end PragmaLine

/-! Cutting a comment. -/

theorem Text.indentWidth_append_comment (tabWidth : Nat) (front rest : Text) :
    indentWidth tabWidth (front ++ '#' :: rest) = indentWidth tabWidth (front ++ ['#']) := by
  have hgo : ∀ width, indentWidth.go tabWidth width (front ++ '#' :: rest) =
      indentWidth.go tabWidth width (front ++ ['#']) := by
    induction front with
    | nil => exact fun _ => rfl
    | cons c cs ih =>
      intro width
      by_cases hspace : c = ' '
      · subst hspace
        exact ih _
      · by_cases htab : c = '\t'
        · subst htab
          exact ih _
        · simp [indentWidth.go, hspace, htab]
  exact hgo 0

/-- Lines without line ends are the lines of some text. -/
theorem Text.exists_lines {ls : List Text} (h : ∀ l ∈ ls, '\n' ∉ l) : ∃ t, lines t = ls := by
  induction ls with
  | nil => exact ⟨[], rfl⟩
  | cons l ls ih =>
    obtain ⟨hl, hls⟩ := List.forall_mem_cons.1 h
    obtain ⟨t, ht⟩ := ih hls
    -- A carriage return before the line end keeps one that ends the line.
    refine ⟨(l ++ ['\r']) ++ '\n' :: t, ?_⟩
    have hchomp : chomp (l ++ ['\r']) = l := by simp [chomp]
    rw [lines_append_newline (by simp [hl]), hchomp, ht]

namespace Line

variable {tabWidth : Nat} {carry : Carry} {front : Text}

theorem kindOf_comment (hq : carry.quote = none) (hfront : blank front = true) (rest : Text) :
    kindOf carry (front ++ '#' :: rest) = .comment := by
  have hstart : trimStart (front ++ '#' :: rest) = '#' :: rest := by
    rw [trimStart_append hfront]
    exact trimStart_of_head (by decide) _
  unfold kindOf
  rw [hq, hstart]
  rfl

/-- Behind a comment it makes no difference what the comment says. -/
theorem next_comment (hq : carry.quote = none) (hfront : blank front = true) (rest : Text) :
    carry.next (front ++ '#' :: rest) = carry.next (front ++ ['#']) := by
  rw [Carry.next_of_trivia hq (by simp [kindOf_comment hq hfront]),
    Carry.next_of_trivia hq (by simp [kindOf_comment hq hfront])]

theorem ofText_comment (hq : carry.quote = none) (hfront : blank front = true) (rest : Text) :
    ofText tabWidth carry (front ++ ['#']) =
      { ofText tabWidth carry (front ++ '#' :: rest) with text := front ++ ['#'] } := by
  simp [ofText, kindOf_comment hq hfront, next_comment hq hfront rest,
    indentWidth_append_comment tabWidth front rest]

end Line

/-- Cutting a comment behind its number sign changes the text of that line and nothing else. -/
theorem Source.lines_ofText_cut {tabWidth : Nat} {t t' front rest : Text} {i : Nat} {line : Line}
    (hline : (ofText tabWidth t).lines[i]? = some line) (hstring : line.inString = false)
    (htext : line.text = front ++ '#' :: rest) (hfront : blank front = true)
    (h : t'.lines = t.lines.set i (front ++ ['#'])) :
    (ofText tabWidth t').lines =
      (ofText tabWidth t).lines.set i { line with text := front ++ ['#'] } := by
  unfold ofText at hline ⊢
  dsimp only at hline ⊢
  rw [Line.getElem?_scan] at hline
  obtain ⟨text, hget, rfl⟩ := Option.map_eq_some_iff.1 hline
  obtain rfl : text = front ++ '#' :: rest := htext
  have hquote : ((t.lines.take i).foldl Carry.next {}).quote = none := by
    simpa [Line.ofText] using hstring
  obtain ⟨hi, hget⟩ := List.getElem?_eq_some_iff.1 hget
  have hsplit : t.lines = t.lines.take i ++ (front ++ '#' :: rest) :: t.lines.drop (i + 1) := by
    rw [← hget, List.getElem_cons_drop, List.take_append_drop]
  have hlength : (t.lines.take i).length = i := by
    rw [List.length_take]
    omega
  generalize t.lines.take i = before at hsplit hlength hquote
  generalize t.lines.drop (i + 1) = behind at hsplit
  subst hlength
  rw [h, hsplit, List.set_append_right _ _ (Nat.le_refl _), Nat.sub_self, List.set_cons_zero,
    Line.scan_append, Line.scan_append, Line.scan, Line.scan, Line.next_comment hquote hfront rest,
    List.set_append_right _ _ (by rw [Line.length_scan]), Line.length_scan, Nat.sub_self,
    List.set_cons_zero, Line.ofText_comment hquote hfront rest]

namespace PragmaLine

variable {framework t : Text} {tabWidth : Nat} {a : PragmaLine}

theorem mem_scan_iff_annotates (hf : isFramework framework = true) {s : Source} :
    a ∈ scan framework s ↔ ∃ line, s.lines[a.line]? = some line ∧ line.inString = false ∧
      line.text = a.text ∧ Annotates framework a.text a.body := by
  rw [mem_scan]
  refine exists_congr fun line => and_congr_right fun _ => and_congr_right fun _ => ?_
  refine and_congr_right fun htext => ?_
  rw [htext, body?_eq_some_iff hf]

theorem kind_of_mem_scan (hf : isFramework framework = true)
    (h : a ∈ scan framework (.ofText tabWidth t)) {line : Line}
    (hline : (Source.ofText tabWidth t).lines[a.line]? = some line) : line.kind = .comment := by
  obtain ⟨found, hfound, hstring, htext, front, gap, rest, hcomment, hfront, -⟩ :=
    (mem_scan_iff_annotates hf).1 h
  rw [hline] at hfound
  obtain rfl := Option.some.inj hfound
  rw [Source.ofText, Line.getElem?_scan] at hline
  obtain ⟨text, -, rfl⟩ := Option.map_eq_some_iff.1 hline
  have hquote : ((t.lines.take a.line).foldl Carry.next {}).quote = none := by
    simpa [Line.ofText] using hstring
  obtain rfl : text = front ++ '#' :: (gap ++ rest) := htext.trans hcomment
  exact Line.kindOf_comment hquote hfront _

/-- There is a text in which a line of another text is cut behind its number sign. -/
theorem exists_cut {front rest : Text} {i : Nat}
    (htext : (Source.ofText tabWidth t).text? i = some (front ++ '#' :: rest)) :
    ∃ t' : Text, t'.lines = t.lines.set i (front ++ ['#']) := by
  have hget : t.lines[i]? = some (front ++ '#' :: rest) := by
    rw [Source.text?, Source.ofText, Line.getElem?_scan, Option.map_map] at htext
    obtain ⟨text, hget, heq⟩ := Option.map_eq_some_iff.1 htext
    rw [hget]
    exact congrArg some heq
  have hline := newline_not_mem_of_mem_lines (List.mem_of_getElem? hget)
  refine exists_lines fun l hl => ?_
  rcases List.mem_or_eq_of_mem_set hl with hmem | rfl
  · exact newline_not_mem_of_mem_lines hmem
  · simp only [List.mem_append, List.mem_cons, not_or] at hline ⊢
    exact ⟨hline.1, by decide, by simp⟩

/-- The scanner reports, in the order of the lines, exactly those that read as annotations and do not
start inside a string. Each is a comment. Where it is cut behind its number sign, every other line is
what it was. -/
theorem scan_reports_annotations (hf : isFramework framework = true) (tabWidth : Nat) (t : Text) :
    ((scan framework (.ofText tabWidth t)).Pairwise fun a b => a.line < b.line) ∧
      (∀ a, a ∈ scan framework (.ofText tabWidth t) ↔
        ∃ line, (Source.ofText tabWidth t).lines[a.line]? = some line ∧ line.inString = false ∧
          line.text = a.text ∧ Annotates framework a.text a.body) ∧
      ∀ a ∈ scan framework (.ofText tabWidth t), ∃ line front rest,
        (Source.ofText tabWidth t).lines[a.line]? = some line ∧ line.kind = .comment ∧
        line.text = front ++ '#' :: rest ∧ blank front = true ∧
        (∃ t' : Text, t'.lines = t.lines.set a.line (front ++ ['#'])) ∧
        ∀ t' : Text, t'.lines = t.lines.set a.line (front ++ ['#']) →
          (Source.ofText tabWidth t').lines =
            (Source.ofText tabWidth t).lines.set a.line { line with text := front ++ ['#'] } := by
  refine ⟨pairwise_scan framework _, fun a => mem_scan_iff_annotates hf, fun a ha => ?_⟩
  obtain ⟨line, hline, hstring, htext, front, gap, rest, hcomment, hfront, -⟩ :=
    (mem_scan_iff_annotates hf).1 ha
  have hshape : line.text = front ++ '#' :: (gap ++ rest) := htext.trans hcomment
  have hcut : (Source.ofText tabWidth t).text? a.line = some (front ++ '#' :: (gap ++ rest)) := by
    rw [Source.text?, hline, Option.map_some, hshape]
  refine ⟨line, front, gap ++ rest, hline, kind_of_mem_scan hf ha hline, hshape, hfront,
    exists_cut hcut, fun t' ht' => ?_⟩
  exact Source.lines_ofText_cut hline hstring hshape hfront ht'

/-- A text with an annotation inside a string, and two for the keyword `pragma`. -/
def pragmaText : Text :=
  unlines ["x = '''", "# pragma pragma", "'''", "  # pragma pragma loop ", "#pragma data", "#pragmas"]

theorem pragmaText_scanned :
    isFramework "pragma" = true ∧
      scan "pragma" (.ofText 8 pragmaText) =
        [⟨3, "  # pragma pragma loop ", "loop"⟩, ⟨4, "#pragma data", "data"⟩] ∧
      Annotates "pragma" "  # pragma pragma loop " "loop" ∧
      Annotates "pragma" "#pragma data" "data" := by
  have hf : isFramework "pragma" = true := by decide
  have hscan : scan "pragma" (.ofText 8 pragmaText) =
      [⟨3, "  # pragma pragma loop ", "loop"⟩, ⟨4, "#pragma data", "data"⟩] := by
    decide +kernel
  obtain ⟨-, hexact, -⟩ := scan_reports_annotations hf 8 pragmaText
  obtain ⟨_, -, -, -, hloop⟩ := (hexact ⟨3, "  # pragma pragma loop ", "loop"⟩).1 (by rw [hscan]; simp)
  obtain ⟨_, -, -, -, hdata⟩ := (hexact ⟨4, "#pragma data", "data"⟩).1 (by rw [hscan]; simp)
  exact ⟨hf, hscan, hloop, hdata⟩

end PragmaLine
end Offload
