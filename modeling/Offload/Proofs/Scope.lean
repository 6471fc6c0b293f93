import Offload.Proofs.Blame
import Offload.Proofs.Block

/-!
The statement that an annotation governs. The search behind an annotation takes the first line that
is neither blank nor a comment. Unless the annotation stands inside a statement, the trivia behind it
leave nothing open, so that line is the first one that starts a statement.
-/
namespace Offload

namespace Source

/-- Line `first` is the first one behind `line` that starts a statement. -/
structure StartsNext (s : Source) (line first : Nat) : Prop where
  behind : line < first
  starts : s.has Line.startsStatement first = true
  earliest : ∀ m, line < m → m < first → s.has Line.startsStatement m = false

variable {s : Source} {line first first' l : Nat}

theorem StartsNext.unique (h : s.StartsNext line first) (h' : s.StartsNext line first') :
    first = first' := by
  rcases Nat.lt_trichotomy first first' with hlt | heq | hlt
  · have hnone := h'.earliest first h.behind hlt
    simp [h.starts] at hnone
  · exact heq
  · have hnone := h.earliest first' h'.behind hlt
    simp [h'.starts] at hnone

/-- Trivia hand on no open statement. -/
theorem Linked.continuation_behind_trivia (h : s.Linked)
    (hfresh : s.has Line.continuation line = false) (hle : line ≤ l)
    (htrivia : ∀ m, line ≤ m → m < l → s.has Line.isTrivia m = true) :
    s.has Line.continuation l = false := by
  induction l, hle using Nat.le_induction with
  | base => exact hfresh
  | succ l hle ih =>
    have hbefore := ih fun m hm hlt => htrivia m hm (by omega)
    have hclosed := h.trivia l (htrivia l hle (by omega)) hbefore
    rcases Nat.lt_or_ge (l + 1) s.size with hlt | hge
    · rw [h.next l hlt, hclosed]
    · exact has_of_size_le hge

/-- Behind trivia that do not go on with a statement, the first line of code starts one. -/
theorem Scanned.startsNext_of_findFrom? (h : s.Scanned) (hown : s.has Line.isTrivia line = true)
    (hfresh : s.has Line.continuation line = false)
    (hfind : s.findFrom? (fun l => !l.isTrivia) (line + 1) = some first) :
    s.StartsNext line first ∧ ∀ m, line < m → m < first → s.has Line.isTrivia m = true := by
  obtain ⟨hbehind, hcode, hmin⟩ := findFrom?_eq_some_iff.1 hfind
  have hsize := lt_size_of_has hcode
  have hbetween : ∀ m, line < m → m < first → s.has Line.isTrivia m = true := by
    intro m hm hlt
    have hnone := hmin m hm hlt
    rw [has_not, decide_eq_true (by omega : m < s.size), Bool.true_and, Bool.not_eq_false'] at hnone
    exact hnone
  have htrivia : ∀ m, line ≤ m → m < first → s.has Line.isTrivia m = true := by
    intro m hm hlt
    rcases Nat.eq_or_lt_of_le hm with rfl | hm
    · exact hown
    · exact hbetween m hm hlt
  have hopen := h.continuation_behind_trivia hfresh (Nat.le_of_lt hbehind) htrivia
  rw [has_not, Bool.and_eq_true, Bool.not_eq_true'] at hcode
  refine ⟨⟨hbehind, h.startsStatement hcode.2 hsize hopen, fun m hm hlt => ?_⟩, hbetween⟩
  cases hstart : s.has Line.startsStatement m with
  | false => rfl
  | true =>
    have hnot := isTrivia_of_startsStatement hstart
    simp [hbetween m hm hlt] at hnot

/-- The search for the first line of code finds the next statement, if there is one. -/
theorem Scanned.findFrom?_eq_some_iff_startsNext (h : s.Scanned)
    (hown : s.has Line.isTrivia line = true) (hfresh : s.has Line.continuation line = false) :
    s.findFrom? (fun l => !l.isTrivia) (line + 1) = some first ↔ s.StartsNext line first := by
  constructor
  · intro hfind
    exact (h.startsNext_of_findFrom? hown hfresh hfind).1
  · intro hnext
    have hcode := has_of_has (fun _ => Line.not_isTrivia_of_startsStatement) hnext.starts
    cases hfind : s.findFrom? (fun l => !l.isTrivia) (line + 1) with
    | none =>
      have hnone := findFrom?_eq_none_iff.1 hfind first hnext.behind
      simp [hcode] at hnone
    | some found =>
      have hfound := (h.startsNext_of_findFrom? hown hfresh hfind).1
      rw [hfound.unique hnext]

end Source

namespace Region

open Source

variable {s : Source} {line first : Nat}

/-- The statement behind an annotation; a fault is reported at the annotation. -/
def scopeAt (s : Source) (line : Nat) : Except Error Span :=
  (scope s line).mapError (.malformed line)

/-- Line `first` starts the next statement behind `line`, and not further to the left. -/
structure Governs (s : Source) (line first : Nat) : Prop extends StartsNext s line first where
  indented : s.indentAt line ≤ s.indentAt first

/-- What is found behind line `line` is the next statement. -/
structure FollowsStatement (s : Source) (line : Nat) : Prop where
  found : ∀ span, scopeAt s line = .ok span ↔
    ∃ first, Governs s line first ∧ span = ⟨line + 1, s.statementStop first⟩
  missing : (∃ fault, scopeAt s line = .error (.malformed line fault) ∧
    fault.category = .missingStatement) ↔ ¬ ∃ first, Governs s line first
  within : ∀ first, Governs s line first → s.statementStop first ≤ s.size ∧
    (⟨line + 1, s.statementStop first⟩ : Span).contains first = true
  next : ∀ first, Governs s line first → s.nextStatement? (line + 1) = some first
  trivia : ∀ first, Governs s line first → ∀ l, line < l → l < first →
    s.has Line.isTrivia l = true

theorem scopeAt_of_governs (hnext : Governs s line first)
    (hfind : s.findFrom? (fun l => !l.isTrivia) (line + 1) = some first) :
    scopeAt s line = .ok ⟨line + 1, s.statementStop first⟩ := by
  have hindent := hnext.indented
  unfold scopeAt scope
  rw [hfind]
  dsimp only
  rw [if_neg (by omega), Outcome.mapError_ok]

/-- A statement further to the left stands in another block, and without a statement there is none to
govern. -/
theorem scopeAt_of_not_governs
    (hfind : ∀ first, s.findFrom? (fun l => !l.isTrivia) (line + 1) = some first →
      s.StartsNext line first)
    (h : ¬ ∃ first, Governs s line first) :
    ∃ fault, scopeAt s line = .error (.malformed line fault) ∧
      fault.category = .missingStatement := by
  unfold scopeAt scope
  cases hfound : s.findFrom? (fun l => !l.isTrivia) (line + 1) with
  | none => exact ⟨.noStatement, rfl, rfl⟩
  | some first =>
    have hshallow : s.indentAt first < s.indentAt line := by
      by_contra hge
      exact h ⟨first, hfind first hfound, by omega⟩
    dsimp only
    rw [if_pos hshallow]
    exact ⟨.noStatementInBlock, rfl, rfl⟩

/-- Behind trivia that do not go on with a statement, the search takes the next statement. -/
theorem followsStatement_of_trivia (h : s.Scanned) (hown : s.has Line.isTrivia line = true)
    (hfresh : s.has Line.continuation line = false) : FollowsStatement s line := by
  have hiff : ∀ first, s.findFrom? (fun l => !l.isTrivia) (line + 1) = some first ↔
      s.StartsNext line first := fun _ => h.findFrom?_eq_some_iff_startsNext hown hfresh
  have hgoverned : ∀ first, Governs s line first →
      scopeAt s line = .ok ⟨line + 1, s.statementStop first⟩ := by
    intro first hfirst
    exact scopeAt_of_governs hfirst ((hiff first).2 hfirst.toStartsNext)
  have hmissing := scopeAt_of_not_governs fun first => (hiff first).1
  constructor
  · intro span
    constructor
    · intro hspan
      by_cases hnone : ∃ first, Governs s line first
      · obtain ⟨first, hfirst⟩ := hnone
        refine ⟨first, hfirst, ?_⟩
        exact (Except.ok.inj ((hgoverned first hfirst).symm.trans hspan)).symm
      · obtain ⟨fault, hfault, -⟩ := hmissing hnone
        simp [hfault] at hspan
    · rintro ⟨first, hfirst, rfl⟩
      exact hgoverned first hfirst
  · refine ⟨?_, hmissing⟩
    rintro ⟨fault, hfault, -⟩ ⟨first, hfirst⟩
    simp [hgoverned first hfirst] at hfault
  · intro first hfirst
    have hextent := h.isExtent_of_startsStatement hfirst.starts
    have hbehind := hfirst.behind
    have hlt := hextent.lt
    refine ⟨hextent.le_size, ?_⟩
    rw [Span.contains, Bool.and_eq_true, decide_eq_true_eq, decide_eq_true_eq]
    exact ⟨hbehind, hlt⟩
  · intro first hfirst
    exact nextStatement?_eq_some_iff.2 ⟨hfirst.behind, hfirst.starts, hfirst.earliest⟩
  · intro first hfirst
    exact (h.startsNext_of_findFrom? hown hfresh ((hiff first).2 hfirst.toStartsNext)).2

end Region

namespace PragmaLine

variable {framework t : Text} {tabWidth : Nat} {a : PragmaLine}

theorem isTrivia_of_mem_scan (ha : a ∈ scan framework (.ofText tabWidth t)) :
    (Source.ofText tabWidth t).has Line.isTrivia a.line = true := by
  obtain ⟨line, hline, hstring, -, hbody⟩ := mem_scan.1 ha
  rw [Source.has, hline, Option.any_some]
  rw [Source.ofText, Line.getElem?_scan] at hline
  obtain ⟨text, -, rfl⟩ := Option.map_eq_some_iff.1 hline
  have hquote : ((t.lines.take a.line).foldl Carry.next {}).quote = none := by
    simpa [Line.ofText] using hstring
  have hkind : Line.kindOf ((t.lines.take a.line).foldl Carry.next {}) text = .comment :=
    kindOf_of_body? hquote hbody
  simp [Line.isTrivia, Line.ofText, hquote, hkind]

/-- An annotation that does not stand inside a statement governs the next statement behind it, unless
there is none or it stands further to the left than the annotation. The region reaches from the line
behind the annotation to the end of that statement, and before the statement it holds only trivia. -/
theorem scope_follows_statement (ha : a ∈ scan framework (.ofText tabWidth t))
    (hfresh : (Source.ofText tabWidth t).has Line.continuation a.line = false) :
    Region.FollowsStatement (.ofText tabWidth t) a.line :=
  Region.followsStatement_of_trivia (Source.scanned_ofText tabWidth t) (isTrivia_of_mem_scan ha)
    hfresh

/-- An annotation before trivia and a loop of two parts, one before a statement of an outer block, and
one at the end. -/
def governedText : Text := Text.unlines [
  "if a:", "    # acc loop", "", "  # note", "    for i in f(", "0):", "        b", "    else:",
  "        c", "    # acc data", "d", "# acc atomic", "# end"]

theorem governedText_follows_statement :
    (∃ a ∈ scan "acc" (.ofText 8 governedText), a.line = 1 ∧
      (Source.ofText 8 governedText).has Line.continuation 1 = false ∧
      Region.scopeAt (.ofText 8 governedText) 1 = .ok ⟨2, 9⟩ ∧
      Region.Governs (.ofText 8 governedText) 1 4) ∧
    (∃ a ∈ scan "acc" (.ofText 8 governedText), a.line = 9 ∧
      ¬ ∃ first, Region.Governs (.ofText 8 governedText) 9 first) ∧
    ∃ a ∈ scan "acc" (.ofText 8 governedText), a.line = 11 ∧
      ¬ ∃ first, Region.Governs (.ofText 8 governedText) 11 first := by
  have hscan : scan "acc" (.ofText 8 governedText) =
      [⟨1, "    # acc loop", "loop"⟩, ⟨9, "    # acc data", "data"⟩,
        ⟨11, "# acc atomic", "atomic"⟩] := by
    decide +kernel
  have hloop : (⟨1, "    # acc loop", "loop"⟩ : PragmaLine) ∈
      scan "acc" (.ofText 8 governedText) := by
    rw [hscan]
    simp
  have hdata : (⟨9, "    # acc data", "data"⟩ : PragmaLine) ∈
      scan "acc" (.ofText 8 governedText) := by
    rw [hscan]
    simp
  have hatomic : (⟨11, "# acc atomic", "atomic"⟩ : PragmaLine) ∈
      scan "acc" (.ofText 8 governedText) := by
    rw [hscan]
    simp
  have hfresh : (Source.ofText 8 governedText).has Line.continuation 1 = false := by decide +kernel
  have hfirst := scope_follows_statement hloop hfresh
  have hsecond := scope_follows_statement hdata (by decide +kernel)
  have hlast := scope_follows_statement hatomic (by decide +kernel)
  have hspan : Region.scopeAt (.ofText 8 governedText) 1 = .ok ⟨2, 9⟩ := by decide +kernel
  obtain ⟨first, hgoverns, hstop⟩ := (hfirst.found _).1 hspan
  have hnext : (Source.ofText 8 governedText).nextStatement? 2 = some 4 := by decide +kernel
  obtain rfl : 4 = first := Option.some.inj (hnext.symm.trans (hfirst.next first hgoverns))
  refine ⟨⟨_, hloop, rfl, hfresh, hspan, hgoverns⟩, ⟨_, hdata, rfl, ?_⟩, _, hatomic, rfl, ?_⟩
  · exact hsecond.missing.1 ⟨.noStatementInBlock, by decide +kernel, rfl⟩
  · exact hlast.missing.1 ⟨.noStatement, by decide +kernel, rfl⟩

end PragmaLine
end Offload
