import Offload.Backend.Host.Control
import Offload.Proofs.Outcome
import Mathlib.Data.List.Induction

/-!
Control flow of a loop body, line by line. The scopes that are kept while the body is read are those
of the lines that surround the next one: lines that open a scope and stand further left than every
statement behind them.
-/
namespace Offload.Host

open Outcome

/-- Neither blank nor a comment. -/
def isStatementLine (line : Text) : Bool :=
  !((Text.trim line).isEmpty || (Text.trim line).head? == some '#')

/-- The bytes of indentation. -/
def byteIndent (line : Text) : Nat := (Text.margin line).byteLength

/-- The scope that a line opens. -/
def scopeOf? (line : Text) : Option InnerScope :=
  if isStatementLine line then InnerScope.opened? (byteIndent line) (Text.trim line) else none

/-- The scopes that a line leaves open. -/
def enter (scopes : List InnerScope) (line : Text) : List InnerScope :=
  if isStatementLine line then
    (scopeOf? line).toList ++ scopes.dropWhile fun scope => byteIndent line ≤ scope.indent
  else scopes

/-- The scopes that lines leave open, from the innermost outwards. -/
def openScopes (lines : List Text) : List InnerScope := lines.foldl enter []

/-- The scopes around a line that stands behind others. -/
def scopesAround (before : List Text) (line : Text) : List InnerScope :=
  (openScopes before).dropWhile fun scope => byteIndent line ≤ scope.indent

/-- What becomes of a line that stands behind others. -/
def lineResult (returned : Text) (before : List Text) (line : Text) :
    Except GenerationFault Text :=
  if isStatementLine line then
    if (scopesAround before line).isEmpty && Text.trim line == "continue" then
      .ok (Text.margin line ++ "return" ++ returned)
    else if (scopesAround before line).isEmpty && Text.trim line == "break" then
      .error .escapingBreak
    else if !(scopesAround before line).any (·.isDefinition) &&
        beginsWithWord "return" (Text.trim line) then .error .escapingReturn
    else .ok line
  else .ok line

section

variable {returned : Text} {before lines out : List Text} {line : Text} {scope : InnerScope}

theorem openScopes_append (before : List Text) (line : Text) :
    openScopes (before ++ [line]) = enter (openScopes before) line := by
  rw [openScopes, List.foldl_append]
  rfl

theorem functionBodyFrom_cons (returned : Text) (before lines : List Text) (line : Text) :
    functionBodyFrom returned (openScopes before) (line :: lines) =
      lineResult returned before line >>= fun first =>
        (functionBodyFrom returned (openScopes (before ++ [line])) lines).map (first :: ·) := by
  rw [functionBodyFrom, openScopes_append, lineResult, enter]
  cases hline : isStatementLine line with
  | false =>
    rw [isStatementLine, Bool.not_eq_false'] at hline
    simp only [hline, if_true, Bool.false_eq_true, if_false, ok_bind]
  | true =>
    have hstatement := hline
    rw [isStatementLine, Bool.not_eq_true'] at hstatement
    simp only [hstatement, Bool.false_eq_true, if_false, if_true, scopeOf?, hline]
    -- A line that reads `continue` opens no scope.
    have hcontinue : Text.trim line = "continue".toList →
        InnerScope.opened? (byteIndent line) (Text.trim line) = none := by
      intro h
      rw [h]
      rfl
    change (if (scopesAround before line).isEmpty && Text.trim line == "continue" then _ else
      if (scopesAround before line).isEmpty && Text.trim line == "break" then _ else
      if !(scopesAround before line).any (·.isDefinition) &&
        beginsWithWord "return" (Text.trim line) then _ else _) = _
    split
    · next h =>
      rw [Bool.and_eq_true, beq_iff_eq] at h
      rw [hcontinue h.2]
      rfl
    · split
      · rfl
      · split <;> rfl

/-- A line stays as it is unless it reads `continue`. -/
theorem eq_or_eq_of_lineResult {line' : Text} (h : lineResult returned before line = .ok line') :
    line' = line ∨ Text.trim line = "continue".toList ∧
      line' = Text.margin line ++ "return" ++ returned := by
  unfold lineResult at h
  split at h
  · split at h
    · next hcontinue =>
      rw [Bool.and_eq_true, beq_iff_eq] at hcontinue
      exact .inr ⟨hcontinue.2, (Except.ok.inj h).symm⟩
    · split at h
      · simp at h
      · split at h
        · simp at h
        · exact .inl (Except.ok.inj h).symm
  · exact .inl (Except.ok.inj h).symm

theorem eq_of_lineResult_eq_error {fault : GenerationFault}
    (h : lineResult returned before line = .error fault) :
    fault = .escapingBreak ∨ fault = .escapingReturn := by
  unfold lineResult at h
  split at h
  · split at h
    · simp at h
    · split at h
      · exact .inl (Except.error.inj h).symm
      · split at h
        · exact .inr (Except.error.inj h).symm
        · simp at h
  · simp at h

/-- A body becomes a function exactly if each of its lines does. -/
theorem functionBodyFrom_eq_ok :
    functionBodyFrom returned (openScopes before) lines = .ok out ↔
      out.length = lines.length ∧ ∀ j line line', lines[j]? = some line → out[j]? = some line' →
        lineResult returned (before ++ lines.take j) line = .ok line' := by
  induction lines generalizing before out with
  | nil => simp [functionBodyFrom, eq_comm]
  | cons line lines ih =>
    rw [functionBodyFrom_cons, bind_eq_ok]
    constructor
    · rintro ⟨first, hfirst, hrest⟩
      obtain ⟨rest, hbody, rfl⟩ := map_eq_ok.1 hrest
      obtain ⟨hlength, hlines⟩ := ih.1 hbody
      refine ⟨by simp [hlength], ?_⟩
      intro j l l' hl hl'
      cases j with
      | zero =>
        obtain rfl : line = l := by simpa using hl
        obtain rfl : first = l' := by simpa using hl'
        simpa using hfirst
      | succ j =>
        have hline := hlines j l l' (by simpa using hl) (by simpa using hl')
        simpa using hline
    · rintro ⟨hlength, hlines⟩
      cases out with
      | nil => simp at hlength
      | cons first rest =>
        refine ⟨first, by simpa using hlines 0 line first rfl rfl, map_eq_ok.2 ⟨rest, ?_, rfl⟩⟩
        refine ih.2 ⟨by simpa using hlength, fun j l l' hl hl' => ?_⟩
        have hline := hlines (j + 1) l l' (by simpa using hl) (by simpa using hl')
        simpa using hline

/-- A body fails with the fault of the first of its lines that has one. -/
theorem functionBodyFrom_eq_error {fault : GenerationFault} :
    functionBodyFrom returned (openScopes before) lines = .error fault ↔
      ∃ j line, lines[j]? = some line ∧
        lineResult returned (before ++ lines.take j) line = .error fault ∧
        ∀ i line fault, i < j → lines[i]? = some line →
          lineResult returned (before ++ lines.take i) line ≠ .error fault := by
  induction lines generalizing before with
  | nil => simp [functionBodyFrom]
  | cons line lines ih =>
    rw [functionBodyFrom_cons, bind_eq_error]
    constructor
    · intro h
      rcases h with h | ⟨first, hfirst, h⟩
      · exact ⟨0, line, rfl, by simpa using h, fun i l f hi => absurd hi (Nat.not_lt_zero i)⟩
      · obtain ⟨j, l, hl, hfault, hbefore⟩ := ih.1 (map_eq_error.1 h)
        refine ⟨j + 1, l, by simpa using hl, by simpa using hfault, ?_⟩
        intro i l f hij hl
        cases i with
        | zero =>
          obtain rfl : line = l := by simpa using hl
          simp [hfirst]
        | succ i =>
          have hline := hbefore i l f (by omega) (by simpa using hl)
          simpa using hline
    · intro h
      obtain ⟨j, l, hl, hfault, hbefore⟩ := h
      cases j with
      | zero =>
        obtain rfl : line = l := by simpa using hl
        exact .inl (by simpa using hfault)
      | succ j =>
        right
        have hclean : ∀ f, lineResult returned before line ≠ .error f := fun f => by
          simpa using hbefore 0 line f (Nat.succ_pos j) rfl
        cases hfirst : lineResult returned before line with
        | error f => exact absurd hfirst (hclean f)
        | ok first =>
          refine ⟨first, rfl, map_eq_error.2 (ih.2
            ⟨j, l, by simpa using hl, by simpa using hfault, ?_⟩)⟩
          intro i l f hij hl
          have hline := hbefore (i + 1) l f (by omega) (by simpa using hl)
          simpa using hline

theorem functionBody_eq_ok : functionBody returned lines = .ok out ↔
    out.length = lines.length ∧ ∀ j line line', lines[j]? = some line → out[j]? = some line' →
      lineResult returned (lines.take j) line = .ok line' :=
  @functionBodyFrom_eq_ok returned [] lines out

theorem functionBody_eq_error_iff {fault : GenerationFault} :
    functionBody returned lines = .error fault ↔
      ∃ j line, lines[j]? = some line ∧
        lineResult returned (lines.take j) line = .error fault ∧
        ∀ i line fault, i < j → lines[i]? = some line →
          lineResult returned (lines.take i) line ≠ .error fault :=
  @functionBodyFrom_eq_error returned [] lines fault

theorem functionBody_eq_error {fault : GenerationFault}
    (h : functionBody returned lines = .error fault) :
    ∃ j line, lines[j]? = some line ∧ lineResult returned (lines.take j) line = .error fault := by
  obtain ⟨j, line, hline, hfault, -⟩ := functionBody_eq_error_iff.1 h
  exact ⟨j, line, hline, hfault⟩

/-! The scopes around a line. -/

theorem scopeOf?_indent (h : scopeOf? line = some scope) : scope.indent = byteIndent line := by
  simp only [scopeOf?, InnerScope.opened?] at h
  split at h
  · split at h
    · exact Option.some.inj h ▸ rfl
    · split at h
      · exact Option.some.inj h ▸ rfl
      · simp at h
  · simp at h

/-- Dropping scopes to the right of a line leaves those to the left of it. -/
theorem mem_dropWhile_indent {scopes : List InnerScope} {n : Nat}
    (h : scopes.Pairwise fun inner outer => outer.indent < inner.indent) :
    scope ∈ scopes.dropWhile (fun s => n ≤ s.indent) ↔ scope ∈ scopes ∧ scope.indent < n := by
  induction scopes with
  | nil => simp
  | cons first rest ih =>
    obtain ⟨hfirst, hrest⟩ := List.pairwise_cons.1 h
    by_cases hn : n ≤ first.indent
    · rw [List.dropWhile_cons_of_pos (by simpa using hn), ih hrest, List.mem_cons]
      constructor
      · rintro ⟨hmem, hlt⟩
        exact ⟨.inr hmem, hlt⟩
      · rintro ⟨rfl | hmem, hlt⟩
        · omega
        · exact ⟨hmem, hlt⟩
    · rw [List.dropWhile_cons_of_neg (by simpa using hn)]
      refine ⟨fun hmem => ⟨hmem, ?_⟩, And.left⟩
      rcases List.mem_cons.1 hmem with rfl | hmem
      · omega
      · have := hfirst scope hmem
        omega

/-- Further in means further to the right. -/
theorem pairwise_openScopes (lines : List Text) :
    (openScopes lines).Pairwise fun inner outer => outer.indent < inner.indent := by
  induction lines using List.reverseRecOn with
  | nil => exact .nil
  | append_singleton lines line ih =>
    rw [openScopes_append, enter]
    split
    · have hleft := ih.sublist
        (List.dropWhile_sublist fun scope => decide (byteIndent line ≤ scope.indent))
      cases hscope : scopeOf? line with
      | none => exact hleft
      | some scope =>
        refine List.pairwise_cons.2 ⟨fun outer houter => ?_, hleft⟩
        rw [scopeOf?_indent hscope]
        exact ((mem_dropWhile_indent ih).1 houter).2
    · exact ih

/-- Line `i` opens a scope, and all statements behind it up to line `j` stand further right. -/
structure Surrounds (lines : List Text) (i j : Nat) (scope : InnerScope) : Prop where
  lt : i < j
  opens : ∃ line, lines[i]? = some line ∧ scopeOf? line = some scope
  deeper : ∀ m line, i < m → m ≤ j → lines[m]? = some line → isStatementLine line = true →
    scope.indent < byteIndent line

/-- One more line opens its own scope and closes those that do not stand to the left of it. -/
theorem mem_openScopes_append {last : Text} :
    scope ∈ openScopes (lines ++ [last]) ↔ scopeOf? last = some scope ∨
      scope ∈ openScopes lines ∧ (isStatementLine last = true → scope.indent < byteIndent last) := by
  rw [openScopes_append, enter]
  cases hlast : isStatementLine last with
  | false =>
    have hnone : scopeOf? last = none := by simp [scopeOf?, hlast]
    simp [hnone]
  | true => simp [mem_dropWhile_indent (pairwise_openScopes lines)]

theorem mem_openScopes :
    scope ∈ openScopes lines ↔ ∃ (i : Nat) (line : Text), lines[i]? = some line ∧
      scopeOf? line = some scope ∧ ∀ (m : Nat) (line : Text), i < m → lines[m]? = some line →
        isStatementLine line = true → scope.indent < byteIndent line := by
  induction lines using List.reverseRecOn with
  | nil => simp [openScopes]
  | append_singleton lines last ih =>
    -- A line of the longer list is one of the shorter list or the last.
    have hget : ∀ {m : Nat} {line : Text}, (lines ++ [last])[m]? = some line ↔
        lines[m]? = some line ∨ m = lines.length ∧ last = line := by
      intro m line
      rw [List.getElem?_append]
      split
      · next hm => simp [Nat.ne_of_lt hm]
      · next hm =>
        have hlast : m - lines.length = 0 ↔ m = lines.length := by omega
        rw [List.getElem?_eq_none (Nat.not_lt.1 hm), List.getElem?_singleton,
          Option.ite_none_right_eq_some, hlast]
        simp
    have hlt : ∀ {m : Nat} {line : Text}, lines[m]? = some line → m < lines.length := fun hm =>
      (List.getElem?_eq_some_iff.1 hm).1
    rw [mem_openScopes_append, ih]
    constructor
    · rintro (hscope | ⟨⟨i, line, hi, hscope, hdeep⟩, hlast⟩)
      · refine ⟨lines.length, last, hget.2 (.inr ⟨rfl, rfl⟩), hscope, fun m line him hm => ?_⟩
        rcases hget.1 hm with hm | ⟨rfl, -⟩
        · have := hlt hm
          omega
        · omega
      · refine ⟨i, line, hget.2 (.inl hi), hscope, fun m l him hm hl => ?_⟩
        rcases hget.1 hm with hm | ⟨rfl, rfl⟩
        · exact hdeep m l him hm hl
        · exact hlast hl
    · rintro ⟨i, line, hi, hscope, hdeep⟩
      rcases hget.1 hi with hi | ⟨rfl, rfl⟩
      · exact .inr ⟨⟨i, line, hi, hscope, fun m l him hm => hdeep m l him (hget.2 (.inl hm))⟩,
          hdeep _ last (hlt hi) (hget.2 (.inr ⟨rfl, rfl⟩))⟩
      · exact .inl hscope

/-- The scopes that are kept for a line are those of the lines that surround it. -/
theorem mem_scopesAround {j : Nat} (hj : lines[j]? = some line)
    (hline : isStatementLine line = true) :
    scope ∈ scopesAround (lines.take j) line ↔ ∃ i, Surrounds lines i j scope := by
  have htake : ∀ {m l}, (lines.take j)[m]? = some l ↔ m < j ∧ lines[m]? = some l := by
    intro m l
    rw [List.getElem?_take, Option.ite_none_right_eq_some]
  rw [scopesAround, mem_dropWhile_indent (pairwise_openScopes _), mem_openScopes]
  constructor
  · rintro ⟨⟨i, l, hi, hscope, hdeep⟩, hlt⟩
    obtain ⟨hij, hi⟩ := htake.1 hi
    refine ⟨i, hij, ⟨l, hi, hscope⟩, fun m l him hmj hm hl => ?_⟩
    rcases Nat.lt_or_eq_of_le hmj with hmj | rfl
    · exact hdeep m l him (htake.2 ⟨hmj, hm⟩) hl
    · obtain rfl : line = l := Option.some.inj (hj.symm.trans hm)
      exact hlt
  · rintro ⟨i, hij, ⟨l, hi, hscope⟩, hdeep⟩
    refine ⟨⟨i, l, htake.2 ⟨hij, hi⟩, hscope, fun m l him hm hl => ?_⟩,
      hdeep j line hij (Nat.le_refl j) hj hline⟩
    obtain ⟨hmj, hm⟩ := htake.1 hm
    exact hdeep m l him (Nat.le_of_lt hmj) hm hl

end

end Offload.Host
