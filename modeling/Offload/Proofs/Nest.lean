import Offload.Proofs.Header
import Offload.Proofs.Insertion

/-!
Loop nests of sources with one more line of trivia. The nest is as deep as before and the same loops
of it are countable, unless the new line is a comment inside the header of a loop.
-/
namespace Offload

namespace Text

theorem unlines_cons_cons (l l' : Text) (ls : List Text) :
    unlines (l :: l' :: ls) = l ++ '\n' :: unlines (l' :: ls) := by
  simp [unlines, join]

theorem unlines_append {ls ms : List Text} (hl : ls ≠ []) (hm : ms ≠ []) :
    unlines (ls ++ ms) = unlines ls ++ '\n' :: unlines ms := by
  obtain ⟨m, ms, rfl⟩ := List.exists_cons_of_ne_nil hm
  induction ls with
  | nil => exact absurd rfl hl
  | cons l ls ih =>
    cases ls with
    | nil => simp [unlines, join]
    | cons l' ls =>
      have hrest := ih (by simp)
      rw [List.cons_append] at hrest
      rw [List.cons_append, List.cons_append, unlines_cons_cons, hrest, unlines_cons_cons]
      simp

/-- A statement begins with its first line. -/
theorem exists_unlines_cons (l : Text) (ls : List Text) :
    ∃ rest, unlines (l :: ls) = l ++ rest ∧ (rest = [] ∨ ∃ more, rest = '\n' :: more) := by
  cases ls with
  | nil => exact ⟨[], by simp [unlines, join], .inl rfl⟩
  | cons l' ls => exact ⟨_, unlines_cons_cons l l' ls, .inr ⟨_, rfl⟩⟩

end Text

namespace Source

/-- Line `k` stands inside a statement that begins with `for`. -/
def InForHeader (s : Source) (k : Nat) : Prop :=
  ∃ i < k, s.has Line.startsStatement i = true ∧
    (∀ m, i ≤ m → m < k → s.has Line.continues m = true) ∧ Text.opensFor (s.textAt i) = true

namespace Inserted

variable {s s' : Source} {k i : Nat} {x : Line}

theorem slice_eq (h : Inserted s s' k x) {a b a' : Nat}
    (hshift : ∀ m, a + m < b → shiftLine k (a + m) = a' + m) :
    s'.slice ⟨a', a' + (b - a)⟩ = s.slice ⟨a, b⟩ := by
  simp only [slice]
  congr 1
  refine List.ext_getElem? fun m => ?_
  rw [List.getElem?_drop, List.getElem?_drop, List.getElem?_take, List.getElem?_take]
  by_cases hm : a + m < b
  · rw [if_pos hm, if_pos (by omega), ← hshift m hm, h.getElem?_shift]
  · rw [if_neg hm, if_neg (by omega)]

/-- The lines of a span that the new line falls into. -/
theorem exists_slice (h : Inserted s s' k x) {a b : Nat} (ha : a < k) (hb : k ≤ b) :
    ∃ above below, above ≠ [] ∧ above.head? = s.text? a ∧ s.slice ⟨a, b⟩ = above ++ below ∧
      s'.slice ⟨a, b + 1⟩ = above ++ x.text :: below := by
  have hk := h.length_take
  have hsize := h.le
  simp only [size] at hsize
  refine ⟨((s.lines.take k).drop a).map Line.text, ((s.lines.drop k).take (b - k)).map Line.text,
    ?_, ?_, ?_, ?_⟩
  · rw [ne_eq, List.map_eq_nil_iff, ← List.length_eq_zero_iff, List.length_drop, hk]
    omega
  · rw [List.head?_map, List.head?_drop, List.getElem?_take_of_lt ha, text?]
  · have htake : s.lines.take b = s.lines.take k ++ (s.lines.drop k).take (b - k) := by
      rw [← List.take_add, show k + (b - k) = b by omega]
    simp only [slice]
    rw [htake, List.drop_append_of_le_length (by omega), List.map_append]
  · have htake : s'.lines.take (b + 1) = s.lines.take k ++ x :: (s.lines.drop k).take (b - k) := by
      rw [h.lines, List.take_append, hk, List.take_of_length_le (by omega),
        show b + 1 - k = (b - k) + 1 by omega, List.take_succ_cons]
    simp only [slice]
    rw [htake, List.drop_append_of_le_length (by omega), List.map_append, List.map_cons]

/-- The header of a statement stays the same up to blanks. -/
theorem forHeader?_shift (h : Inserted s s' k x) (hi : s.has Line.startsStatement i = true)
    (hfor : x.kind = .comment → ¬ s.InForHeader k) :
    Option.Rel ForHeader.SameCount (s.forHeader? i) (s'.forHeader? (shiftLine k i)) := by
  have hsize := lt_size_of_has hi
  have hgoes := goesOnTo_logicalEnd hsize
  have hle := hgoes.le
  have hsame : ∀ header?, Option.Rel ForHeader.SameCount header? header? := by
    intro header?
    cases header? with
    | none => exact .none
    | some header => exact .some rfl
  unfold forHeader?
  -- The new line does not fall between lines of the statement.
  by_cases hout : k ≤ i ∨ s'.logicalEnd (shiftLine k i) < k
  · have hslice : s'.slice ⟨shiftLine k i, s'.logicalEnd (shiftLine k i) + 1⟩ =
        s.slice ⟨i, s.logicalEnd i + 1⟩ := by
      have hend : s'.logicalEnd (shiftLine k i) = shiftLine k (s.logicalEnd i) := by
        rcases h.logicalEnd_shift hsize with hend | ⟨-, hk, hend⟩
        · exact hend
        · omega
      rw [hend] at hout ⊢
      -- From the first line to the last, all numbers move alike.
      have hmove : ∀ m, i + m < s.logicalEnd i + 1 → shiftLine k (i + m) = shiftLine k i + m := by
        intro m hm
        rcases hout with hki | hek
        · rw [shiftLine_of_le (by omega), shiftLine_of_le hki]
          omega
        · have hlast : s.logicalEnd i < k := by
            unfold shiftLine at hek
            split at hek <;> omega
          rw [shiftLine_of_lt (by omega), shiftLine_of_lt (by omega)]
      have hlast := hmove (s.logicalEnd i - i) (by omega)
      rw [show i + (s.logicalEnd i - i) = s.logicalEnd i by omega] at hlast
      rw [hlast, show shiftLine k i + (s.logicalEnd i - i) + 1 =
        shiftLine k i + (s.logicalEnd i + 1 - i) by omega]
      exact h.slice_eq hmove
    rw [textOf, textOf, hslice]
    exact hsame _
  · have hik : i < k := by omega
    -- All lines of the statement before the new one are open.
    have hinside : k ≤ s.logicalEnd i + 1 ∧
        s'.logicalEnd (shiftLine k i) + 1 = s.logicalEnd i + 1 + 1 ∧
        ∀ m, i ≤ m → m < k → s.has Line.continues m = true := by
      rcases h.logicalEnd_shift hsize with hend | ⟨htrails, hk, hend⟩
      · have hke : k ≤ s.logicalEnd i := by
          rcases Nat.lt_or_ge (s.logicalEnd i) k with hlt | hge
          · rw [shiftLine_of_lt hlt] at hend
            omega
          · exact hge
        rw [shiftLine_of_le hke] at hend
        exact ⟨by omega, by omega, fun m him hmk => hgoes.goes_on m him (by omega)⟩
      · refine ⟨by omega, by omega, fun m him hmk => ?_⟩
        rcases Nat.lt_or_ge m (s.logicalEnd i) with hm | hm
        · exact hgoes.goes_on m him hm
        · rw [show m = k - 1 by omega, h.continues_before (by omega)]
          exact htrails.2
    obtain ⟨hkb, hend, hopen⟩ := hinside
    obtain ⟨above, below, hne, hhead, hslice, hslice'⟩ := h.exists_slice hik hkb
    rw [textOf, textOf, hend, shiftLine_of_lt hik, hslice, hslice']
    cases hkind : x.kind with
    | code => exact absurd hkind h.not_code
    | blank =>
      have hx := h.blank hkind
      cases below with
      | nil =>
        rw [List.append_nil, Text.unlines_append hne (by simp)]
        rw [ForHeader.parse?_append_blank]
        · exact hsame _
        · simp [Text.unlines, Text.join, Text.blank_cons, Text.isBlank_newline, hx]
      | cons line below =>
        rw [Text.unlines_append hne (by simp), Text.unlines_append hne (by simp)]
        refine ForHeader.parse?_spread (.inr ⟨_, x.text, _, hx, rfl, ?_⟩)
        rw [Text.unlines_cons_cons]
    | comment =>
      have hnot : Text.opensFor (s.textAt i) = false := by
        cases hopens : Text.opensFor (s.textAt i) with
        | false => rfl
        | true => exact absurd ⟨i, hik, hi, hopen, hopens⟩ (hfor hkind)
      obtain ⟨line, hline, hstart⟩ := has_eq_true.1 hi
      have hblank := h.linked.written i line hline hstart
      have htext : s.textAt i = line.text := by simp [textAt, text?, hline]
      obtain ⟨first, above, rfl⟩ := List.exists_cons_of_ne_nil hne
      obtain rfl : first = line.text := by simpa [text?, hline] using hhead
      rw [htext] at hnot
      have hnone : ∀ rest, ForHeader.parse? (Text.unlines (line.text :: rest)) = none := by
        intro rest
        obtain ⟨tail, htail, hform⟩ := Text.exists_unlines_cons line.text rest
        rw [htail]
        exact ForHeader.parse?_eq_none hnot hblank hform
      rw [List.cons_append, List.cons_append, hnone, hnone]
      exact .none

/-- What stands behind the first logical line of a statement still does. -/
theorem logicalEnd_lt_shift (h : Inserted s s' k x) (hi : i < s.size) (j : Nat) :
    s.logicalEnd i + 1 ≤ j ↔ s'.logicalEnd (shiftLine k i) + 1 ≤ shiftLine k j := by
  rcases h.logicalEnd_shift hi with hend | ⟨-, hk, hend⟩
  · rw [hend]
    exact shiftLine_lt_shiftLine.symm
  · rw [hend, hk]
    unfold shiftLine
    split <;> omega

/-- The two spans hold the same code. -/
structure SameCode (s : Source) (k : Nat) (span span' : Span) : Prop where
  start : ∀ j, span.start ≤ j ↔ span'.start ≤ shiftLine k j
  stop : ∀ j, s.has (fun line => !line.isTrivia) j = true →
    (shiftLine k j < span'.stop ↔ j < span.stop)

end Inserted
end Source

theorem Line.not_isTrivia_of_startsStatement {line : Line} (h : line.startsStatement = true) :
    (!line.isTrivia) = true := by
  simp only [startsStatement, Bool.and_eq_true, beq_iff_eq] at h
  simp [isTrivia, h.1]

theorem Source.has_of_has {s : Source} {p q : Line → Bool} {i : Nat}
    (hpq : ∀ line, p line = true → q line = true) (h : s.has p i = true) : s.has q i = true := by
  obtain ⟨line, hline, hp⟩ := has_eq_true.1 h
  exact has_eq_true.2 ⟨line, hline, hpq line hp⟩

namespace NestedLoop

open Source

variable {s s' : Source} {k : Nat} {x : Line}

/-- Which loops of a nest are countable. -/
def counts (nest : List NestedLoop) : List Bool := nest.map fun l => isCountable l.header.iterable

theorem counts_nestFrom (h : Inserted s s' k x) (hfor : x.kind = .comment → ¬ s.InForHeader k)
    (codeStop : Option Nat) (line : Nat) (hline : s.has Line.startsStatement line = true) :
    counts (nestFrom s' (codeStop.map (shiftStop k)) (shiftLine k line)) =
      counts (nestFrom s codeStop line) := by
  induction hn : s.size - line using Nat.strongRecOn generalizing codeStop line with
  | ind n ih =>
  have hsize := lt_size_of_has hline
  have hheader := h.forHeader?_shift hline hfor
  have hstop : ∀ j, s.has (fun line => !line.isTrivia) j = true →
      (shiftLine k j < s'.statementStop (shiftLine k line) ↔ j < s.statementStop line) := by
    intro j hj
    rw [has_not, Bool.and_eq_true, Bool.not_eq_true'] at hj
    exact h.lt_statementStop_shift hsize hj.2
  have hcode := h.codeStop_shift line hstop
  have hnext := h.findFrom?_shift h.not_startsStatement (h.logicalEnd_lt_shift hsize)
  have hany : (codeStop.map (shiftStop k)).any
        (· != shiftStop k (s.codeStop line (s.statementStop line))) =
      codeStop.any (· != s.codeStop line (s.statementStop line)) := by
    cases codeStop with
    | none => rw [Option.map_none, Option.any_none, Option.any_none]
    | some e =>
      rw [Option.map_some, Option.any_some, Option.any_some, Bool.eq_iff_iff, bne_iff_ne,
        bne_iff_ne, ne_eq, ne_eq, shiftStop_inj]
  rw [nestFrom.eq_def s', nestFrom.eq_def s]
  generalize s.forHeader? line = header? at hheader ⊢
  generalize s'.forHeader? (shiftLine k line) = header?' at hheader ⊢
  cases hheader with
  | none => rfl
  | some hsame =>
    simp only [hcode, hany]
    split
    · rfl
    · simp only [counts, List.map_cons]
      refine congr (congrArg _ hsame.symm) ?_
      split
      · next next' hfind' =>
        rw [hnext, Option.map_eq_some_iff] at hfind'
        obtain ⟨first, hfind, rfl⟩ := hfind'
        obtain ⟨hle, hstart, -⟩ := findFrom?_eq_some_iff.1 hfind
        have hbelow : line < first := Nat.lt_of_le_of_lt (s.le_logicalEnd line) hle
        have hlt := hstop first (has_of_has (fun _ => Line.not_isTrivia_of_startsStatement) hstart)
        by_cases hin : first < s.statementStop line
        · rw [if_pos (hlt.2 hin)]
          split
          · next other hother =>
            obtain rfl : other = first := Option.some.inj (hother.symm.trans hfind)
            rw [if_pos hin]
            exact ih (s.size - other) (by omega) (some (s.codeStop line (s.statementStop line)))
              other hstart rfl
          · next hnone => simp [hfind] at hnone
        · rw [if_neg (mt hlt.1 hin)]
          split
          · next other hother =>
            obtain rfl : other = first := Option.some.inj (hother.symm.trans hfind)
            rw [if_neg hin]
          · rfl
      · next hfind' =>
        rw [hnext, Option.map_eq_none_iff] at hfind'
        split
        · next other hother => simp [hfind'] at hother
        · rfl

theorem counts_nestIn (h : Inserted s s' k x) (hfor : x.kind = .comment → ¬ s.InForHeader k)
    {span span' : Span} (hspan : Inserted.SameCode s k span span') :
    counts (nestIn s' span') = counts (nestIn s span) := by
  have hnext := h.findFrom?_shift h.not_startsStatement hspan.start
  unfold nestIn firstStatement? nextStatement?
  rw [hnext]
  cases hfind : s.findFrom? Line.startsStatement span.start with
  | none => rfl
  | some line =>
    obtain ⟨-, hstart, -⟩ := findFrom?_eq_some_iff.1 hfind
    have hlt := hspan.stop line
      (has_of_has (fun _ => Line.not_isTrivia_of_startsStatement) hstart)
    rw [Option.map_some, Option.filter_some, Option.filter_some]
    by_cases hin : line < span.stop
    · rw [if_pos (by simpa using hlt.2 hin), if_pos (by simpa using hin)]
      exact counts_nestFrom h hfor none line hstart
    · rw [if_neg (by simpa using mt hlt.1 hin), if_neg (by simpa using hin)]

end NestedLoop

/-- Loops are associated exactly when the nest has the given depth and all of it is countable. -/
theorem exists_associateLoops_iff (s : Source) (span : Span) (count line : Nat) :
    (∃ loops, associateLoops s span count line = .ok loops) ↔
      NestedLoop.counts (NestedLoop.nestIn s span) = List.replicate count true := by
  have hall : ∀ nest : List NestedLoop, (∃ loops, nest.mapM (NestedLoop.associate s) = .ok loops) ↔
      ∀ b ∈ NestedLoop.counts nest, b = true := by
    intro nest
    induction nest with
    | nil => exact ⟨fun _ => by simp [NestedLoop.counts], fun _ => ⟨[], rfl⟩⟩
    | cons l nest ih =>
      have hcounts : NestedLoop.counts (l :: nest) =
          isCountable l.header.iterable :: NestedLoop.counts nest := rfl
      rw [List.mapM_cons, hcounts, List.forall_mem_cons, ← ih]
      simp only [NestedLoop.associate]
      split
      · next hl =>
        simp only [hl, true_and, Outcome.ok_bind, Outcome.bind_eq_ok]
        constructor
        · rintro ⟨-, loops, hloops, -⟩
          exact ⟨loops, hloops⟩
        · rintro ⟨loops, hloops⟩
          exact ⟨_, loops, hloops, rfl⟩
      · next hl => simp [hl]
  simp only [associateLoops]
  rw [List.eq_replicate_iff]
  split
  · next hlen =>
    rw [hall]
    simp [NestedLoop.counts, hlen]
  · next hlen => simp [NestedLoop.counts, hlen]

end Offload
