import Offload.Proofs.Carry

/-!
Sources with one more line of trivia. Searches find the same lines under their new numbers; only the
reach of a statement can differ, when the new line is a comment behind it that belongs to it.
-/
namespace Offload

/-- The number of line `j` after a line has been put in front of line `k`. -/
def shiftLine (k j : Nat) : Nat := if j < k then j else j + 1

/-- The number of the line behind a run of lines that the new line does not extend. -/
def shiftStop (k j : Nat) : Nat := if j ≤ k then j else j + 1

section Shift

variable {k i j : Nat}

theorem shiftLine_lt_shiftLine : shiftLine k i < shiftLine k j ↔ i < j := by
  unfold shiftLine
  split <;> split <;> omega

theorem shiftLine_le_shiftLine : shiftLine k i ≤ shiftLine k j ↔ i ≤ j := by
  unfold shiftLine
  split <;> split <;> omega

theorem shiftLine_inj : shiftLine k i = shiftLine k j ↔ i = j := by
  unfold shiftLine
  split <;> split <;> omega

theorem shiftStop_le_shiftLine : shiftStop k i ≤ shiftLine k j ↔ i ≤ j := by
  unfold shiftLine shiftStop
  split <;> split <;> omega

theorem shiftStop_le_shiftStop : shiftStop k i ≤ shiftStop k j ↔ i ≤ j := by
  unfold shiftStop
  split <;> split <;> omega

theorem shiftStop_inj : shiftStop k i = shiftStop k j ↔ i = j := by
  unfold shiftStop
  split <;> split <;> omega

theorem shiftStop_succ : shiftStop k (i + 1) = shiftLine k i + 1 := by
  unfold shiftLine shiftStop
  split <;> split <;> omega

theorem shiftLine_of_lt (h : j < k) : shiftLine k j = j := if_pos h

theorem shiftLine_of_le (h : k ≤ j) : shiftLine k j = j + 1 := if_neg (by omega)

/-- Every line is the new one or has an old number. -/
theorem eq_or_exists_shiftLine (k i : Nat) : i = k ∨ ∃ j, i = shiftLine k j := by
  rcases Nat.lt_trichotomy i k with hi | hi | hi
  · exact .inr ⟨i, (shiftLine_of_lt hi).symm⟩
  · exact .inl hi
  · exact .inr ⟨i - 1, by rw [shiftLine_of_le (by omega)]; omega⟩

end Shift

namespace Source

/-- The source `s'` is `s` with the line `x` in front of line `k`. The line is trivia that leaves a
statement open exactly when it finds it open. -/
structure Inserted (s s' : Source) (k : Nat) (x : Line) : Prop where
  le : k ≤ s.size
  lines : s'.lines = s.lines.take k ++ x :: s.lines.drop k
  trivia : x.isTrivia = true
  blank : x.kind = .blank → Text.blank x.text = true
  steady : x.continues = x.continuation
  linked : s.Linked
  linked' : s'.Linked

namespace Inserted

variable {s s' : Source} {k i j : Nat} {x : Line} {p : Line → Bool}

theorem length_take (h : Inserted s s' k x) : (s.lines.take k).length = k := by
  rw [List.length_take]
  exact Nat.min_eq_left h.le

theorem getElem?_shift (h : Inserted s s' k x) (j : Nat) :
    s'.lines[shiftLine k j]? = s.lines[j]? := by
  have hlen := h.length_take
  rw [h.lines]
  rcases Nat.lt_or_ge j k with hj | hj
  · rw [shiftLine_of_lt hj, List.getElem?_append_left (by omega), List.getElem?_take_of_lt hj]
  · rw [shiftLine_of_le hj, List.getElem?_append_right (by omega), hlen,
      show j + 1 - k = (j - k) + 1 by omega, List.getElem?_cons_succ, List.getElem?_drop,
      show k + (j - k) = j by omega]

theorem getElem?_self (h : Inserted s s' k x) : s'.lines[k]? = some x := by
  have hlen := h.length_take
  rw [h.lines, List.getElem?_append_right (by omega), hlen]
  simp

theorem size_eq (h : Inserted s s' k x) : s'.size = s.size + 1 := by
  have := h.le
  simp only [size] at this
  simp only [size, h.lines, List.length_append, List.length_cons, List.length_take,
    List.length_drop]
  omega

@[simp] theorem has_shift (h : Inserted s s' k x) (p : Line → Bool) (j : Nat) :
    s'.has p (shiftLine k j) = s.has p j := by
  rw [has, has, h.getElem?_shift]

@[simp] theorem has_self (h : Inserted s s' k x) (p : Line → Bool) : s'.has p k = p x := by
  rw [has, h.getElem?_self]
  rfl

theorem indentAt_shift (h : Inserted s s' k x) (j : Nat) :
    s'.indentAt (shiftLine k j) = s.indentAt j := by
  rw [indentAt, indentAt, indent?, indent?, h.getElem?_shift]

theorem text?_shift (h : Inserted s s' k x) (j : Nat) :
    s'.text? (shiftLine k j) = s.text? j := by
  rw [text?, text?, h.getElem?_shift]

/-- The new line goes on exactly when the line before it is open. -/
theorem continues_before (h : Inserted s s' k x) (hk : 0 < k) :
    s.has Line.continues (k - 1) = x.continuation := by
  have hnext := h.linked'.next (k - 1) (by have := h.size_eq; have := h.le; omega)
  have hbefore := h.has_shift Line.continues (k - 1)
  rw [show k - 1 + 1 = k by omega, h.has_self] at hnext
  rw [shiftLine_of_lt (by omega)] at hbefore
  rw [← hbefore, hnext]

theorem not_inString (h : Inserted s s' k x) : x.inString = false := by
  have := h.trivia
  simp only [Line.isTrivia, Bool.and_eq_true, Bool.not_eq_true'] at this
  exact this.1

theorem not_code (h : Inserted s s' k x) : x.kind ≠ .code := by
  have := h.trivia
  simp only [Line.isTrivia, Bool.and_eq_true, bne_iff_ne] at this
  exact this.2

theorem not_leaves (h : Inserted s s' k x) (depth : Nat) : x.leaves depth = false := by
  simp [Line.leaves, h.not_code]

theorem not_startsStatement (h : Inserted s s' k x) : x.startsStatement = false := by
  simp [Line.startsStatement, h.not_code]

/-! The first line with a property. -/

/-- A search that passes over the new line finds the same line. -/
theorem findFrom?_shift (h : Inserted s s' k x) (hx : p x = false) {i' : Nat}
    (hstart : ∀ j, i ≤ j ↔ i' ≤ shiftLine k j) :
    s'.findFrom? p i' = (s.findFrom? p i).map (shiftLine k) := by
  cases hfind : s.findFrom? p i with
  | none =>
    rw [findFrom?_eq_none_iff] at hfind
    refine findFrom?_eq_none_iff.2 fun m hm => ?_
    rcases eq_or_exists_shiftLine k m with rfl | ⟨n, rfl⟩
    · rw [h.has_self, hx]
    · rw [h.has_shift]
      exact hfind n ((hstart n).2 hm)
  | some j =>
    obtain ⟨hij, hj, hmin⟩ := findFrom?_eq_some_iff.1 hfind
    refine findFrom?_eq_some_iff.2 ⟨(hstart j).1 hij, by rwa [h.has_shift], fun m hm hlt => ?_⟩
    rcases eq_or_exists_shiftLine k m with rfl | ⟨n, rfl⟩
    · rw [h.has_self, hx]
    · rw [h.has_shift]
      exact hmin n ((hstart n).2 hm) (shiftLine_lt_shiftLine.1 hlt)

/-! The end of a logical line. -/

/-- The new line is the last one and goes on with the line before it. -/
def Trails (s : Source) (k : Nat) (x : Line) : Prop := k = s.size ∧ x.continuation = true

theorem logicalEnd_shift (h : Inserted s s' k x) (hi : i < s.size) :
    s'.logicalEnd (shiftLine k i) = shiftLine k (s.logicalEnd i) ∨
      (Trails s k x ∧ s.logicalEnd i + 1 = k ∧ s'.logicalEnd (shiftLine k i) = k) := by
  have hend := goesOnTo_logicalEnd hi
  have hsize := h.size_eq
  generalize s.logicalEnd i = e at hend ⊢
  have hle := hend.le
  have hlt := hend.lt_size
  have hgoes : ∀ m, shiftLine k i ≤ m → m < shiftLine k e → s'.has Line.continues m = true := by
    intro m hm hme
    rcases eq_or_exists_shiftLine k m with rfl | ⟨n, rfl⟩
    · -- The line before the new one is inside, so the new line goes on with it.
      have him : i < m := by
        rcases Nat.lt_or_ge i m with him | him
        · exact him
        · rw [shiftLine_of_le him] at hm
          omega
      have hem : m ≤ e := by
        rcases Nat.lt_or_ge e m with hem | hem
        · rw [shiftLine_of_lt hem] at hme
          omega
        · exact hem
      rw [h.has_self, h.steady, ← h.continues_before (by omega)]
      exact hend.goes_on (m - 1) (by omega) (by omega)
    · rw [h.has_shift]
      exact hend.goes_on n (shiftLine_le_shiftLine.1 hm) (shiftLine_lt_shiftLine.1 hme)
  have hshift : shiftLine k i ≤ shiftLine k e := shiftLine_le_shiftLine.2 hle
  have hshiftLt : shiftLine k e < s'.size := by
    unfold shiftLine
    split <;> omega
  by_cases htrails : e + 1 = k ∧ s.has Line.continues e = true
  · obtain ⟨hek, hon⟩ := htrails
    have hbefore := h.continues_before (by omega)
    rw [show k - 1 = e by omega, hon] at hbefore
    have hks : k = s.size := by
      have hkle := h.le
      rcases Nat.lt_or_ge (e + 1) s.size with hes | hes
      · simp [hend.ends hes] at hon
      · omega
    refine .inr ⟨⟨hks, hbefore.symm⟩, hek, logicalEnd_eq ⟨by omega, by omega, ?_, by omega⟩⟩
    intro m hm hmk
    rcases Nat.lt_or_ge m e with hme | hme
    · exact hgoes m hm (by rwa [shiftLine_of_lt (by omega)])
    · obtain rfl : m = e := by omega
      rw [← h.has_shift, shiftLine_of_lt (by omega)] at hon
      exact hon
  · refine .inl (logicalEnd_eq ⟨hshift, hshiftLt, hgoes, fun hlast => ?_⟩)
    rw [h.has_shift]
    rcases Nat.lt_or_ge (e + 1) s.size with hes | hes
    · exact hend.ends hes
    · -- The last line of `s` is followed by the new line only if that stands at the end.
      have hek : e + 1 = k := by
        have hkle := h.le
        unfold shiftLine at hlast
        split at hlast <;> omega
      simpa [hek] using htrails

/-! The reach of a statement. -/

theorem leaves_of_trivia (depth : Nat) (h : s.has Line.isTrivia i = true) :
    s.has (Line.leaves depth) i = false := by
  obtain ⟨line, hline, htrivia⟩ := has_eq_true.1 h
  simp only [Line.isTrivia, Bool.and_eq_true, bne_iff_ne] at htrivia
  simp [has, hline, Line.leaves, htrivia.2]

/-- What neither belongs to a statement nor leaves it is trivia between statements. -/
theorem trivia_of_not_leaves {depth : Nat} (hi : i < s.size)
    (hleaves : s.has (Line.leaves depth) i = false)
    (hbelongs : s.has (Line.belongsTo depth) i = false) :
    s.has Line.isTrivia i = true ∧ s.has Line.continuation i = false := by
  obtain ⟨line, hline⟩ : ∃ line, s.lines[i]? = some line := ⟨_, List.getElem?_eq_getElem hi⟩
  rw [has, hline, Option.any_some] at hleaves hbelongs
  rw [has, has, hline, Option.any_some, Option.any_some]
  have hkind : line.kind ≠ .code := by
    simpa [Line.leaves, hbelongs] using hleaves
  simp only [Line.belongsTo, Bool.or_eq_false_iff] at hbelongs
  exact ⟨by simp [Line.isTrivia, hbelongs.1.1, hkind], hbelongs.1.2⟩

/-- A statement of the given indentation, which ended before `stop`, takes in the new line: nothing
but trivia stands between, and the new line belongs to the statement. -/
structure TakesIn (s : Source) (k : Nat) (x : Line) (depth stop : Nat) : Prop where
  le : stop ≤ k
  trivia : ∀ m, stop ≤ m → m < k →
    s.has Line.isTrivia m = true ∧ s.has Line.continuation m = false
  belongs : x.belongsTo depth = true

/-- Behind a statement, what is taken in are the comments that are deep enough. -/
theorem takesIn_iff (h : Inserted s s' k x) {depth stop : Nat} (hlt : stop < k) :
    TakesIn s k x depth stop ↔ x.kind = .comment ∧ depth < x.indent ∧
      ∀ m, stop ≤ m → m < k →
        s.has Line.isTrivia m = true ∧ s.has Line.continuation m = false := by
  constructor
  · intro ht
    obtain ⟨htrivia, hfresh⟩ := ht.trivia (k - 1) (by omega) (by omega)
    have hcontinuation : x.continuation = false := by
      rw [← h.continues_before (by omega)]
      exact h.linked.trivia _ htrivia hfresh
    have hbelongs := ht.belongs
    simp only [Line.belongsTo, h.not_inString, hcontinuation, Bool.false_or] at hbelongs
    cases hkind : x.kind with
    | blank => simp [hkind] at hbelongs
    | comment =>
      have hdeep : depth < x.indent := by simpa [hkind] using hbelongs
      exact ⟨rfl, hdeep, ht.trivia⟩
    | code => exact absurd hkind h.not_code
  · rintro ⟨hkind, hdeep, htrivia⟩
    exact ⟨by omega, htrivia, by simp [Line.belongsTo, hkind, hdeep]⟩

theorem maximal_shift (h : Inserted s s' k x) {depth next stop m : Nat}
    (hr : s.Reaches depth next stop) (hm : stop ≤ m)
    (hnone : ∀ n, shiftStop k next ≤ n → n ≤ shiftLine k m → s'.has (Line.leaves depth) n = false) :
    s'.has (Line.belongsTo depth) (shiftLine k m) = false := by
  rw [h.has_shift]
  refine hr.maximal m hm fun n hn hnm => ?_
  rw [← h.has_shift]
  exact hnone _ (shiftStop_le_shiftLine.2 hn) (shiftLine_le_shiftLine.2 hnm)

theorem reaches_of_takesIn (h : Inserted s s' k x) {depth next stop : Nat}
    (hr : s.Reaches depth next stop) (ht : TakesIn s k x depth stop) :
    s'.Reaches depth (shiftStop k next) (k + 1) := by
  have hle := hr.le
  have hstop := ht.le
  constructor
  · unfold shiftStop
    split <;> omega
  · intro m hm hlt
    rcases eq_or_exists_shiftLine k m with rfl | ⟨n, rfl⟩
    · rw [h.has_self]
      exact h.not_leaves depth
    · rw [h.has_shift]
      have hnk : n < k := by
        rcases Nat.lt_or_ge n k with hnk | hnk
        · exact hnk
        · rw [shiftLine_of_le hnk] at hlt
          omega
      rcases Nat.lt_or_ge n stop with hn | hn
      · exact hr.inside n (shiftStop_le_shiftLine.1 hm) hn
      · exact leaves_of_trivia depth (ht.trivia n hn hnk).1
  · right
    rw [Nat.add_sub_cancel, h.has_self]
    exact ht.belongs
  · intro m hm hnone
    rcases eq_or_exists_shiftLine k m with rfl | ⟨n, rfl⟩
    · omega
    · refine h.maximal_shift hr ?_ hnone
      unfold shiftLine at hm
      split at hm <;> omega

theorem reaches_of_not_takesIn (h : Inserted s s' k x) {depth next stop : Nat}
    (hr : s.Reaches depth next stop) (ht : ¬ TakesIn s k x depth stop) :
    s'.Reaches depth (shiftStop k next) (shiftStop k stop) := by
  constructor
  · exact shiftStop_le_shiftStop.2 hr.le
  · intro m hm hlt
    rcases eq_or_exists_shiftLine k m with rfl | ⟨n, rfl⟩
    · rw [h.has_self]
      exact h.not_leaves depth
    · rw [h.has_shift]
      refine hr.inside n (shiftStop_le_shiftLine.1 hm) ?_
      rcases Nat.lt_or_ge n stop with hn | hn
      · exact hn
      · have := shiftStop_le_shiftLine (k := k).2 hn
        omega
  · rcases hr.last with heq | hlast
    · exact .inl (heq ▸ rfl)
    · rcases Nat.eq_zero_or_pos stop with rfl | hpos
      · exact .inl (by rw [show next = 0 by have := hr.le; omega])
      · right
        obtain ⟨last, rfl⟩ := Nat.exists_eq_succ_of_ne_zero (Nat.pos_iff_ne_zero.1 hpos)
        rw [Nat.succ_eq_add_one, shiftStop_succ, Nat.add_sub_cancel, h.has_shift]
        exact hlast
  · intro m hm hnone
    rcases eq_or_exists_shiftLine k m with rfl | ⟨n, rfl⟩
    · have hstop : stop ≤ m := by
        unfold shiftStop at hm
        split at hm <;> omega
      rw [h.has_self]
      -- Were the new line to belong to the statement, the lines between would be trivia.
      cases hbelongs : x.belongsTo depth with
      | false => rfl
      | true =>
        have hquiet : ∀ n, next ≤ n → n < m → s.has (Line.leaves depth) n = false := by
          intro n hn hnm
          rw [← h.has_shift]
          exact hnone _ (shiftStop_le_shiftLine.2 hn) (by rw [shiftLine_of_lt hnm]; omega)
        refine absurd ⟨hstop, fun n hn hnm => ?_, hbelongs⟩ ht
        have hle := hr.le
        have hsize := h.le
        refine trivia_of_not_leaves (by omega) (hquiet n (by omega) hnm) ?_
        exact hr.maximal n hn fun n' hn' hle' => hquiet n' hn' (by omega)
    · exact h.maximal_shift hr (shiftStop_le_shiftLine.1 hm) hnone

/-- A statement ends where it ended, unless it takes in the new line. -/
theorem statementStop_shift (h : Inserted s s' k x) (hi : i < s.size) :
    (TakesIn s k x (s.indentAt i) (s.statementStop i) ∧
        s'.statementStop (shiftLine k i) = k + 1) ∨
      (¬ TakesIn s k x (s.indentAt i) (s.statementStop i) ∧
        s'.statementStop (shiftLine k i) = shiftStop k (s.statementStop i)) := by
  have hr := s.reaches_statementStop i
  rcases h.logicalEnd_shift hi with hend | ⟨⟨hlast, hopen⟩, hk, hend⟩
  · have hnext : s'.logicalEnd (shiftLine k i) + 1 = shiftStop k (s.logicalEnd i + 1) := by
      rw [hend, shiftStop_succ]
    by_cases ht : TakesIn s k x (s.indentAt i) (s.statementStop i)
    · refine .inl ⟨ht, statementStop_eq ?_⟩
      rw [h.indentAt_shift, hnext]
      exact h.reaches_of_takesIn hr ht
    · refine .inr ⟨ht, statementStop_eq ?_⟩
      rw [h.indentAt_shift, hnext]
      exact h.reaches_of_not_takesIn hr ht
  · -- The statement is still open where the source ends.
    have hstop : s.statementStop i = k := by
      have hle := hr.le
      rcases hr.last with hlast | hlast
      · omega
      · have := lt_size_of_has hlast
        omega
    rw [hstop]
    refine .inl ⟨⟨by omega, fun m _ _ => by omega, by simp [Line.belongsTo, hopen]⟩, ?_⟩
    refine statementStop_eq ⟨by omega, fun m _ _ => by omega, .inl (by omega), fun m hm _ => ?_⟩
    exact has_of_size_le (by have := h.size_eq; omega)

/-- The code of a statement stays the same. -/
theorem lt_statementStop_shift (h : Inserted s s' k x) (hi : i < s.size)
    (hj : s.has Line.isTrivia j = false) :
    shiftLine k j < s'.statementStop (shiftLine k i) ↔ j < s.statementStop i := by
  rcases h.statementStop_shift hi with ⟨ht, hstop⟩ | ⟨-, hstop⟩
  · rw [hstop]
    have hle := ht.le
    have hout : ¬ (s.statementStop i ≤ j ∧ j < k) := fun ⟨hstop, hlt⟩ => by
      simp [(ht.trivia j hstop hlt).1] at hj
    unfold shiftLine
    split <;> omega
  · rw [hstop, ← Nat.not_le, shiftStop_le_shiftLine, Nat.not_le]

theorem codeStop_shift (h : Inserted s s' k x) (first : Nat) {stop stop' : Nat}
    (hstop : ∀ j, s.has (fun line => !line.isTrivia) j = true →
      (shiftLine k j < stop' ↔ j < stop)) :
    s'.codeStop (shiftLine k first) stop' = shiftStop k (s.codeStop first stop) := by
  have hend := s.codeEnds_codeStop first stop
  generalize s.codeStop first stop = e at hend ⊢
  have hlt := hend.lt
  refine codeStop_eq ⟨?_, ?_, ?_⟩
  · rw [← Nat.not_le, shiftStop_le_shiftLine]
    omega
  · rcases hend.last with rfl | ⟨hle, hlast⟩
    · exact .inl shiftStop_succ
    · obtain ⟨last, rfl⟩ := Nat.exists_eq_succ_of_ne_zero (show e ≠ 0 by omega)
      rw [Nat.succ_eq_add_one, Nat.add_sub_cancel] at hlast
      rw [Nat.succ_eq_add_one, shiftStop_succ, Nat.add_sub_cancel, h.has_shift]
      exact .inr ⟨(hstop last hlast).2 hle, hlast⟩
  · intro m hm hlt
    rcases eq_or_exists_shiftLine k m with rfl | ⟨n, rfl⟩
    · rw [h.has_self, h.trivia]
      rfl
    · rw [h.has_shift]
      cases hn : s.has (fun line => !line.isTrivia) n with
      | false => rfl
      | true =>
        have hrest := hend.rest n (shiftStop_le_shiftLine.1 hm) ((hstop n hn).1 hlt)
        rw [← hrest, hn]

end Inserted

/-- A blank line or a comment can be put into a text outside literals, where the line before does
not end in a backslash. -/
theorem inserted_ofText (tabWidth : Nat) {t t' x : Text} {above below : List Text}
    (ht : t.lines = above ++ below) (ht' : t'.lines = above ++ x :: below)
    (hquote : (Carry.after above).quote = none)
    (hpending : (Carry.after above).pending = true → 0 < (Carry.after above).depth)
    (hx : Line.kindOf (Carry.after above) x ≠ .code) :
    Inserted (ofText tabWidth t) (ofText tabWidth t') above.length
      (Line.ofText (max tabWidth 1) (Carry.after above) x) := by
  have hsettled := Carry.settled_after above
  have hnext : (Carry.after above).next x = Carry.after above := by
    rw [Carry.next_of_trivia hquote hx]
    have hiff : (Carry.after above).pending = decide (0 < (Carry.after above).depth) := by
      rw [Bool.eq_iff_iff, decide_eq_true_eq]
      exact ⟨hpending, fun h => hsettled (.inr h)⟩
    rw [← hiff, ← hquote]
  have hlines : (ofText tabWidth t).lines = Line.scan (max tabWidth 1) {} above ++
      Line.scan (max tabWidth 1) (Carry.after above) below := by
    simp only [ofText, ht]
    exact Line.scan_append _ _ _ _
  have hlength : (Line.scan (max tabWidth 1) {} above).length = above.length :=
    Line.length_scan _ _ _
  constructor
  · simp [size, hlines, hlength]
  · rw [hlines, ← hlength, List.take_left, List.drop_left]
    simp only [ofText, ht']
    rw [Line.scan_append, Line.scan, ← Carry.after, hnext]
  · simp [Line.isTrivia, Line.ofText, hquote, hx]
  · intro hblank
    simp only [Line.ofText, Line.kindOf, hquote] at hblank
    split at hblank
    · simp at hblank
    · split at hblank
      · next hnil => rw [Line.ofText, ← Text.isEmpty_dropWhile, ← Text.trimStart, hnil]; rfl
      · simp at hblank
      · simp at hblank
  · simp [Line.ofText, hnext]
  · exact linked_ofText tabWidth t
  · exact linked_ofText tabWidth t'

end Source
end Offload
