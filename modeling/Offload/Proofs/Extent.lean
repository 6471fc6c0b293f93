import Offload.Loop.Nest

/-!
Searches over the lines of a source, by line number: the first line with a property, the end of a
logical line, the reach of a statement and the end of its code.
-/
namespace Offload

section Runs

variable {α : Type} {p : α → Bool}

/-- The length of the run at the front is where the property fails first. -/
theorem any_getElem?_takeWhile (p : α → Bool) (l : List α) :
    (∀ m < (l.takeWhile p).length, l[m]?.any p = true) ∧
      l[(l.takeWhile p).length]?.any p = false := by
  induction l with
  | nil => simp
  | cons a l ih =>
    by_cases ha : p a = true
    · rw [List.takeWhile_cons_of_pos ha]
      refine ⟨?_, by simpa using ih.2⟩
      intro m hm
      cases m with
      | zero => simpa using ha
      | succ m => simpa using ih.1 m (by simpa using hm)
    · rw [List.takeWhile_cons_of_neg ha]
      simpa using ha

/-- What remains after the run at the end ends with the last element that lacks the property. -/
theorem any_getElem?_dropWhile_reverse (p : α → Bool) (l : List α) :
    (l.reverse.dropWhile p).length ≤ l.length ∧
      ((l.reverse.dropWhile p).length = 0 ∨
        l[(l.reverse.dropWhile p).length - 1]?.any (fun a => !p a) = true) ∧
      ∀ m, (l.reverse.dropWhile p).length ≤ m → l[m]?.any (fun a => !p a) = false := by
  have hle : (l.reverse.dropWhile p).length ≤ l.length := by
    simpa using (List.dropWhile_sublist (l := l.reverse) p).length_le
  obtain ⟨hrun, hend⟩ := any_getElem?_takeWhile p l.reverse
  have hlen : (l.reverse.takeWhile p).length + (l.reverse.dropWhile p).length = l.length := by
    rw [← List.length_append, List.takeWhile_append_dropWhile, List.length_reverse]
  refine ⟨hle, ?_, ?_⟩
  · rcases Nat.eq_zero_or_pos (l.reverse.dropWhile p).length with hzero | hpos
    · exact .inl hzero
    · right
      rw [List.getElem?_reverse (by omega)] at hend
      have hidx : l.length - 1 - (l.reverse.takeWhile p).length =
          (l.reverse.dropWhile p).length - 1 := by omega
      rw [hidx, List.getElem?_eq_getElem (by omega)] at hend
      rw [List.getElem?_eq_getElem (by omega)]
      simpa using hend
  · intro m hm
    rcases Nat.lt_or_ge m l.length with hlt | hge
    · have hget := hrun (l.length - 1 - m) (by omega)
      rw [List.getElem?_reverse (by omega)] at hget
      have hidx : l.length - 1 - (l.length - 1 - m) = m := by omega
      rw [hidx, List.getElem?_eq_getElem hlt] at hget
      rw [List.getElem?_eq_getElem hlt]
      simpa using hget
    · simp [List.getElem?_eq_none hge]

end Runs

namespace Source

variable {s : Source} {p : Line → Bool} {i j : Nat}

/-- Line `i` is there and has the property. -/
def has (s : Source) (p : Line → Bool) (i : Nat) : Bool := s.lines[i]?.any p

theorem has_eq_true : s.has p i = true ↔ ∃ line, s.lines[i]? = some line ∧ p line = true := by
  rw [has]
  cases s.lines[i]? <;> simp

theorem lt_size_of_has (h : s.has p i = true) : i < s.size := by
  obtain ⟨line, hline, -⟩ := has_eq_true.1 h
  exact (List.getElem?_eq_some_iff.1 hline).1

theorem has_of_size_le (h : s.size ≤ i) : s.has p i = false := by
  simp [has, List.getElem?_eq_none h]

/-! The first line with a property. -/

theorem findFrom?_eq_some_iff :
    s.findFrom? p i = some j ↔
      i ≤ j ∧ s.has p j = true ∧ ∀ m, i ≤ m → m < j → s.has p m = false := by
  simp only [findFrom?, Option.map_eq_some_iff]
  constructor
  · rintro ⟨k, hk, rfl⟩
    obtain ⟨hlt, hpk, hmin⟩ := List.findIdx?_eq_some_iff_getElem.1 hk
    simp only [List.getElem_drop] at hpk hmin
    simp only [List.length_drop] at hlt
    refine ⟨by omega, ?_, ?_⟩
    · rw [has, List.getElem?_eq_getElem (by omega)]
      simpa using hpk
    · intro m him hmk
      obtain ⟨n, rfl⟩ : ∃ n, m = i + n := ⟨m - i, by omega⟩
      rw [has, List.getElem?_eq_getElem (by omega)]
      simpa using hmin n (by omega)
  · rintro ⟨hij, hpj, hmin⟩
    obtain ⟨k, rfl⟩ : ∃ k, j = i + k := ⟨j - i, by omega⟩
    have hlt : i + k < s.lines.length := lt_size_of_has hpj
    refine ⟨k, List.findIdx?_eq_some_iff_getElem.2 ⟨by simp; omega, ?_, ?_⟩, rfl⟩
    · rw [has, List.getElem?_eq_getElem hlt] at hpj
      simpa using hpj
    · intro n hn
      have hpn := hmin (i + n) (by omega) (by omega)
      rw [has, List.getElem?_eq_getElem (by omega)] at hpn
      simpa using hpn

theorem findFrom?_eq_none_iff :
    s.findFrom? p i = none ↔ ∀ m, i ≤ m → s.has p m = false := by
  constructor
  · intro h m him
    cases hm : s.has p m with
    | false => rfl
    | true =>
      simp only [findFrom?, Option.map_eq_none_iff, List.findIdx?_eq_none_iff] at h
      obtain ⟨line, hline, hp⟩ := has_eq_true.1 hm
      have hmem : line ∈ s.lines.drop i := by
        refine List.mem_of_getElem? (i := m - i) ?_
        rw [List.getElem?_drop, show i + (m - i) = m by omega, hline]
      simp [h line hmem] at hp
  · intro h
    cases hfind : s.findFrom? p i with
    | none => rfl
    | some j =>
      obtain ⟨hij, hpj, -⟩ := findFrom?_eq_some_iff.1 hfind
      simp [h j hij] at hpj

theorem has_drop (s : Source) (p : Line → Bool) (i m : Nat) :
    (s.lines.drop i)[m]?.any p = s.has p (i + m) := by
  rw [has, List.getElem?_drop]

theorem has_not : s.has (fun line => !p line) i = (decide (i < s.size) && !s.has p i) := by
  rw [has, has, size]
  rcases Nat.lt_or_ge i s.lines.length with hi | hi
  · simp [hi]
  · simp [Nat.not_lt.2 hi]

/-! The end of a logical line. -/

/-- The lines from `i` up to `e` go on, and `e` is the first that does not. -/
structure GoesOnTo (s : Source) (i e : Nat) : Prop where
  le : i ≤ e
  lt_size : e < s.size
  goes_on : ∀ m, i ≤ m → m < e → s.has Line.continues m = true
  ends : e + 1 < s.size → s.has Line.continues e = false

theorem GoesOnTo.unique {e e' : Nat} (h : s.GoesOnTo i e) (h' : s.GoesOnTo i e') : e = e' := by
  rcases Nat.lt_trichotomy e e' with hlt | heq | hlt
  · have hon := h'.goes_on e h.le hlt
    have := h'.lt_size
    simp [h.ends (by omega)] at hon
  · exact heq
  · have hon := h.goes_on e' h'.le hlt
    have := h.lt_size
    simp [h'.ends (by omega)] at hon

theorem goesOnTo_logicalEnd (hi : i < s.size) : s.GoesOnTo i (s.logicalEnd i) := by
  obtain ⟨hrun, hend⟩ := any_getElem?_takeWhile Line.continues (s.lines.drop i)
  have hlen : ((s.lines.drop i).takeWhile Line.continues).length ≤ s.size - i := by
    simpa [size] using (List.takeWhile_sublist (l := s.lines.drop i) Line.continues).length_le
  simp only [has_drop] at hrun hend
  rw [logicalEnd, if_pos hi]
  constructor
  · omega
  · omega
  · intro m him hm
    have := hrun (m - i) (by omega)
    rwa [show i + (m - i) = m by omega] at this
  · intro hlt
    rwa [show min (i + ((s.lines.drop i).takeWhile Line.continues).length) (s.size - 1) =
      i + ((s.lines.drop i).takeWhile Line.continues).length by omega]

theorem logicalEnd_eq {e : Nat} (h : s.GoesOnTo i e) : s.logicalEnd i = e :=
  (goesOnTo_logicalEnd (Nat.lt_of_le_of_lt h.le h.lt_size)).unique h

/-! The reach of a statement. -/

/-- A statement of the given indentation, whose first logical line ends before `next`, reaches to
`stop`: up to the last line that belongs to it before another statement starts. -/
structure Reaches (s : Source) (depth next stop : Nat) : Prop where
  le : next ≤ stop
  inside : ∀ m, next ≤ m → m < stop → s.has (Line.leaves depth) m = false
  last : stop = next ∨ s.has (Line.belongsTo depth) (stop - 1) = true
  maximal : ∀ m, stop ≤ m → (∀ n, next ≤ n → n ≤ m → s.has (Line.leaves depth) n = false) →
    s.has (Line.belongsTo depth) m = false

theorem Reaches.unique {depth next stop stop' : Nat} (h : s.Reaches depth next stop)
    (h' : s.Reaches depth next stop') : stop = stop' := by
  rcases Nat.lt_trichotomy stop stop' with hlt | heq | hlt
  · have hlast := h'.last.resolve_left (by have := h.le; omega)
    have := h.maximal (stop' - 1) (by omega) fun n hn hle => h'.inside n hn (by omega)
    simp [this] at hlast
  · exact heq
  · have hlast := h.last.resolve_left (by have := h'.le; omega)
    have := h'.maximal (stop - 1) (by omega) fun n hn hle => h.inside n hn (by omega)
    simp [this] at hlast

theorem reaches_reach (s : Source) (depth next : Nat) :
    s.Reaches depth next (next + reach depth (s.lines.drop next)) := by
  have hstay := any_getElem?_takeWhile (fun line => !line.leaves depth) (s.lines.drop next)
  have hlast := any_getElem?_dropWhile_reverse (fun line => !line.belongsTo depth)
    ((s.lines.drop next).takeWhile fun line => !line.leaves depth)
  rw [reach]
  generalize hc : (s.lines.drop next).takeWhile (fun line => !line.leaves depth) = candidates
    at hstay hlast ⊢
  generalize (candidates.reverse.dropWhile fun line => !line.belongsTo depth).length = n at hlast ⊢
  obtain ⟨hn, hlast, hrest⟩ := hlast
  have hget : ∀ m < candidates.length, candidates[m]? = (s.lines.drop next)[m]? := by
    intro m hm
    have hpre : candidates <+: s.lines.drop next := hc ▸ List.takeWhile_prefix _
    rw [List.getElem?_eq_getElem hm, hpre.getElem hm,
      List.getElem?_eq_getElem (Nat.lt_of_lt_of_le hm hpre.length_le)]
  simp only [has_drop, has_not, Bool.and_eq_true, decide_eq_true_eq, Bool.not_eq_true',
    Bool.and_eq_false_imp, Bool.not_eq_false'] at hstay
  simp only [Bool.not_not] at hlast hrest
  constructor
  · omega
  · intro m hm hlt
    have := (hstay.1 (m - next) (by omega)).2
    rwa [show next + (m - next) = m by omega] at this
  · rcases Nat.eq_zero_or_pos n with hzero | hpos
    · exact .inl (by omega)
    · right
      have hlast := hlast.resolve_left (by omega)
      rw [hget _ (by omega), has_drop] at hlast
      rwa [show next + n - 1 = next + (n - 1) by omega]
  · intro m hm hnone
    rcases Nat.lt_or_ge (m - next) candidates.length with hlt | hge
    · have := hrest (m - next) (by omega)
      rw [hget _ hlt, has_drop] at this
      rwa [show next + (m - next) = m by omega] at this
    · rcases Nat.lt_or_ge (next + candidates.length) s.size with hin | hout
      · have := hstay.2 hin
        rw [hnone (next + candidates.length) (by omega) (by omega)] at this
        simp at this
      · exact has_of_size_le (by omega)

theorem reaches_statementStop (s : Source) (i : Nat) :
    s.Reaches (s.indentAt i) (s.logicalEnd i + 1) (s.statementStop i) :=
  s.reaches_reach (s.indentAt i) (s.logicalEnd i + 1)

theorem statementStop_eq {stop : Nat} (h : s.Reaches (s.indentAt i) (s.logicalEnd i + 1) stop) :
    s.statementStop i = stop := (s.reaches_statementStop i).unique h

/-! The end of the code of a statement. -/

/-- Up to `stop`, the code of the statement that starts at `first` ends before `e`. -/
structure CodeEnds (s : Source) (first stop e : Nat) : Prop where
  lt : first < e
  last : e = first + 1 ∨ e ≤ stop ∧ s.has (fun line => !line.isTrivia) (e - 1) = true
  rest : ∀ m, e ≤ m → m < stop → s.has (fun line => !line.isTrivia) m = false

theorem CodeEnds.unique {first stop e e' : Nat} (h : s.CodeEnds first stop e)
    (h' : s.CodeEnds first stop e') : e = e' := by
  rcases Nat.lt_trichotomy e e' with hlt | heq | hlt
  · obtain ⟨hle, hlast⟩ := h'.last.resolve_left (by have := h.lt; omega)
    simp [h.rest (e' - 1) (by omega) (by omega)] at hlast
  · exact heq
  · obtain ⟨hle, hlast⟩ := h.last.resolve_left (by have := h'.lt; omega)
    simp [h'.rest (e - 1) (by omega) (by omega)] at hlast

theorem codeEnds_codeStop (s : Source) (first stop : Nat) :
    s.CodeEnds first stop (s.codeStop first stop) := by
  have hspec := any_getElem?_dropWhile_reverse Line.isTrivia ((s.lines.take stop).drop (first + 1))
  have hget : ∀ m, first + 1 + m < stop →
      ((s.lines.take stop).drop (first + 1))[m]?.any (fun line => !line.isTrivia) =
        s.has (fun line => !line.isTrivia) (first + 1 + m) := by
    intro m hm
    rw [List.getElem?_drop, List.getElem?_take_of_lt hm, has]
  rw [codeStop]
  generalize hn : (((s.lines.take stop).drop (first + 1)).reverse.dropWhile Line.isTrivia).length = n
    at hspec ⊢
  obtain ⟨hle, hlast, hrest⟩ := hspec
  rw [List.length_drop, List.length_take] at hle
  constructor
  · omega
  · rcases Nat.eq_zero_or_pos n with hzero | hpos
    · exact .inl (by omega)
    · right
      have hlast := hlast.resolve_left (by omega)
      rw [hget _ (by omega)] at hlast
      rw [show first + 1 + n - 1 = first + 1 + (n - 1) by omega]
      exact ⟨by omega, hlast⟩
  · intro m hm hlt
    have := hrest (m - (first + 1)) (by omega)
    rw [hget _ (by omega)] at this
    rwa [show first + 1 + (m - (first + 1)) = m by omega] at this

theorem codeStop_eq {first stop e : Nat} (h : s.CodeEnds first stop e) :
    s.codeStop first stop = e := (s.codeEnds_codeStop first stop).unique h

end Source
end Offload
