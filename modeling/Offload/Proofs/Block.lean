import Offload.Proofs.Annotation
import Offload.Region

/-!
Blocks between markers. The search for the closing marker counts the blocks that are open. Behind an
annotation it starts with an opening marker, so the counter stays above zero until the block is
closed, and the block ends with the first line up to which as many blocks are closed as opened.
-/
namespace Offload

namespace Markers

/-- The line counts as an opening marker. -/
def opensAt (m : Markers) (line : Line) : Bool := !line.inString && m.opens line.text

/-- The line counts as a closing marker; one that is both counts as opening. -/
def closesAt (m : Markers) (line : Line) : Bool :=
  !line.inString && !m.opens line.text && m.closes line.text

/-- The counter behind a line. -/
def depthBehind (m : Markers) (depth : Int) (line : Line) : Int :=
  if m.opensAt line then depth + 1 else if m.closesAt line then depth - 1 else depth

/-- The counter behind several lines. -/
def depthAfter (m : Markers) (depth : Int) (lines : List Line) : Int :=
  lines.foldl m.depthBehind depth

variable {m : Markers} {line : Line}

theorem opensAt_of_closesAt (h : m.closesAt line = true) : m.opensAt line = false := by
  simp only [closesAt, Bool.and_eq_true, Bool.not_eq_true'] at h
  simp [opensAt, h.1.2]

theorem depthBehind_of_closesAt (h : m.closesAt line = true) (depth : Int) :
    m.depthBehind depth line = depth - 1 := by
  simp [depthBehind, opensAt_of_closesAt h, h]

/-- Only a closing marker makes the counter fall, and by one. -/
theorem le_depthBehind (h : m.closesAt line = false) (depth : Int) :
    depth ≤ m.depthBehind depth line := by
  unfold depthBehind
  split
  · omega
  · simp [h]

/-- An open block stays open behind each line that does not close it. -/
theorem depthBehind_pos {depth : Int} (hdepth : 0 < depth)
    (hopen : ¬ (m.closesAt line = true ∧ m.depthBehind depth line = 0)) :
    0 < m.depthBehind depth line := by
  by_cases hcloses : m.closesAt line = true
  · have hne : m.depthBehind depth line ≠ 0 := fun hzero => hopen ⟨hcloses, hzero⟩
    rw [depthBehind_of_closesAt hcloses] at hne ⊢
    omega
  · have hle := le_depthBehind (Bool.eq_false_iff.2 hcloses) depth
    omega

theorem depthAfter_eq (m : Markers) (depth : Int) (lines : List Line) :
    m.depthAfter depth lines = depth + lines.countP m.opensAt - lines.countP m.closesAt := by
  induction lines generalizing depth with
  | nil => simp [depthAfter]
  | cons line lines ih =>
    have hrest : m.depthAfter depth (line :: lines) =
        m.depthAfter (m.depthBehind depth line) lines := rfl
    rw [hrest, ih, List.countP_cons, List.countP_cons]
    by_cases hcloses : m.closesAt line = true
    · have hopens : ¬ m.opensAt line = true := by simp [opensAt_of_closesAt hcloses]
      rw [depthBehind_of_closesAt hcloses, if_neg hopens, if_pos hcloses]
      omega
    · unfold depthBehind
      by_cases hopens : m.opensAt line = true
      · rw [if_pos hopens, if_pos hopens, if_neg hcloses]
        omega
      · rw [if_neg hopens, if_neg hcloses, if_neg hopens, if_neg hcloses]
        omega

end Markers

namespace Region

open Markers

variable {m : Markers} {depth : Int} {lines : List Line} {k n : Nat}

/-- One step of the search. -/
theorem closingOffset?_cons (m : Markers) (depth : Int) (line : Line) (lines : List Line) :
    closingOffset? m depth (line :: lines) =
      if m.closesAt line = true ∧ m.depthBehind depth line = 0 then some 0
      else (closingOffset? m (m.depthBehind depth line) lines).map (· + 1) := by
  rw [closingOffset?]
  unfold depthBehind opensAt closesAt
  cases line.inString with
  | true => simp
  | false =>
    cases m.opens line.text with
    | true => simp
    | false => cases m.closes line.text <;> simp

/-- The search comes to line `n` with the counter at `depth`. It starts at the first line with zero,
and goes on behind each line that does not bring the counter back to zero. -/
inductive Visits (m : Markers) (lines : List Line) : Nat → Int → Prop
  | start : Visits m lines 0 0
  | next {n : Nat} {depth : Int} {line : Line} (h : Visits m lines n depth)
    (hline : lines[n]? = some line)
    (hopen : ¬ (m.closesAt line = true ∧ m.depthBehind depth line = 0)) :
    Visits m lines (n + 1) (m.depthBehind depth line)

/-- From each place it comes to, the search goes on as if it had started there. -/
theorem Visits.closingOffset?_eq (h : Visits m lines n depth) :
    closingOffset? m 0 lines = (closingOffset? m depth (lines.drop n)).map (· + n) := by
  induction h with
  | start => simp
  | @next n depth line _ hline hopen ih =>
    obtain ⟨hlt, rfl⟩ := List.getElem?_eq_some_iff.1 hline
    rw [ih, List.drop_eq_getElem_cons hlt, closingOffset?_cons, if_neg hopen, Option.map_map]
    congr 1
    funext offset
    simp only [Function.comp_apply]
    omega

/-- Behind an opening marker the counter is above zero wherever the search comes to. -/
theorem Visits.pos {first : Line} (h : Visits m (first :: lines) n depth)
    (hfirst : m.opensAt first = true) : n = 0 ∧ depth = 0 ∨ 0 < depth := by
  induction h with
  | start => exact .inl ⟨rfl, rfl⟩
  | @next n depth line _ hline hopen ih =>
    right
    rcases ih with ⟨rfl, rfl⟩ | hpos
    · obtain rfl : first = line := by simpa using hline
      simp [depthBehind, hfirst]
    · exact depthBehind_pos hpos hopen

/-- With blocks open, the search stops where the counter first reaches zero. -/
theorem closingOffset?_eq_some_iff (hdepth : 0 < depth) :
    closingOffset? m depth lines = some k ↔
      k < lines.length ∧ m.depthAfter depth (lines.take (k + 1)) = 0 ∧
        ∀ j ≤ k, m.depthAfter depth (lines.take j) ≠ 0 := by
  induction lines generalizing depth k with
  | nil => simp [closingOffset?]
  | cons line lines ih =>
    have htake : ∀ j, m.depthAfter depth ((line :: lines).take (j + 1)) =
        m.depthAfter (m.depthBehind depth line) (lines.take j) := fun j => rfl
    have hstart : m.depthAfter depth ((line :: lines).take 0) ≠ 0 := by
      change depth ≠ 0
      omega
    rw [closingOffset?_cons]
    by_cases hstop : m.closesAt line = true ∧ m.depthBehind depth line = 0
    · rw [if_pos hstop, htake]
      constructor
      · intro hk
        obtain rfl : 0 = k := Option.some.inj hk
        refine ⟨by simp, hstop.2, fun j hj => ?_⟩
        obtain rfl : j = 0 := by omega
        exact hstart
      · rintro ⟨-, -, hne⟩
        cases k with
        | zero => rfl
        | succ k =>
          have hone := hne 1 (by omega)
          rw [htake] at hone
          exact absurd hstop.2 hone
    · have hnext := depthBehind_pos hdepth hstop
      rw [if_neg hstop, htake, Option.map_eq_some_iff]
      constructor
      · rintro ⟨k, hk, rfl⟩
        obtain ⟨hlt, hend, hne⟩ := (ih hnext).1 hk
        refine ⟨by simpa using hlt, hend, fun j hj => ?_⟩
        cases j with
        | zero => exact hstart
        | succ j => exact htake j ▸ hne j (by omega)
      · rintro ⟨hlt, hend, hne⟩
        cases k with
        | zero =>
          change m.depthBehind depth line = 0 at hend
          omega
        | succ k =>
          refine ⟨k, (ih hnext).2 ⟨by simpa using hlt, hend, fun j hj => ?_⟩, rfl⟩
          exact htake j ▸ hne (j + 1) (by omega)

theorem depthAfter_take_succ (m : Markers) (depth : Int) {line : Line} {j : Nat}
    (hline : lines[j]? = some line) :
    m.depthAfter depth (lines.take (j + 1)) =
      m.depthBehind (m.depthAfter depth (lines.take j)) line := by
  rw [List.take_add_one, hline, Option.toList_some, depthAfter, List.foldl_append]
  rfl

/-- The counter cannot fall below zero without being zero in between. -/
theorem depthAfter_pos (hdepth : 0 < depth) (hk : k ≤ lines.length)
    (hne : ∀ j ≤ k, m.depthAfter depth (lines.take j) ≠ 0) :
    0 < m.depthAfter depth (lines.take k) := by
  induction k with
  | zero => exact hdepth
  | succ k ih =>
    have hpos := ih (by omega) fun j hj => hne j (by omega)
    have hstep := depthAfter_take_succ m depth
      (List.getElem?_eq_getElem (l := lines) (i := k) (by omega))
    have hend := hne (k + 1) (by omega)
    rw [hstep] at hend ⊢
    exact depthBehind_pos hpos fun hstop => hend hstop.2

/-! Blocks of a source. -/

/-- How many of the lines from `i` up to `j` have the property. -/
def count (s : Source) (p : Line → Bool) (i j : Nat) : Nat :=
  ((s.lines.drop i).take (j - i)).countP p

/-- Up to `c`, and not before, as many blocks are closed as are opened from `first` on. -/
structure ClosedAt (m : Markers) (s : Source) (first c : Nat) : Prop where
  le : first ≤ c
  lt_size : c < s.size
  even : count s m.closesAt first (c + 1) = count s m.opensAt first (c + 1)
  earliest : ∀ j, first ≤ j → j < c →
    count s m.closesAt first (j + 1) ≠ count s m.opensAt first (j + 1)

/-- Each block that is opened from `first` up to `stop` is closed there, and no other. -/
structure Balanced (m : Markers) (s : Source) (first stop : Nat) : Prop where
  even : count s m.closesAt first stop = count s m.opensAt first stop
  nested : ∀ j, first ≤ j → j ≤ stop → count s m.closesAt first j ≤ count s m.opensAt first j

/-- The line behind `line` is there and opens a block. -/
def Opened (m : Markers) (s : Source) (line : Nat) : Prop :=
  ∃ text, s.text? (line + 1) = some text ∧ m.opens text = true

variable {s : Source} {first : Line} {i c : Nat}

theorem count_succ_of_drop {p : Line → Bool} (hfirst : s.lines.drop i = first :: lines) (j : Nat) :
    count s p i (i + 1 + j) = (if p first then 1 else 0) + (lines.take j).countP p := by
  rw [count, hfirst, show i + 1 + j - i = j + 1 by omega, List.take_succ_cons, List.countP_cons]
  omega

theorem count_of_drop {p : Line → Bool} (hfirst : s.lines.drop i = first :: lines) (j : Nat) :
    count s p (i + 1) (i + 1 + j) = (lines.take j).countP p := by
  have hdrop : s.lines.drop (i + 1) = lines := by
    rw [← List.drop_drop, hfirst]
    rfl
  rw [count, hdrop, Nat.add_sub_cancel_left]

/-- Behind an opening marker the counter tells whether as many blocks are closed as opened. -/
theorem depthAfter_eq_zero_iff (hfirst : s.lines.drop i = first :: lines)
    (hopens : m.opensAt first = true) (j : Nat) :
    m.depthAfter 1 (lines.take j) = 0 ↔
      count s m.closesAt i (i + 1 + j) = count s m.opensAt i (i + 1 + j) := by
  have hcloses : ¬ m.closesAt first = true := fun hc => by simp [opensAt_of_closesAt hc] at hopens
  rw [depthAfter_eq, count_succ_of_drop hfirst, count_succ_of_drop hfirst, if_pos hopens,
    if_neg hcloses]
  omega

/-- The search stops at the line that closes the block, if there is one. -/
theorem closingOffset?_eq_some_iff_closedAt (hfirst : s.lines.drop i = first :: lines)
    (hopens : m.opensAt first = true) :
    closingOffset? m 0 (first :: lines) = some k ↔ ClosedAt m s i (i + k) := by
  have hsize : s.size = i + 1 + lines.length := by
    have hlength := congrArg List.length hfirst
    rw [List.length_drop, List.length_cons] at hlength
    unfold Source.size
    omega
  have hbehind : m.depthBehind 0 first = 1 := by simp [depthBehind, hopens]
  have hzero := depthAfter_eq_zero_iff hfirst hopens
  rw [closingOffset?_cons, hbehind, if_neg (by simp), Option.map_eq_some_iff]
  constructor
  · rintro ⟨k, hk, rfl⟩
    obtain ⟨hlt, hend, hne⟩ := (closingOffset?_eq_some_iff (by decide)).1 hk
    constructor
    · omega
    · omega
    · have heven := (hzero (k + 1)).1 hend
      rwa [show i + (k + 1) + 1 = i + 1 + (k + 1) by omega]
    · intro j hij hj
      have hodd := mt (hzero (j - i)).2 (hne (j - i) (by omega))
      rwa [show j + 1 = i + 1 + (j - i) by omega]
  · intro h
    cases k with
    | zero =>
      have hone := (hzero 0).2 h.even
      simp [depthAfter] at hone
    | succ k =>
      have hlt := h.lt_size
      refine ⟨k, (closingOffset?_eq_some_iff (by decide)).2 ⟨by omega, ?_, ?_⟩, rfl⟩
      · rw [hzero, show i + 1 + (k + 1) = i + (k + 1) + 1 by omega]
        exact h.even
      · intro j hj
        have hodd := h.earliest (i + j) (by omega) (by omega)
        rw [ne_eq, hzero, show i + 1 + j = i + j + 1 by omega]
        exact hodd

/-- The lines between two markers that belong to each other are balanced. -/
theorem ClosedAt.balanced (h : ClosedAt m s i c) (hfirst : s.lines.drop i = first :: lines)
    (hopens : m.opensAt first = true) : Balanced m s (i + 1) c := by
  obtain ⟨k, rfl⟩ : ∃ k, c = i + k := ⟨c - i, by have := h.le; omega⟩
  have hk := (closingOffset?_eq_some_iff_closedAt hfirst hopens).2 h
  have hbehind : m.depthBehind 0 first = 1 := by simp [depthBehind, hopens]
  rw [closingOffset?_cons, hbehind, if_neg (by simp), Option.map_eq_some_iff] at hk
  obtain ⟨k, hk, rfl⟩ := hk
  obtain ⟨hlt, hend, hne⟩ := (closingOffset?_eq_some_iff (by decide)).1 hk
  have hpos : ∀ j ≤ k, 0 < m.depthAfter 1 (lines.take j) := fun j hj =>
    depthAfter_pos (by decide) (by omega) fun n hn => hne n (by omega)
  have hstep := depthAfter_take_succ m 1 (List.getElem?_eq_getElem hlt)
  constructor
  · -- The last line takes the counter from one to zero.
    have hlast := hpos k (Nat.le_refl k)
    have hcloses : m.closesAt lines[k] = true := by
      by_contra hcloses
      have hle := le_depthBehind (Bool.eq_false_iff.2 hcloses) (m.depthAfter 1 (lines.take k))
      omega
    rw [depthBehind_of_closesAt hcloses, depthAfter_eq _ _ (lines.take k)] at hstep
    rw [show i + (k + 1) = i + 1 + k by omega, count_of_drop hfirst, count_of_drop hfirst]
    omega
  · intro j hij hj
    obtain ⟨n, rfl⟩ : ∃ n, j = i + 1 + n := ⟨j - (i + 1), by omega⟩
    have hn := hpos n (by omega)
    rw [depthAfter_eq] at hn
    rw [count_of_drop hfirst, count_of_drop hfirst]
    omega

/-- The block behind an annotation; a fault is reported at the annotation. -/
def blockAt (m : Markers) (s : Source) (line : Nat) : Except Error (Option Span) :=
  (block? m s line).mapError (.malformed line)

theorem blockAt_of_not_opened {line : Nat} (h : ¬ Opened m s line) : blockAt m s line = .ok none := by
  unfold blockAt block?
  split
  · rfl
  · next text htext =>
    rw [if_neg fun hopens => h ⟨text, htext, hopens⟩]
    rfl

theorem blockAt_of_closed {line : Nat} (h : Opened m s line)
    (hk : closingOffset? m 0 (s.lines.drop (line + 1)) = some k) :
    blockAt m s line = .ok (some ⟨line + 2, line + 1 + k⟩) := by
  obtain ⟨text, htext, hopens⟩ := h
  simp [blockAt, block?, htext, hopens, hk]

theorem blockAt_of_not_closed {line : Nat} (h : Opened m s line)
    (hnone : closingOffset? m 0 (s.lines.drop (line + 1)) = none) :
    blockAt m s line = .error (.malformed line (.unterminatedBlock (line + 1))) := by
  obtain ⟨text, htext, hopens⟩ := h
  simp [blockAt, block?, htext, hopens, hnone]

theorem blockAt_eq_none_iff {line : Nat} : blockAt m s line = .ok none ↔ ¬ Opened m s line := by
  refine ⟨fun hnone hopened => ?_, blockAt_of_not_opened⟩
  cases hk : closingOffset? m 0 (s.lines.drop (line + 1)) with
  | none => simp [blockAt_of_not_closed hopened hk] at hnone
  | some k => simp [blockAt_of_closed hopened hk] at hnone

section Opened

variable {line : Nat} (hopened : Opened m s line)
  (hfirst : s.lines.drop (line + 1) = first :: lines) (hopens : m.opensAt first = true)

include hfirst hopens in
theorem ClosedAt.closingOffset?_eq (h : ClosedAt m s (line + 1) c) :
    closingOffset? m 0 (s.lines.drop (line + 1)) = some (c - (line + 1)) := by
  rw [hfirst, closingOffset?_eq_some_iff_closedAt hfirst hopens, Nat.add_sub_cancel' h.le]
  exact h

include hopened hfirst hopens

theorem blockAt_eq_some_iff (span : Span) :
    blockAt m s line = .ok (some span) ↔
      span.start = line + 2 ∧ ClosedAt m s (line + 1) span.stop := by
  constructor
  · intro hspan
    cases hk : closingOffset? m 0 (s.lines.drop (line + 1)) with
    | none => simp [blockAt_of_not_closed hopened hk] at hspan
    | some k =>
      rw [blockAt_of_closed hopened hk] at hspan
      obtain rfl := Option.some.inj (Except.ok.inj hspan)
      rw [hfirst, closingOffset?_eq_some_iff_closedAt hfirst hopens] at hk
      exact ⟨rfl, hk⟩
  · rintro ⟨hstart, hstop⟩
    rw [blockAt_of_closed hopened (hstop.closingOffset?_eq hfirst hopens),
      Nat.add_sub_cancel' hstop.le, ← hstart]

theorem blockAt_eq_error_iff (e : Error) :
    blockAt m s line = .error e ↔
      e = .malformed line (.unterminatedBlock (line + 1)) ∧ ¬ ∃ c, ClosedAt m s (line + 1) c := by
  cases hk : closingOffset? m 0 (s.lines.drop (line + 1)) with
  | none =>
    have hnever : ¬ ∃ c, ClosedAt m s (line + 1) c := by
      rintro ⟨c, hc⟩
      simp [hc.closingOffset?_eq hfirst hopens] at hk
    rw [blockAt_of_not_closed hopened hk, Except.error.injEq, eq_comm]
    simp [hnever]
  | some k =>
    have hclosed : ∃ c, ClosedAt m s (line + 1) c := by
      rw [hfirst, closingOffset?_eq_some_iff_closedAt hfirst hopens] at hk
      exact ⟨_, hk⟩
    rw [blockAt_of_closed hopened hk]
    simp [hclosed]

end Opened

/-- What the markers behind line `line` say is what the search for a block gives. -/
structure FollowsMarkers (m : Markers) (s : Source) (line : Nat) : Prop where
  absent : blockAt m s line = .ok none ↔ ¬ Opened m s line
  present : Opened m s line → ∀ span, blockAt m s line = .ok (some span) ↔
    span.start = line + 2 ∧ ClosedAt m s (line + 1) span.stop
  balanced : Opened m s line → ∀ c, ClosedAt m s (line + 1) c → Balanced m s (line + 2) c
  unterminated : Opened m s line → ∀ e, blockAt m s line = .error e ↔
    e = .malformed line (.unterminatedBlock (line + 1)) ∧ ¬ ∃ c, ClosedAt m s (line + 1) c
  /-- Each place that the search comes to is one from which it goes on, and where it counts a
  closing marker the counter is above zero. -/
  counter : Opened m s line → ∀ n depth, Visits m (s.lines.drop (line + 1)) n depth →
    closingOffset? m 0 (s.lines.drop (line + 1)) =
      (closingOffset? m depth (s.lines.drop (line + 1 + n))).map (· + n) ∧
    (s.has m.closesAt (line + 1 + n) = true → 0 < depth)

end Region

namespace PragmaLine

variable {framework t : Text} {tabWidth : Nat} {a : PragmaLine}

/-- Outside a string, an annotation is a comment. -/
theorem kindOf_of_body? {carry : Carry} {text body : Text} (hq : carry.quote = none)
    (h : body? framework text = some body) : Line.kindOf carry text = .comment := by
  unfold body? at h
  split at h
  · next rest hrest => simp [Line.kindOf, hq, hrest]
  · simp at h

/-- The line behind an annotation does not start inside a string. -/
theorem inString_behind (ha : a ∈ scan framework (.ofText tabWidth t)) {line : Line}
    (hline : (Source.ofText tabWidth t).lines[a.line + 1]? = some line) :
    line.inString = false := by
  obtain ⟨own, hown, hstring, -, hbody⟩ := mem_scan.1 ha
  rw [Source.ofText, Line.getElem?_scan] at hown hline
  obtain ⟨text, htext, rfl⟩ := Option.map_eq_some_iff.1 hown
  obtain ⟨text', -, rfl⟩ := Option.map_eq_some_iff.1 hline
  obtain ⟨hlt, rfl⟩ := List.getElem?_eq_some_iff.1 htext
  have hquote : ((t.lines.take a.line).foldl Carry.next {}).quote = none := by
    simpa [Line.ofText] using hstring
  have hkind : Line.kindOf ((t.lines.take a.line).foldl Carry.next {}) t.lines[a.line] = .comment :=
    kindOf_of_body? hquote hbody
  have hnext := Carry.next_of_trivia hquote (ne_of_eq_of_ne hkind (by decide))
  have htake : t.lines.take (a.line + 1) = t.lines.take a.line ++ [t.lines[a.line]] := by simp
  change (((t.lines.take (a.line + 1)).foldl Carry.next {}).quote).isSome = false
  rw [htake, List.foldl_append, List.foldl_cons, List.foldl_nil, hnext]
  rfl

/-- A line behind an annotation that holds an opening marker counts as such. -/
theorem exists_opensAt (ha : a ∈ scan framework (.ofText tabWidth t)) {m : Markers}
    (hopened : Region.Opened m (.ofText tabWidth t) a.line) :
    ∃ first lines, (Source.ofText tabWidth t).lines.drop (a.line + 1) = first :: lines ∧
      m.opensAt first = true := by
  obtain ⟨text, htext, hopens⟩ := hopened
  obtain ⟨first, hfirst, rfl⟩ := Option.map_eq_some_iff.1 htext
  have hstring := inString_behind ha hfirst
  obtain ⟨hlt, rfl⟩ := List.getElem?_eq_some_iff.1 hfirst
  exact ⟨_, _, List.drop_eq_getElem_cons hlt, by simp [Markers.opensAt, hstring, hopens]⟩

/-- Behind an annotation, a block is found exactly when the next line opens one. It then ends at the
first line up to which as many blocks are closed as opened, with balanced lines in between, and it is
unterminated exactly when there is no such line. The counter of the search never falls below zero. -/
theorem block_follows_markers (m : Markers) (ha : a ∈ scan framework (.ofText tabWidth t)) :
    Region.FollowsMarkers m (.ofText tabWidth t) a.line := by
  constructor
  · exact Region.blockAt_eq_none_iff
  · intro hopened
    obtain ⟨first, rest, hfirst, hopens⟩ := exists_opensAt ha hopened
    exact Region.blockAt_eq_some_iff hopened hfirst hopens
  · intro hopened c hc
    obtain ⟨first, rest, hfirst, hopens⟩ := exists_opensAt ha hopened
    exact hc.balanced hfirst hopens
  · intro hopened
    obtain ⟨first, rest, hfirst, hopens⟩ := exists_opensAt ha hopened
    exact Region.blockAt_eq_error_iff hopened hfirst hopens
  · intro hopened n depth hvisits
    obtain ⟨first, rest, hfirst, hopens⟩ := exists_opensAt ha hopened
    have hon := hvisits.closingOffset?_eq
    rw [List.drop_drop] at hon
    refine ⟨hon, fun hcloses => ?_⟩
    rw [← Source.has_drop, hfirst] at hcloses
    rw [hfirst] at hvisits
    rcases hvisits.pos hopens with ⟨rfl, -⟩ | hpos
    · have hclosing : m.closesAt first = true := by simpa using hcloses
      simp [Markers.opensAt_of_closesAt hclosing] at hopens
    · exact hpos

/-- A block with another one inside it and a marker inside a string, then a block that is never
closed. -/
def blockText : Text := Text.unlines [
  "# acc data", "#\x7b", "x = '''", "#\x7d", "'''", "# acc parallel", "#\x7b", "y", "#\x7d", "#\x7d",
  "# acc atomic", "#\x7b"]

theorem blockText_follows_markers :
    (∃ a ∈ scan "acc" (.ofText 8 blockText), a.line = 0 ∧
      Region.ClosedAt {} (.ofText 8 blockText) 1 9 ∧ Region.Balanced {} (.ofText 8 blockText) 2 9) ∧
    ∃ a ∈ scan "acc" (.ofText 8 blockText), a.line = 10 ∧
      ¬ ∃ c, Region.ClosedAt {} (.ofText 8 blockText) 11 c := by
  have hscan : scan "acc" (.ofText 8 blockText) =
      [⟨0, "# acc data", "data"⟩, ⟨5, "# acc parallel", "parallel"⟩,
        ⟨10, "# acc atomic", "atomic"⟩] := by
    decide +kernel
  have hdata : (⟨0, "# acc data", "data"⟩ : PragmaLine) ∈ scan "acc" (.ofText 8 blockText) := by
    rw [hscan]
    simp
  have hatomic : (⟨10, "# acc atomic", "atomic"⟩ : PragmaLine) ∈
      scan "acc" (.ofText 8 blockText) := by
    rw [hscan]
    simp
  have hfound : Region.blockAt {} (.ofText 8 blockText) 0 = .ok (some ⟨2, 9⟩) := by decide +kernel
  have hlost : Region.blockAt {} (.ofText 8 blockText) 10 =
      .error (.malformed 10 (.unterminatedBlock 11)) := by decide +kernel
  have hopen : Region.Opened {} (.ofText 8 blockText) 0 := ⟨"#\x7b", by decide +kernel, by decide⟩
  have hopen' : Region.Opened {} (.ofText 8 blockText) 10 := ⟨"#\x7b", by decide +kernel, by decide⟩
  have hfirst := block_follows_markers {} hdata
  have hlast := block_follows_markers {} hatomic
  have hclosed := ((hfirst.present hopen _).1 hfound).2
  exact ⟨⟨_, hdata, rfl, hclosed, hfirst.balanced hopen 9 hclosed⟩, _, hatomic, rfl,
    ((hlast.unterminated hopen' _).1 hlost).2⟩

end PragmaLine
end Offload
