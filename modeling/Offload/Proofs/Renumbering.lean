import Offload.Proofs.Enclosure
import Offload.Proofs.Reading

/-!
Annotations and their regions in a source with one more line of trivia. Every annotation is found
again, and its region holds the same code; it holds the same annotations too, unless the statement
below takes in the new line.
-/
namespace Offload

open Outcome

namespace PragmaLine

/-- The same annotation after a line has been put in front of line `k`. -/
def shift (k : Nat) (a : PragmaLine) : PragmaLine := { a with line := shiftLine k a.line }

variable {config : Config} {s s' : Source} {k : Nat} {x : Line}

/-- The annotation that a numbered line is, if it is one. -/
def ofLine? (framework : Text) (entry : Line × Nat) : Option PragmaLine :=
  if entry.1.inString then none
  else (body? framework entry.1.text).map fun body => ⟨entry.2, entry.1.text, body⟩

theorem scan_eq (framework : Text) (s : Source) :
    scan framework s = s.lines.zipIdx.filterMap (ofLine? framework) := rfl

theorem shift_ofLine? (framework : Text) (k i : Nat) (line : Line) :
    (ofLine? framework (line, i)).map (shift k) = ofLine? framework (line, shiftLine k i) := by
  unfold ofLine?
  split
  · rfl
  · cases body? framework line.text <;> rfl

theorem shift_filterMap (framework : Text) (k : Nat) (lines : List (Line × Nat)) :
    (lines.filterMap (ofLine? framework)).map (shift k) =
      (lines.map fun (line, i) => (line, shiftLine k i)).filterMap (ofLine? framework) := by
  rw [List.map_filterMap, List.filterMap_map]
  congr 1
  funext ⟨line, i⟩
  exact shift_ofLine? framework k i line

/-- Annotations are found again under their new numbers. -/
theorem scan_shift (h : Source.Inserted s s' k x) {framework : Text}
    (hx : body? framework x.text = none) :
    scan framework s' = (scan framework s).map (shift k) := by
  have hlen := h.length_take
  have hsplit : s.lines.zipIdx = (s.lines.take k).zipIdx ++ (s.lines.drop k).zipIdx k := by
    have happend : (s.lines.take k ++ s.lines.drop k).zipIdx =
        (s.lines.take k).zipIdx ++ (s.lines.drop k).zipIdx (0 + (s.lines.take k).length) :=
      List.zipIdx_append
    rwa [List.take_append_drop, hlen, Nat.zero_add] at happend
  have habove : (s.lines.take k).zipIdx.map (fun (line, i) => (line, shiftLine k i)) =
      (s.lines.take k).zipIdx := by
    refine (List.map_congr_left fun ⟨line, i⟩ hmem => ?_).trans (List.map_id _)
    have hi := List.snd_lt_of_mem_zipIdx hmem
    simp only [hlen, Nat.add_zero] at hi
    simp only [shiftLine_of_lt hi, id]
  have hbelow : ((s.lines.drop k).zipIdx k).map (fun (line, i) => (line, shiftLine k i)) =
      (s.lines.drop k).zipIdx (k + 1) := by
    rw [List.zipIdx_succ]
    refine List.map_congr_left fun ⟨line, i⟩ hmem => ?_
    have hi := (List.mk_mem_zipIdx_iff_le_and_getElem?_sub.1 hmem).1
    simp only [shiftLine_of_le hi]
  have hnone : ofLine? framework (x, k) = none := by
    simp [ofLine?, hx]
  rw [scan_eq, scan_eq, shift_filterMap, hsplit, List.map_append, habove, hbelow, h.lines,
    List.zipIdx_append, hlen, Nat.zero_add, List.zipIdx_cons, List.filterMap_append,
    List.filterMap_append, List.filterMap_cons_none hnone]

end PragmaLine

namespace Region

open Source

variable {m : Markers} {s s' : Source} {k line : Nat} {x : Line}

/-- The statement below an annotation, which ends with the region, takes in the new line. -/
def TakesIn (s : Source) (k : Nat) (x : Line) (line : Nat) (r : Region) : Prop :=
  r.delimited = false ∧ ∃ first, s.findFrom? (fun l => !l.isTrivia) (line + 1) = some first ∧
    Inserted.TakesIn s k x (s.indentAt first) r.span.stop

/-- Two regions of one annotation. They hold the same lines, or else the second reaches to the new
line. -/
structure Alike (s : Source) (k : Nat) (x : Line) (line : Nat) (r r' : Region) : Prop where
  code : Inserted.SameCode s k r.span r'.span
  stop : (¬ TakesIn s k x line r ∧ ∀ j, shiftLine k j < r'.span.stop ↔ j < r.span.stop) ∨
    (TakesIn s k x line r ∧ r'.span.stop = k + 1)

theorem follows_scope (h : Inserted s s' k x) (line : Nat) :
    Follows (fun span span' => Alike s k x line ⟨span, false⟩ ⟨span', false⟩)
      (scope s line) (scope s' (shiftLine k line)) := by
  have hx : (!x.isTrivia) = false := by simp [h.trivia]
  have hstart : ∀ j, line + 1 ≤ j ↔ shiftLine k line + 1 ≤ shiftLine k j := fun _ =>
    shiftLine_lt_shiftLine.symm
  have hfind := h.findFrom?_shift (p := fun l => !l.isTrivia) hx hstart
  unfold scope
  rw [hfind]
  cases hfirst : s.findFrom? (fun l => !l.isTrivia) (line + 1) with
  | none => exact .error _ _
  | some first =>
    obtain ⟨-, hhas, -⟩ := findFrom?_eq_some_iff.1 hfirst
    have hsize := lt_size_of_has hhas
    simp only [Option.map_some, h.indentAt_shift]
    split
    · exact .error _ _
    · refine .ok ⟨⟨fun j => shiftLine_lt_shiftLine.symm, ?_⟩, ?_⟩
      · intro j hj
        rw [has_not, Bool.and_eq_true, Bool.not_eq_true'] at hj
        exact h.lt_statementStop_shift hsize hj.2
      · rcases h.statementStop_shift hsize with ⟨htakes, hstop⟩ | ⟨htakes, hstop⟩
        · exact .inr ⟨⟨rfl, first, hfirst, htakes⟩, hstop⟩
        · refine .inl ⟨?_, fun j => ?_⟩
          · rintro ⟨-, other, hother, hin⟩
            obtain rfl : other = first := Option.some.inj (hother.symm.trans hfirst)
            exact htakes hin
          · simp only [hstop]
            rw [← Nat.not_le, shiftStop_le_shiftLine, Nat.not_le]

/-- A line that is no marker moves the closing marker by one, if it comes first. -/
theorem closingOffset?_insert (hstring : x.inString = false) (hopens : m.opens x.text = false)
    (hcloses : m.closes x.text = false) (depth : Int) (above below : List Line) :
    closingOffset? m depth (above ++ x :: below) =
      (closingOffset? m depth (above ++ below)).map (shiftLine above.length) := by
  induction above generalizing depth with
  | nil =>
    simp only [List.nil_append, List.length_nil, closingOffset?, hstring, hopens, hcloses]
    rfl
  | cons l above ih =>
    have hsucc : ∀ o : Option Nat, (o.map (shiftLine above.length)).map (· + 1) =
        (o.map (· + 1)).map (shiftLine (above.length + 1)) := by
      intro o
      cases o with
      | none => rfl
      | some n =>
        simp only [Option.map_some, shiftLine]
        split <;> split <;> first | rfl | omega
    simp only [List.cons_append, List.length_cons, closingOffset?, ih, hsucc]
    split
    · rfl
    · split
      · rfl
      · split
        · split
          · simp [shiftLine]
          · rfl
        · rfl

theorem closingOffset?_shift (h : Inserted s s' k x) (hopens : m.opens x.text = false)
    (hcloses : m.closes x.text = false) (i : Nat) (depth : Int) :
    (closingOffset? m depth (s'.lines.drop (shiftLine k i))).map (shiftLine k i + ·) =
      (closingOffset? m depth (s.lines.drop i)).map fun o => shiftLine k (i + o) := by
  have hlen := h.length_take
  have hstring := h.not_inString
  rcases Nat.lt_or_ge i k with hlt | hge
  · have hbefore : s.lines.drop i = (s.lines.take k).drop i ++ s.lines.drop k := by
      rw [← List.drop_append_of_le_length (by omega), List.take_append_drop]
    have hafter : s'.lines.drop i = (s.lines.take k).drop i ++ x :: s.lines.drop k := by
      rw [h.lines, List.drop_append_of_le_length (by omega)]
    have hdrop : ((s.lines.take k).drop i).length = k - i := by
      rw [List.length_drop, hlen]
    rw [shiftLine_of_lt hlt, hbefore, hafter, closingOffset?_insert hstring hopens hcloses, hdrop,
      Option.map_map]
    congr 1
    funext o
    simp only [Function.comp, shiftLine]
    split <;> split <;> omega
  · have hafter : s'.lines.drop (i + 1) = s.lines.drop i := by
      rw [h.lines, List.drop_append, hlen, List.drop_eq_nil_of_le (by omega),
        show i + 1 - k = (i - k) + 1 by omega, List.drop_succ_cons, List.drop_drop,
        show k + (i - k) = i by omega, List.nil_append]
    rw [shiftLine_of_le hge, hafter]
    congr 1
    funext o
    rw [shiftLine_of_le (by omega)]
    omega

/-- The block of an annotation has the same lines between its markers. -/
theorem follows_block? (h : Inserted s s' k x) (hopens : m.opens x.text = false)
    (hcloses : m.closes x.text = false) (hnext : line + 1 ≠ k) :
    Follows (Option.Rel fun span span' => Alike s k x line ⟨span, true⟩ ⟨span', true⟩)
      (block? m s line) (block? m s' (shiftLine k line)) := by
  have hstep : shiftLine k line + 1 = shiftLine k (line + 1) := by
    unfold shiftLine
    split <;> split <;> omega
  have htext := h.text?_shift (line + 1)
  have hclosing := closingOffset?_shift h hopens hcloses (line + 1) 0
  unfold block?
  rw [show shiftLine k line + 2 = shiftLine k (line + 1) + 1 by omega, hstep, htext]
  cases s.text? (line + 1) with
  | none => exact .ok .none
  | some text =>
    simp only
    split
    · generalize closingOffset? m 0 (s.lines.drop (line + 1)) = o at hclosing ⊢
      generalize closingOffset? m 0 (s'.lines.drop (shiftLine k (line + 1))) = o' at hclosing ⊢
      cases o with
      | none => exact .error _ _
      | some offset =>
        obtain ⟨offset', rfl, hoffset⟩ := Option.map_eq_some_iff.1 hclosing
        simp only [hoffset]
        have hstop : ∀ j, shiftLine k j < shiftLine k (line + 1 + offset) ↔
            j < line + 1 + offset := fun j => shiftLine_lt_shiftLine
        refine .ok (.some ⟨⟨fun j => ?_, fun j _ => hstop j⟩, .inl ⟨?_, hstop⟩⟩)
        · exact shiftLine_lt_shiftLine.symm
        · rintro ⟨hfalse, -⟩
          simp at hfalse
    · exact .ok .none

/-- An annotation that has a region has it again. -/
theorem follows_find (h : Inserted s s' k x) (hopens : m.opens x.text = false)
    (hcloses : m.closes x.text = false) (hnext : line + 1 ≠ k) (kind : DirectiveKind) :
    Follows (Option.Rel (Alike s k x line)) (find m s kind line)
      (find m s' kind (shiftLine k line)) := by
  unfold find
  cases kind.strategy with
  | none => exact .ok .none
  | scope => exact .bind (follows_scope h line) fun span span' hs => .ok (.some hs)
  | scopeOrBlock =>
    refine .bind (follows_block? h hopens hcloses hnext) fun block block' hb => ?_
    cases hb with
    | some hs => exact .ok (.some hs)
    | none => exact .bind (follows_scope h line) fun span span' hs => .ok (.some hs)

end Region

theorem PragmaLine.follows_region {config : Config} {s s' : Source} {k line : Nat} {x : Line}
    (h : Source.Inserted s s' k x) (hopens : config.markers.opens x.text = false)
    (hcloses : config.markers.closes x.text = false) (hnext : line + 1 ≠ k) (p : Pragma) :
    Follows (Option.Rel (Region.Alike s k x line)) (region config s line p)
      (region config s' (shiftLine k line) p) := by
  unfold region
  split
  · exact .bind (Region.follows_scope h line) fun span span' hs => .ok (.some hs)
  · exact Region.follows_find h hopens hcloses hnext p.kind

end Offload
