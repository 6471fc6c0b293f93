import Offload.Proofs.Indentation
import Mathlib.Data.List.Forall2

/-!
Blocks moved to the left margin. All lines lose the same number of spaces, as many as there are in
front of the line that stands furthest left. This determines what is left of the block, so moving
it once more, or moving it from further right, leads to the same lines.
-/
namespace Offload.Text

variable {ls out out' : List Text} {l t : Text} {m m' : Nat}

/-- What a line becomes when a margin is taken off: a blank line becomes empty. -/
def Stripped (m : Nat) (line out : Text) : Prop :=
  if blank line then out = [] else line = spaces m ++ out

/-- The lines of a block without a margin that all of them have, of which one has no more. -/
structure Justified (m : Nat) (ls out : List Text) : Prop where
  stripped : List.Forall₂ (Stripped m) ls out
  flush : (∃ l ∈ out, blank l = false) → ∃ l ∈ out, blank l = false ∧ l.head? ≠ some ' '

theorem leadingSpaces_append_spaces (n : Nat) (t : Text) :
    leadingSpaces (spaces n ++ t) = n + leadingSpaces t := by
  have hall : ∀ c ∈ spaces n, (c == ' ') = true := by simp [spaces]
  rw [leadingSpaces, List.takeWhile_append_of_pos hall, List.length_append, leadingSpaces]
  simp [spaces]

theorem leadingSpaces_eq_zero (h : t.head? ≠ some ' ') : leadingSpaces t = 0 := by
  cases t with
  | nil => rfl
  | cons c cs =>
    have hc : c ≠ ' ' := by simpa using h
    simp [leadingSpaces, hc]

theorem blank_spaces_append (n : Nat) (t : Text) : blank (spaces n ++ t) = blank t := by
  rw [blank_append, blank_spaces, Bool.true_and]

theorem Stripped.blank_eq (h : Stripped m l t) : blank t = blank l := by
  unfold Stripped at h
  split at h
  · next hblank => rw [h, hblank]; rfl
  · rw [h, blank_spaces_append]

theorem Stripped.of_solid (h : Stripped m l t) (hsolid : blank t = false) :
    l = spaces m ++ t := by
  rw [h.blank_eq] at hsolid
  simpa [Stripped, hsolid] using h

/-- Some line has no more than the common margin. -/
theorem exists_commonMargin (hl : l ∈ ls) (hsolid : blank l = false) :
    ∃ l' ∈ ls, blank l' = false ∧ leadingSpaces l' = commonMargin ls := by
  have hne : (ls.filter fun line => !blank line).map leadingSpaces ≠ [] := by
    rw [Ne, List.map_eq_nil_iff]
    exact List.ne_nil_of_mem (List.mem_filter.2 ⟨hl, by simp [hsolid]⟩)
  obtain ⟨n, hn⟩ := Option.ne_none_iff_exists'.1 (mt List.min?_eq_none_iff.1 hne)
  obtain ⟨l', hl', heq⟩ := List.mem_map.1 (List.min?_eq_some_iff.1 hn).1
  rw [List.mem_filter, Bool.not_eq_true'] at hl'
  exact ⟨l', hl'.1, hl'.2, by rw [heq, commonMargin, hn, Option.getD_some]⟩

theorem stripped_moved (hl : l ∈ ls) : Stripped (commonMargin ls) l (moved (commonMargin ls) l) := by
  unfold Stripped moved
  split
  · rfl
  · next hsolid => rw [spaces_append_drop (commonMargin_le hl (by simpa using hsolid))]

theorem justified_unindent (ls : List Text) : Justified (commonMargin ls) ls (unindent ls) where
  stripped := by
    rw [unindent_eq, List.forall₂_map_right_iff, List.forall₂_same]
    exact fun l hl => stripped_moved hl
  flush := by
    rintro ⟨t, ht, hsolid⟩
    obtain ⟨l, hl, rfl⟩ := List.mem_map.1 ht
    have hsolid' : blank l = false := by
      rw [← (stripped_moved hl).blank_eq]
      exact hsolid
    obtain ⟨l', hl', hsolid', hleast⟩ := exists_commonMargin hl hsolid'
    have hmoved : moved (commonMargin ls) l' = l'.drop (commonMargin ls) := by simp [moved, hsolid']
    refine ⟨moved (commonMargin ls) l', List.mem_map_of_mem hl', ?_, ?_⟩
    · rw [(stripped_moved hl').blank_eq, hsolid']
    · rw [hmoved, Ne, head?_drop_eq_space_iff hleast.ge]
      omega

theorem exists_rel_right {α β : Type} {R : α → β → Prop} {xs : List α} {ys : List β} {x : α}
    (h : List.Forall₂ R xs ys) (hx : x ∈ xs) : ∃ y ∈ ys, R x y := by
  induction h with
  | nil => simp at hx
  | cons hhead _ ih =>
    rcases List.mem_cons.1 hx with rfl | hx
    · exact ⟨_, List.mem_cons_self, hhead⟩
    · obtain ⟨y, hy, hrel⟩ := ih hx
      exact ⟨y, List.mem_cons_of_mem _ hy, hrel⟩

theorem exists_rel_left {α β : Type} {R : α → β → Prop} {xs : List α} {ys : List β} {y : β}
    (h : List.Forall₂ R xs ys) (hy : y ∈ ys) : ∃ x ∈ xs, R x y :=
  exists_rel_right (R := flip R) (List.Forall₂.flip h) hy

/-- No margin that all lines have is larger. -/
theorem Justified.margin_le (h : Justified m ls out) (h' : Justified m' ls out') (hl : l ∈ ls)
    (hsolid : blank l = false) : m' ≤ m := by
  obtain ⟨t, ht, hstripped⟩ := exists_rel_right h.stripped hl
  obtain ⟨t, ht, hsolid, hflush⟩ := h.flush ⟨t, ht, by rw [hstripped.blank_eq, hsolid]⟩
  obtain ⟨l, hl, hstripped⟩ := exists_rel_left h.stripped ht
  obtain ⟨t', -, hstripped'⟩ := exists_rel_right h'.stripped hl
  have hleft : leadingSpaces l = m := by
    rw [hstripped.of_solid hsolid, leadingSpaces_append_spaces, leadingSpaces_eq_zero hflush]
    omega
  have hright : leadingSpaces l = m' + leadingSpaces t' := by
    have hsolid' : blank t' = false := by rw [hstripped'.blank_eq, ← hstripped.blank_eq, hsolid]
    rw [hstripped'.of_solid hsolid', leadingSpaces_append_spaces]
  omega

theorem Stripped.unique {t' : Text} (h : Stripped m l t) (h' : Stripped m' l t')
    (hmargin : blank l = false → m = m') : t = t' := by
  unfold Stripped at h h'
  cases hblank : blank l with
  | true =>
    rw [if_pos hblank] at h h'
    rw [h, h']
  | false =>
    rw [if_neg (by simp [hblank])] at h h'
    rw [h, ← hmargin hblank] at h'
    exact List.append_cancel_left h'

theorem eq_of_stripped (h : List.Forall₂ (Stripped m) ls out)
    (h' : List.Forall₂ (Stripped m') ls out') (hmargin : ∀ l ∈ ls, blank l = false → m = m') :
    out = out' := by
  induction h generalizing out' with
  | nil => exact (List.forall₂_nil_left_iff.1 h').symm
  | @cons l t ls out hhead _ ih =>
    obtain ⟨t', rest, hhead', hrest, rfl⟩ := List.forall₂_cons_left_iff.1 h'
    obtain ⟨hl, hls⟩ := List.forall_mem_cons.1 hmargin
    rw [hhead.unique hhead' hl, ih hrest hls]

/-- What is left of a block is determined by the block. -/
theorem Justified.unique (h : Justified m ls out) (h' : Justified m' ls out') : out = out' :=
  eq_of_stripped h.stripped h'.stripped fun _ hl hsolid =>
    Nat.le_antisymm (h'.margin_le h hl hsolid) (h.margin_le h' hl hsolid)

/-- A line moved to the right; a blank one stays as it is. -/
def movedRight (n : Nat) (line : Text) : Text := if blank line then line else spaces n ++ line

theorem Justified.movedRight (h : Justified m ls out) (n : Nat) :
    Justified (n + m) (ls.map (movedRight n)) out where
  stripped := by
    rw [List.forall₂_map_left_iff]
    refine h.stripped.imp fun l t hstripped => ?_
    unfold Stripped at hstripped ⊢
    unfold Text.movedRight
    cases hblank : blank l with
    | true => simpa [hblank] using hstripped
    | false =>
      simp only [hblank, Bool.false_eq_true, if_false, blank_spaces_append] at hstripped ⊢
      rw [hstripped, spaces, spaces, spaces, ← List.append_assoc, List.replicate_append_replicate]
  flush := h.flush

/-- A block that is flush already has no margin to lose. -/
theorem Justified.again (h : Justified m ls out) : Justified 0 out out where
  stripped := by
    refine List.forall₂_same.2 fun t ht => ?_
    obtain ⟨l, -, hstripped⟩ := exists_rel_left h.stripped ht
    unfold Stripped
    split
    · next hblank =>
      rw [hstripped.blank_eq] at hblank
      simpa [Stripped, hblank] using hstripped
    · rfl
  flush := h.flush

/-- Moving a block to the left takes one margin off all of its lines and nothing else. -/
theorem unindent_justifies (ls : List Text) :
    (∃ m, Justified m ls (unindent ls)) ∧ unindent (unindent ls) = unindent ls ∧
      ∀ n, unindent (ls.map (movedRight n)) = unindent ls := by
  have hjustified := justified_unindent ls
  refine ⟨⟨commonMargin ls, hjustified⟩, ?_, fun n => ?_⟩
  · exact (justified_unindent (unindent ls)).unique hjustified.again
  · exact (justified_unindent (ls.map (movedRight n))).unique (hjustified.movedRight n)

end Offload.Text
