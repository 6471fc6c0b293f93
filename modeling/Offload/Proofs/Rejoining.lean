import Offload.Proofs.Pieces

/-!
Splitting loses nothing. The pieces of a text, joined with the separator, are the text again; none
of them can be split further, and behind each but the last all brackets are closed. There is only
one way to split a text like that. The items of a list of arguments come back from the joined list, also
where the brackets of the text are not balanced: a bracket that stays open is in the last item.
-/
namespace Offload

namespace Text

variable {separator : Char} {depth : Nat} {t first next : Text} {more pieces : List Text}

/-- The pieces between the separators that stand outside all brackets. -/
structure Splitting (separator : Char) (t : Text) (pieces : List Text) : Prop where
  nonempty : pieces ≠ []
  joined : join [separator] pieces = t
  whole : ∀ piece ∈ pieces, splitOutside separator piece = [piece]
  /-- The depth that the text has reached behind a piece that is not the last one. -/
  level : ∀ i < pieces.length - 1, depthAfter 0 (join [separator] (pieces.take (i + 1))) = 0

instance : Decidable (Splitting separator t pieces) :=
  decidable_of_iff
    (pieces ≠ [] ∧ join [separator] pieces = t ∧
      (∀ piece ∈ pieces, splitOutside separator piece = [piece]) ∧
      ∀ i < pieces.length - 1, depthAfter 0 (join [separator] (pieces.take (i + 1))) = 0)
    ⟨fun ⟨hne, hjoin, hwhole, hlevel⟩ => ⟨hne, hjoin, hwhole, hlevel⟩,
      fun h => ⟨h.nonempty, h.joined, h.whole, h.level⟩⟩

/-- The first of several pieces ends at a separator outside all brackets, and the others are those
of the rest. -/
theorem exists_rest_of_splitAtDepth (h : splitAtDepth separator depth t = first :: next :: more) :
    isOpening separator = false ∧ isClosing separator = false ∧ depthAfter depth first = 0 ∧
      ∃ rest, splitAtDepth separator 0 rest = next :: more := by
  induction t generalizing depth first with
  | nil => simp [splitAtDepth] at h
  | cons c cs ih =>
    rw [splitAtDepth_cons] at h
    split at h
    · next hsplits =>
      obtain ⟨rfl, hrest⟩ := List.cons.inj h
      obtain ⟨rfl, hopen, hclose⟩ := plain_of_splitsAt hsplits
      obtain rfl := eq_of_splitsAt hsplits
      exact ⟨hopen, hclose, rfl, cs, hrest⟩
    · obtain ⟨head, tail, hsplit⟩ := exists_splitAtDepth separator (bracketStep depth c) cs
      rw [hsplit, consHead] at h
      obtain ⟨rfl, rfl⟩ := List.cons.inj h
      obtain ⟨hopen, hclose, hhead, hrest⟩ := ih hsplit
      exact ⟨hopen, hclose, hhead, hrest⟩

/-- A piece that closes its brackets does not count for the depth behind the pieces after it. -/
theorem depthAfter_join_cons_cons (hopen : isOpening separator = false)
    (hclose : isClosing separator = false) (hfirst : depthAfter depth first = 0) (next : Text)
    (more : List Text) :
    depthAfter depth (join [separator] (first :: next :: more)) =
      depthAfter 0 (join [separator] (next :: more)) := by
  rw [join_cons_cons, depthAfter_append, depthAfter_append, hfirst]
  exact congrArg (depthAfter · _) (bracketStep_of_plain hopen hclose 0)

theorem level_of_splitAtDepth (h : splitAtDepth separator depth t = pieces) {i : Nat}
    (hi : i < pieces.length - 1) :
    depthAfter depth (join [separator] (pieces.take (i + 1))) = 0 := by
  induction pieces generalizing depth t i with
  | nil => simp at hi
  | cons first more ih =>
    cases more with
    | nil => simp at hi
    | cons next more =>
      obtain ⟨hopen, hclose, hfirst, rest, hrest⟩ := exists_rest_of_splitAtDepth h
      cases i with
      | zero => simpa [join] using hfirst
      | succ i =>
        have hmore : i < (next :: more).length - 1 := by simpa using hi
        rw [List.take_succ_cons, List.take_succ_cons,
          depthAfter_join_cons_cons hopen hclose hfirst, ← List.take_succ_cons]
        exact ih hrest hmore

theorem closed_of_splitOutside (h : splitOutside separator t = pieces) :
    ∀ piece ∈ pieces.dropLast, depthAfter 0 piece = 0 := by
  induction pieces generalizing t with
  | nil => simp
  | cons first more ih =>
    cases more with
    | nil => simp
    | cons next more =>
      obtain ⟨-, -, hfirst, rest, hrest⟩ := exists_rest_of_splitAtDepth h
      exact List.forall_mem_cons.2 ⟨hfirst, ih hrest⟩

theorem splitOutside_of_mem {piece : Text} (h : piece ∈ splitOutside separator t) :
    splitOutside separator piece = [piece] := by
  obtain ⟨first, more, hsplit⟩ := exists_splitAtDepth separator 0 t
  rw [splitOutside, hsplit] at h
  exact List.forall_mem_cons.2 (whole_of_splitAtDepth hsplit) piece h

theorem splitting_splitOutside (separator : Char) (t : Text) :
    Splitting separator t (splitOutside separator t) where
  nonempty := splitAtDepth_ne_nil separator 0 t
  joined := join_splitAtDepth separator 0 t
  whole := fun _ hpiece => splitOutside_of_mem hpiece
  level := fun _ hi => level_of_splitAtDepth rfl hi

/-- What follows the first piece is split like a text of its own. -/
theorem Splitting.tail (hopen : isOpening separator = false) (hclose : isClosing separator = false)
    (h : Splitting separator t (first :: next :: more)) :
    depthAfter 0 first = 0 ∧
      Splitting separator (join [separator] (next :: more)) (next :: more) := by
  have hfirst : depthAfter 0 first = 0 := by
    have hlevel := h.level 0 (by simp)
    simpa [join] using hlevel
  refine ⟨hfirst, by simp, rfl, (List.forall_mem_cons.1 h.whole).2, fun i hi => ?_⟩
  have hlevel := h.level (i + 1) (by simpa using hi)
  rwa [List.take_succ_cons, List.take_succ_cons, depthAfter_join_cons_cons hopen hclose hfirst,
    ← List.take_succ_cons] at hlevel

theorem Splitting.eq_splitOutside (h : Splitting separator t pieces)
    (hopen : isOpening separator = false) (hclose : isClosing separator = false) :
    pieces = splitOutside separator t := by
  induction pieces generalizing t with
  | nil => exact absurd rfl h.nonempty
  | cons first more ih =>
    have hwhole : splitAtDepth separator 0 first = [first] := h.whole first List.mem_cons_self
    cases more with
    | nil =>
      have hjoin : first = t := by simpa [join] using h.joined
      rw [splitOutside, ← hjoin, hwhole]
    | cons next more =>
      obtain ⟨hfirst, htail⟩ := h.tail hopen hclose
      have hsplit : next :: more = splitAtDepth separator 0 (join [separator] (next :: more)) :=
        ih htail
      have hjoin := h.joined
      rw [join_cons_cons, List.append_assoc, List.singleton_append] at hjoin
      rw [splitOutside, ← hjoin, splitAtDepth_append_cons hopen hclose hfirst, hwhole, ← hsplit,
        List.singleton_append]

end Text

open Text

/-- Only the last item of a list can leave a bracket open. -/
theorem closed_of_argumentItems (t : Text) :
    ∀ item ∈ (argumentItems t).dropLast, depthAfter 0 item = 0 := by
  rcases List.eq_nil_or_concat' (t.splitOutside ',') with hnil | ⟨front, last, hsplit⟩
  · exact absurd hnil (splitAtDepth_ne_nil ',' 0 t)
  · have hclosed := closed_of_splitOutside hsplit
    rw [List.dropLast_concat] at hclosed
    have hitems : argumentItems t = ((front.map trim).filter fun item => !item.isEmpty) ++
        [trim last].filter fun item => !item.isEmpty := by
      rw [argumentItems, hsplit, List.map_append, List.filter_append, List.map_singleton]
    have hfront : ∀ item ∈ (argumentItems t).dropLast,
        item ∈ (front.map trim).filter fun item => !item.isEmpty := by
      intro item hitem
      cases hlast : (trim last).isEmpty with
      | true =>
        rw [hitems, List.filter_singleton, hlast] at hitem
        simpa using List.dropLast_subset _ hitem
      | false =>
        rw [hitems, List.filter_singleton, hlast] at hitem
        simpa using hitem
    intro item hitem
    obtain ⟨piece, hpiece, rfl⟩ := List.mem_map.1 (List.mem_filter.1 (hfront item hitem)).1
    rw [depthAfter_trim]
    exact hclosed piece hpiece

theorem argumentItems_join_argumentItems (t : Text) :
    argumentItems (join ", " (argumentItems t)) = argumentItems t := by
  have hitem : ∀ item ∈ argumentItems t, (item ≠ [] ∧ trim item = item) ∧ Whole ',' 0 item := by
    intro item hitem
    obtain ⟨hmem, hne⟩ := List.mem_filter.1 hitem
    obtain ⟨piece, hpiece, rfl⟩ := List.mem_map.1 hmem
    exact ⟨⟨by simpa using hne, trim_trim piece⟩,
      (whole_trim (by decide)).2 (splitOutside_of_mem hpiece)⟩
  rw [argumentItems_join_closed (fun item h => (hitem item h).2) (closed_of_argumentItems t)]
  exact filter_map_trim fun item h => (hitem item h).1

/-- A text is its pieces, joined. They are the only ones for a separator that is no bracket, and the
items of a list of arguments are found again in the joined list. -/
theorem splitOutside_lossless_and_items_stable (separator : Char) (t : Text) :
    Splitting separator t (t.splitOutside separator) ∧
      (isOpening separator = false → isClosing separator = false →
        ∀ pieces, Splitting separator t pieces → pieces = t.splitOutside separator) ∧
      argumentItems (join ", " (argumentItems t)) = argumentItems t :=
  ⟨splitting_splitOutside separator t, fun hopen hclose _ h => h.eq_splitOutside hopen hclose,
    argumentItems_join_argumentItems t⟩

/-- Brackets of any kind close each other, a closing one too many counts for nothing, and one that
stays open keeps the last commas. -/
theorem unbalanced_rejoins :
    [")a", " [b,c) ", " ", "(d, e]f", " g\x7b,"].map String.toList =
        splitOutside ',' ")a, [b,c) , ,(d, e]f, g\x7b," ∧
      argumentItems (join ", " (argumentItems ")a, [b,c) , ,(d, e]f, g\x7b,")) =
        argumentItems ")a, [b,c) , ,(d, e]f, g\x7b," :=
  have h := splitOutside_lossless_and_items_stable ',' ")a, [b,c) , ,(d, e]f, g\x7b,"
  ⟨h.2.1 (by decide) (by decide) _ (by decide +kernel), h.2.2⟩

end Offload
