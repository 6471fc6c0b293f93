import Offload.Proofs.Heading

/-!
Texts that are put together with separators and split again. Where no piece leaves a bracket open,
the separators between the pieces are found, and the pieces are split each on its own. Pieces that
are sealed come back as they were.
-/
namespace Offload.Text

variable {separator : Char} {depth : Nat} {t u : Text}

/-- A text is not split if its separators stand behind open brackets. -/
theorem whole_iff (hopen : isOpening separator = false) (hclose : isClosing separator = false) :
    Whole separator depth t ↔ ∀ a b, t = a ++ separator :: b → 0 < depthAfter depth a := by
  constructor
  · rintro h a b rfl
    have hsplit := (whole_cons.1 (whole_append.1 h).2).1
    simpa [splitsAt, hopen, hclose, Nat.pos_iff_ne_zero] using hsplit
  · intro h
    induction t generalizing depth with
    | nil => exact whole_nil
    | cons c cs ih =>
      refine whole_cons.2 ⟨?_, ih fun a b hcs => h (c :: a) b (by rw [hcs]; rfl)⟩
      by_contra hsplits
      have hsplits : splitsAt separator depth c = true := by simpa using hsplits
      obtain rfl := eq_of_splitsAt hsplits
      have hpos : 0 < depth := h [] cs rfl
      have hzero := (plain_of_splitsAt hsplits).1
      omega

/-- A separator outside all brackets ends a piece. -/
theorem splitAtDepth_append_cons (hopen : isOpening separator = false)
    (hclose : isClosing separator = false) (h : depthAfter depth t = 0) (u : Text) :
    splitAtDepth separator depth (t ++ separator :: u) =
      splitAtDepth separator depth t ++ splitAtDepth separator 0 u := by
  induction t generalizing depth with
  | nil =>
    obtain rfl : depth = 0 := h
    rw [List.nil_append, splitAtDepth_cons, if_pos (by simp [splitsAt, hopen, hclose])]
    rfl
  | cons c cs ih =>
    have hcs : depthAfter (bracketStep depth c) cs = 0 := h
    rw [List.cons_append, splitAtDepth_cons, splitAtDepth_cons]
    split
    · next hsplits =>
      obtain ⟨-, hplain⟩ := plain_of_splitsAt hsplits
      rw [bracketStep_of_plain hplain.1 hplain.2] at hcs
      rw [ih hcs, List.cons_append]
    · obtain ⟨first, more, hsplit⟩ := exists_splitAtDepth separator (bracketStep depth c) cs
      rw [ih hcs, hsplit]
      rfl

/-- One more open bracket in front makes a difference of at most one behind. -/
theorem depthAfter_succ_le (depth : Nat) (t : Text) :
    depthAfter (depth + 1) t ≤ depthAfter depth t + 1 := by
  have hstep : ∀ d e c, e ≤ d + 1 → bracketStep e c ≤ bracketStep d c + 1 := by
    intro d e c hle
    unfold bracketStep
    split
    · omega
    · split <;> omega
  have hrun : ∀ d e, e ≤ d + 1 → depthAfter e t ≤ depthAfter d t + 1 := by
    induction t with
    | nil => exact fun d e hle => hle
    | cons c cs ih => exact fun d e hle => ih _ _ (hstep d e c hle)
  exact hrun depth (depth + 1) (le_refl _)

theorem depthAfter_trim (depth : Nat) (t : Text) :
    depthAfter depth (trim t) = depthAfter depth t := by
  obtain ⟨a, b, ht, ha, hb⟩ := exists_trim t
  conv_rhs => rw [ht]
  rw [depthAfter_append, depthAfter_append, depthAfter_of_plain (plain_of_blank ha),
    depthAfter_of_plain (plain_of_blank hb)]

/-- Brackets that were open before stay open over what closes its own. -/
theorem dueAfter_frame {due due' : List Char} (h : dueAfter due t = some due')
    (more : List Char) : dueAfter (due ++ more) t = some (due' ++ more) := by
  have hstep : ∀ {due due' : List Char} {c : Char}, dueStep due c = some due' →
      dueStep (due ++ more) c = some (due' ++ more) := by
    intro due due' c h
    unfold dueStep at h ⊢
    split at h
    · next hopen =>
      obtain rfl := Option.some.inj h
      rw [if_pos hopen, List.cons_append]
    · next hopen =>
      rw [if_neg hopen]
      split at h
      · next hclose =>
        rw [if_pos hclose]
        cases due with
        | nil => simp at h
        | cons d due =>
          split at h
          · next hhead =>
            obtain rfl := Option.some.inj h
            rw [List.cons_append, if_pos (by simpa using hhead)]
            rfl
          · simp at h
      · next hclose => rw [if_neg hclose, Option.some.inj h]
  induction t generalizing due with
  | nil =>
    obtain rfl := Option.some.inj h
    rfl
  | cons c cs ih =>
    rw [dueAfter_cons] at h ⊢
    obtain ⟨next, hnext, hrest⟩ := Option.bind_eq_some_iff.1 h
    rw [hstep hnext, Option.bind_some, ih hrest]

/-- Pieces that close their brackets are split each on its own; blanks around them do not matter. -/
theorem map_trim_splitOutside_join {pieces : List Text} (hne : pieces ≠ [])
    (h : ∀ piece ∈ pieces, depthAfter 0 piece = 0) :
    ((join ", " pieces).splitOutside ',').map trim =
      pieces.flatMap fun piece => (piece.splitOutside ',').map trim := by
  induction pieces with
  | nil => exact absurd rfl hne
  | cons first more ih =>
    obtain ⟨hfirst, hmore⟩ := List.forall_mem_cons.1 h
    cases more with
    | nil => simp [join]
    | cons next more =>
      have hrest := ih (by simp) hmore
      have hspace : (splitAtDepth ',' 0 ([' '] ++ join ", " (next :: more) ++ [])).map trim =
          (splitAtDepth ',' 0 (join ", " (next :: more))).map trim :=
        map_trim_splitAtDepth_append (by decide) (by decide) (by decide) 0 _
      rw [List.append_nil] at hspace
      have hjoin : join ", " (first :: next :: more) =
          first ++ ',' :: ([' '] ++ join ", " (next :: more)) := by
        rw [join_cons_cons, List.append_assoc]
        rfl
      rw [hjoin, splitOutside, splitAtDepth_append_cons (by decide) (by decide) hfirst,
        List.map_append, hspace, List.flatMap_cons, ← hrest]
      rfl

/-! Sealed pieces. -/

section

variable {separators : Text}

theorem Sealed.mono {fewer : Text} (h : Sealed separators depth t)
    (hfewer : ∀ c ∈ fewer, c ∈ separators) : Sealed fewer depth t where
  inside := fun a c b heq hc => h.inside a c b heq (hc.imp_right (hfewer c))
  closed := h.closed

theorem Sealed.whole {separator : Char} (h : Sealed [separator] depth t)
    (hopen : isOpening separator = false) (hclose : isClosing separator = false) :
    Whole separator depth t :=
  (whole_iff hopen hclose).2 fun a b heq => h.inside a separator b heq (.inr (by simp))

theorem sealed_trim (hblank : ∀ c ∈ separators, isBlank c = false) :
    Sealed separators depth (trim t) ↔ Sealed separators depth t := by
  obtain ⟨a, b, ht, ha, hb⟩ := exists_trim t
  have hapart : ∀ {gap : Text} {low : Nat}, blank gap = true →
      ∀ c ∈ separators, c ∈ gap → 0 < low := by
    intro gap low hgap c hc hmem
    have hcblank := List.all_eq_true.1 hgap c hmem
    rw [hblank c hc] at hcblank
    simp at hcblank
  have hend : Sealed separators 0 (b ++ []) :=
    (sealed_plain_append (plain_of_blank hb)).2 ⟨hapart hb, sealed_nil.2 rfl⟩
  rw [List.append_nil] at hend
  conv_rhs => rw [ht, List.append_assoc, sealed_plain_append (plain_of_blank ha)]
  constructor
  · intro h
    exact ⟨hapart ha, (sealed_append_iff h.closed).2 ⟨h, hend⟩⟩
  · rintro ⟨-, h⟩
    have hclosed : depthAfter depth (trim t) = 0 := by
      have hdepth := h.closed
      rwa [depthAfter_append, depthAfter_of_plain (plain_of_blank hb)] at hdepth
    exact ((sealed_append_iff hclosed).1 h).1

/-- The pieces of a sealed text are sealed, and the separator stands in none of them outside
brackets. -/
theorem sealed_of_splitAtDepth {separator : Char} (hopen : isOpening separator = false)
    (hclose : isClosing separator = false) {first : Text} {more : List Text}
    (ht : Sealed [] depth t) (h : splitAtDepth separator depth t = first :: more) :
    Sealed [separator] depth first ∧ ∀ piece ∈ more, Sealed [separator] 0 piece := by
  induction t generalizing depth first more with
  | nil =>
    obtain ⟨rfl, rfl⟩ := List.cons.inj h
    exact ⟨sealed_nil.2 ht.closed, by simp⟩
  | cons c cs ih =>
    obtain ⟨hc, hcs⟩ := sealed_cons.1 ht
    rw [splitAtDepth_cons] at h
    split at h
    · next hsplits =>
      obtain ⟨rfl, rfl⟩ := List.cons.inj h
      obtain ⟨rfl, hplain⟩ := plain_of_splitsAt hsplits
      rw [bracketStep_of_plain hplain.1 hplain.2] at hcs
      obtain ⟨first, more, hsplit⟩ := exists_splitAtDepth separator 0 cs
      obtain ⟨hfirst, hmore⟩ := ih hcs hsplit
      rw [hsplit]
      exact ⟨sealed_nil.2 rfl, List.forall_mem_cons.2 ⟨hfirst, hmore⟩⟩
    · next hsplits =>
      obtain ⟨front, rest, hsplit⟩ := exists_splitAtDepth separator (bracketStep depth c) cs
      rw [hsplit] at h
      obtain ⟨rfl, rfl⟩ := List.cons.inj h
      obtain ⟨hfront, hrest⟩ := ih hcs hsplit
      refine ⟨sealed_cons.2 ⟨fun hmark => ?_, hfront⟩, hrest⟩
      rcases hmark with hmark | hmark
      · exact hc (.inl hmark)
      · obtain rfl := List.mem_singleton.1 hmark
        simpa [splitsAt, hopen, hclose, Nat.pos_iff_ne_zero] using hsplits

/-- Sealed pieces are split as they have been joined, and they are sealed together. -/
theorem splitOutside_join_sealed {pieces : List Text} (hne : pieces ≠ [])
    (h : ∀ piece ∈ pieces, Sealed [','] 0 piece) :
    (join "," pieces).splitOutside ',' = pieces ∧ Sealed [] 0 (join "," pieces) := by
  induction pieces with
  | nil => exact absurd rfl hne
  | cons first more ih =>
    obtain ⟨hfirst, hmore⟩ := List.forall_mem_cons.1 h
    have hwhole : splitAtDepth ',' 0 first = [first] := hfirst.whole rfl rfl
    have hsealed : Sealed [] 0 first := hfirst.mono (by simp)
    cases more with
    | nil =>
      have hjoin : join "," [first] = first := by simp [join]
      rw [hjoin]
      exact ⟨hwhole, hsealed⟩
    | cons next more =>
      obtain ⟨hsplit, hrest⟩ := ih (by simp) hmore
      have hjoin : join "," (first :: next :: more) = first ++ ',' :: join "," (next :: more) := by
        rw [join_cons_cons, List.append_assoc]
        rfl
      rw [hjoin]
      constructor
      · rw [splitOutside, splitAtDepth_append_cons rfl rfl hfirst.closed, hwhole,
          ← splitOutside, hsplit]
        rfl
      · exact (sealed_append_iff hsealed.closed).2 ⟨hsealed, sealed_cons.2 ⟨by decide, hrest⟩⟩

theorem cutAtDepth?_eq_none_of_whole {separator : Char} (hopen : isOpening separator = false)
    (hclose : isClosing separator = false) (h : Whole separator depth t) :
    cutAtDepth? [separator] depth t = none := by
  rw [Option.eq_none_iff_forall_ne_some]
  rintro ⟨before, rest⟩ hcut
  have hfirst := (cutAtDepth?_eq_some_iff ⟨separator, [], rfl, hopen, hclose⟩).1 hcut
  have hpos := (whole_iff hopen hclose).1 h before rest hfirst.eq
  rw [hfirst.outside] at hpos
  exact absurd hpos (Nat.lt_irrefl 0)

theorem trim_of_solid (hne : t ≠ []) (h : ∀ c ∈ t, isBlank c = false) : trim t = t := by
  have hstrip := stripWhile_append hne h [] []
  rw [List.nil_append, List.append_nil] at hstrip
  rw [trim, hstrip]
  simp [dropEndWhile]

/-- The bracket that closes what was open before a sealed text tells where the text ends. -/
theorem Sealed.eq_of_append {c d : Char} {a b : Text} (ht : Sealed [] 0 t) (hu : Sealed [] 0 u)
    (hc : isClosing c = true) (hd : isClosing d = true) (h : t ++ c :: a = u ++ d :: b) :
    t = u ∧ c :: a = d :: b := by
  have hnever : ∀ {v w : Text} {e : Char} {x : Text}, Sealed [] 0 v → Sealed [] 0 w →
      isClosing e = true → v ≠ w ++ e :: x := by
    intro v w e x hv hw he heq
    have hpos := hv.inside w e x heq (.inl he)
    rw [hw.closed] at hpos
    exact absurd hpos (Nat.lt_irrefl 0)
  rcases List.append_eq_append_iff.1 h with ⟨x, hx, hrest⟩ | ⟨x, hx, hrest⟩
  · cases x with
    | nil => exact ⟨by simpa using hx.symm, hrest⟩
    | cons e x =>
      obtain ⟨rfl, -⟩ := List.cons.inj hrest
      exact absurd hx (hnever hu ht hc)
  · cases x with
    | nil => exact ⟨by simpa using hx, hrest.symm⟩
    | cons e x =>
      obtain ⟨rfl, -⟩ := List.cons.inj hrest
      exact absurd hx (hnever ht hu hd)

end

end Offload.Text
