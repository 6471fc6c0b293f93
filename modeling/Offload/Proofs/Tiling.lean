import Offload.Proofs.Patch

/-!
How a patched body is written. The lines that have been kept and the patches follow each other
without a gap, each of them once, as a walk from patch to patch finds them.
-/
namespace Offload.PatchedBody

variable {b : PatchedBody} {p q : Patch} {line : Nat}

/-- A piece of a body: a line that has been kept, or a patch. -/
inductive Piece
  | kept (line : Nat)
  | patched (p : Patch)
deriving DecidableEq

namespace Piece

def span : Piece → Span
  | kept line => ⟨line, line + 1⟩
  | patched p => p.span

def lines (s : Source) : Piece → List Text
  | kept line => [s.textAt line]
  | patched p => p.lines

def kept? : Piece → Option Nat
  | kept line => some line
  | patched _ => none

def patch? : Piece → Option Patch
  | kept _ => none
  | patched p => some p

end Piece

/-- The pieces from `line` to `stop`, from patch to patch. -/
def walk (patches : List Patch) (line stop : Nat) : List Piece :=
  if line < stop then
    match _h : patches.find? fun p => p.span.start == line && !p.span.isEmpty with
    | some p => .patched p :: walk patches p.span.stop stop
    | none => .kept line :: walk patches (line + 1) stop
  else []
termination_by stop - line
decreasing_by
  · have := List.find?_some _h
    simp only [Bool.and_eq_true, beq_iff_eq, Bool.not_eq_true', Span.isEmpty_eq_false] at this
    omega
  · omega

/-- No patch that starts before the line reaches over it. -/
def Clear (b : PatchedBody) (line : Nat) : Prop :=
  ∀ p ∈ b.patches, p.span.start < line → p.span.stop ≤ line

namespace Sound

variable {stop : Nat}

theorem of_find?_solid
    (hfind : (b.patches.find? fun p => p.span.start == line && !p.span.isEmpty) = some p) :
    p ∈ b.patches ∧ p.span.start = line ∧ line < p.span.stop := by
  have hp := List.find?_some hfind
  simp only [Bool.and_eq_true, beq_iff_eq, Bool.not_eq_true', Span.isEmpty_eq_false] at hp
  exact ⟨List.mem_of_find?_eq_some hfind, hp.1, by omega⟩

theorem ne_start_of_find?_eq_none (h : b.Sound)
    (hfind : (b.patches.find? fun p => p.span.start == line && !p.span.isEmpty) = none)
    (hp : p ∈ b.patches) : p.span.start ≠ line := by
  have hnone := List.find?_eq_none.1 hfind p hp
  simpa [Span.isEmpty_eq_false.2 (h.solid p hp)] using hnone

/-- Behind a patch the way is clear. -/
theorem clear_stop (h : b.Sound) (hp : p ∈ b.patches) : b.Clear p.span.stop := by
  intro q hq hlt
  by_cases hle : q.span.stop ≤ p.span.stop
  · exact hle
  · -- Otherwise the last line of the patch lies in both.
    have hsolid := h.solid p hp
    have hqlast : q.span.contains (p.span.stop - 1) = true :=
      Span.contains_iff.2 ⟨by omega, by omega⟩
    have hplast : p.span.contains (p.span.stop - 1) = true :=
      Span.contains_iff.2 ⟨by omega, by omega⟩
    obtain rfl := h.eq_of_contains hp hq hplast hqlast
    exact Nat.le_refl _

theorem clear_succ (hclear : b.Clear line) (hstart : ∀ p ∈ b.patches, p.span.start ≠ line) :
    b.Clear (line + 1) := by
  intro p hp hlt
  have hne := hstart p hp
  have hstop := hclear p hp (by omega)
  omega

theorem isPatched_of_clear (hclear : b.Clear line) (hstart : ∀ p ∈ b.patches, p.span.start ≠ line) :
    b.isPatched line = false := by
  rw [isPatched_eq_false]
  intro p hp
  rw [Span.contains_eq_false]
  have hne := hstart p hp
  have hstop := hclear p hp
  omega

theorem tiles_walk (h : b.Sound) (hle : line ≤ stop) (hstop : b.span.stop = stop) :
    Span.Tiles line stop ((walk b.patches line stop).map Piece.span) := by
  fun_induction walk b.patches line stop with
  | case1 line hlt p hfind ih =>
    obtain ⟨hp, rfl, hsolid⟩ := of_find?_solid hfind
    have hinside := (Span.encloses_iff.1 (h.inside p hp)).2
    exact .cons hsolid (ih (by omega))
  | case2 line hlt hfind ih =>
    exact @Span.Tiles.cons ⟨line, line + 1⟩ _ _ (Nat.lt_succ_self line) (ih hlt)
  | case3 line hge =>
    obtain rfl : line = stop := by omega
    exact .nil line

theorem range'_patch (h : b.Sound) (hp : p ∈ b.patches) (hstop : b.span.stop = stop) :
    List.range' p.span.start (stop - p.span.start) =
      List.range' p.span.start p.span.length ++ List.range' p.span.stop (stop - p.span.stop) := by
  have hsolid := h.solid p hp
  have hinside := (Span.encloses_iff.1 (h.inside p hp)).2
  have hsplit : stop - p.span.start = p.span.length + (stop - p.span.stop) := by
    rw [Span.length]
    omega
  have hnext : p.span.stop = p.span.start + p.span.length := by
    rw [Span.length]
    omega
  rw [hsplit, ← List.range'_append_1, ← hnext]

/-- The lines that the walk keeps are those outside all patches. -/
theorem kept_walk (h : b.Sound) (hclear : b.Clear line) (hstop : b.span.stop = stop) :
    (walk b.patches line stop).filterMap Piece.kept? =
      (List.range' line (stop - line)).filter fun l => !b.isPatched l := by
  fun_induction walk b.patches line stop with
  | case1 line hlt p hfind ih =>
    obtain ⟨hp, rfl, hsolid⟩ := of_find?_solid hfind
    have hnone : (List.range' p.span.start p.span.length).filter (fun l => !b.isPatched l) = [] := by
      rw [List.filter_eq_nil_iff]
      intro l hl
      rw [List.mem_range'_1, Span.length] at hl
      have hpatched : b.isPatched l = true :=
        isPatched_iff.2 ⟨p, hp, Span.contains_iff.2 ⟨hl.1, by omega⟩⟩
      simp [hpatched]
    rw [h.range'_patch hp hstop, List.filter_append, hnone, List.nil_append]
    exact ih (h.clear_stop hp)
  | case2 line hlt hfind ih =>
    have hstart := fun p hp => h.ne_start_of_find?_eq_none (p := p) hfind hp
    have hkept := isPatched_of_clear hclear hstart
    rw [show stop - line = (stop - (line + 1)) + 1 by omega, List.range'_succ,
      List.filter_cons_of_pos (by simp [hkept]), ← ih (clear_succ hclear hstart)]
    rfl
  | case3 line hge =>
    rw [show stop - line = 0 by omega]
    rfl

/-- The walk comes by every patch that starts before it. -/
theorem mem_walk (h : b.Sound) (hstop : b.span.stop = stop) :
    .patched p ∈ walk b.patches line stop ↔ p ∈ b.patches ∧ line ≤ p.span.start := by
  fun_induction walk b.patches line stop with
  | case1 line hlt q hfind ih =>
    obtain ⟨hq, rfl, hsolid⟩ := of_find?_solid hfind
    rw [List.mem_cons, Piece.patched.injEq, ih]
    constructor
    · rintro (rfl | ⟨hp, hle⟩)
      · exact ⟨hq, Nat.le_refl _⟩
      · exact ⟨hp, by omega⟩
    · rintro ⟨hp, hle⟩
      rcases Nat.lt_or_ge p.span.start q.span.stop with hin | hout
      · have hcontains : q.span.contains p.span.start = true := Span.contains_iff.2 ⟨hle, hin⟩
        exact .inl (h.eq_of_contains hp hq (h.contains_start hp) hcontains)
      · exact .inr ⟨hp, hout⟩
  | case2 line hlt hfind ih =>
    simp only [List.mem_cons, reduceCtorEq, false_or, ih]
    constructor
    · rintro ⟨hp, hle⟩
      exact ⟨hp, by omega⟩
    · rintro ⟨hp, hle⟩
      have hne := h.ne_start_of_find?_eq_none hfind hp
      exact ⟨hp, by omega⟩
  | case3 line hge =>
    simp only [List.not_mem_nil, false_iff, not_and]
    intro hp hle
    have hsolid := h.solid p hp
    have hinside := (Span.encloses_iff.1 (h.inside p hp)).2
    omega

theorem ordered_walk (h : b.Sound) (hstop : b.span.stop = stop) :
    ((walk b.patches line stop).filterMap Piece.patch?).Pairwise
      fun p q => p.span.start < q.span.start := by
  fun_induction walk b.patches line stop with
  | case1 line hlt p hfind ih =>
    obtain ⟨hp, rfl, hsolid⟩ := of_find?_solid hfind
    refine List.pairwise_cons.2 ⟨fun q hq => ?_, ih⟩
    obtain ⟨piece, hpiece, hpatch⟩ := List.mem_filterMap.1 hq
    cases piece with
    | kept l => simp [Piece.patch?] at hpatch
    | patched r =>
      obtain rfl := Option.some.inj hpatch
      have hle := ((h.mem_walk hstop).1 hpiece).2
      omega
  | case2 line hlt hfind ih => exact ih
  | case3 line hge => exact .nil

theorem nodup (h : b.Sound) : b.patches.Nodup := by
  refine h.apart.imp_of_mem fun {p q} hp hq hapart => ?_
  rintro rfl
  have hself := hapart p.span.start (h.contains_start hp)
  rw [h.contains_start hp] at hself
  simp at hself

/-- The walk comes by each patch once. -/
theorem patches_walk (h : b.Sound) (hfirst : b.span.start = line) (hstop : b.span.stop = stop) :
    ((walk b.patches line stop).filterMap Piece.patch?).Perm b.patches := by
  have hnodup : ((walk b.patches line stop).filterMap Piece.patch?).Nodup :=
    (h.ordered_walk hstop).imp fun hlt heq => by simp [heq] at hlt
  rw [List.perm_ext_iff_of_nodup hnodup h.nodup]
  intro p
  have hmem : p ∈ (walk b.patches line stop).filterMap Piece.patch? ↔
      .patched p ∈ walk b.patches line stop := by
    rw [List.mem_filterMap]
    constructor
    · rintro ⟨piece, hpiece, hpatch⟩
      cases piece with
      | kept l => simp [Piece.patch?] at hpatch
      | patched q => exact Option.some.inj hpatch ▸ hpiece
    · exact fun hpiece => ⟨_, hpiece, rfl⟩
  rw [hmem, h.mem_walk hstop, and_iff_left_iff_imp]
  intro hp
  exact hfirst ▸ (Span.encloses_iff.1 (h.inside p hp)).1

/-! What is written for a line. -/

theorem renderLine_start (h : b.Sound) (hp : p ∈ b.patches) (s : Source) :
    b.renderLine s p.span.start = p.lines := by
  rw [renderLine, h.find?_start.2 ⟨hp, rfl⟩]

theorem renderLine_inner (h : b.Sound) (hp : p ∈ b.patches) (s : Source)
    (hstart : p.span.start < line) (hstop : line < p.span.stop) : b.renderLine s line = [] := by
  have hin : p.span.contains line = true := Span.contains_iff.2 ⟨by omega, hstop⟩
  have hnone : b.patches.find? (·.span.start == line) = none := by
    cases hfind : b.patches.find? (·.span.start == line) with
    | none => rfl
    | some q =>
      obtain ⟨hq, rfl⟩ := h.find?_start.1 hfind
      obtain rfl := h.eq_of_contains hp hq hin (h.contains_start hq)
      exact absurd hstart (Nat.lt_irrefl _)
  rw [renderLine, hnone]
  exact if_pos (isPatched_iff.2 ⟨p, hp, hin⟩)

theorem renderLine_kept (h : b.Sound) (s : Source) (hkept : b.isPatched line = false) :
    b.renderLine s line = [s.textAt line] := by
  have hnone : b.patches.find? (·.span.start == line) = none := by
    cases hfind : b.patches.find? (·.span.start == line) with
    | none => rfl
    | some q =>
      obtain ⟨hq, rfl⟩ := h.find?_start.1 hfind
      have hout := isPatched_eq_false.1 hkept q hq
      simp [h.contains_start hq] at hout
  rw [renderLine, hnone]
  exact if_neg (by simp [hkept])

/-- The lines of a patch stand for those that it replaces. -/
theorem flatMap_renderLine (h : b.Sound) (hp : p ∈ b.patches) (s : Source) :
    (List.range' p.span.start p.span.length).flatMap (b.renderLine s) = p.lines := by
  have hsolid := h.solid p hp
  have hlength : p.span.length = (p.span.length - 1) + 1 := by
    rw [Span.length]
    omega
  have hinner : (List.range' (p.span.start + 1) (p.span.length - 1)).flatMap (b.renderLine s) =
      [] := by
    rw [List.flatMap_eq_nil_iff]
    intro l hl
    rw [List.mem_range'_1, Span.length] at hl
    exact h.renderLine_inner hp s (by omega) (by omega)
  rw [hlength, List.range'_succ, List.flatMap_cons, hinner, List.append_nil,
    h.renderLine_start hp]

theorem flatMap_walk (h : b.Sound) (s : Source) (hclear : b.Clear line)
    (hstop : b.span.stop = stop) :
    (List.range' line (stop - line)).flatMap (b.renderLine s) =
      (walk b.patches line stop).flatMap (Piece.lines s) := by
  fun_induction walk b.patches line stop with
  | case1 line hlt p hfind ih =>
    obtain ⟨hp, rfl, hsolid⟩ := of_find?_solid hfind
    rw [h.range'_patch hp hstop, List.flatMap_append, h.flatMap_renderLine hp,
      ih (h.clear_stop hp)]
    rfl
  | case2 line hlt hfind ih =>
    have hstart := fun p hp => h.ne_start_of_find?_eq_none (p := p) hfind hp
    rw [show stop - line = (stop - (line + 1)) + 1 by omega, List.range'_succ, List.flatMap_cons,
      h.renderLine_kept s (isPatched_of_clear hclear hstart), ih (clear_succ hclear hstart)]
    rfl
  | case3 line hge =>
    rw [show stop - line = 0 by omega]
    rfl

theorem clear_first (h : b.Sound) : b.Clear b.span.start := by
  intro p hp hlt
  have hinside := (Span.encloses_iff.1 (h.inside p hp)).1
  omega

/-- The body is written by the walk from patch to patch. -/
theorem render_eq_walk (h : b.Sound) (s : Source) :
    b.render s = (walk b.patches b.span.start b.span.stop).flatMap (Piece.lines s) :=
  h.flatMap_walk s h.clear_first rfl

/-- The order in which patches have been applied does not show. -/
theorem render_perm (h : b.Sound) {order : List Patch} (ho : order.Perm b.patches) (s : Source) :
    ({ b with patches := order } : PatchedBody).render s = b.render s := by
  have hsound := h.perm ho
  unfold render
  congr 1
  funext l
  have hfind : order.find? (·.span.start == l) = b.patches.find? (·.span.start == l) := by
    refine Option.ext fun p => ?_
    rw [hsound.find?_start, h.find?_start, ho.mem_iff]
  have hpatched : ({ b with patches := order } : PatchedBody).isPatched l = b.isPatched l := by
    rw [Bool.eq_iff_iff, isPatched_iff, isPatched_iff]
    exact exists_congr fun p => and_congr_left' ho.mem_iff
  rw [renderLine, renderLine, hfind, hpatched]

end Sound

/-- The pieces make up the body: in line order, every line outside all patches once and every patch
once, in the place of the lines that it replaces. -/
structure Layout (b : PatchedBody) (pieces : List Piece) : Prop where
  tiles : Span.Tiles b.span.start b.span.stop (pieces.map Piece.span)
  kept : pieces.filterMap Piece.kept? =
    (List.range' b.span.start b.span.length).filter fun l => !b.isPatched l
  patched : (pieces.filterMap Piece.patch?).Perm b.patches

/-- A body after patches have been tried on it. -/
structure Patched (span : Span) (calls : List Patch) (b : PatchedBody) : Prop where
  bounds : b.span = span
  sound : b.Sound
  /-- What is stored has been tried, in this order. -/
  tried : b.patches.Sublist calls
  /-- A further patch is taken exactly if there is room for it. -/
  taken : ∀ p, b.Fits p.span →
    b.patch p.span p.lines = .ok { b with patches := b.patches ++ [p] }
  refused : ∀ p, ¬ b.Fits p.span →
    b.patch p.span p.lines = .error (.generation p.span.start (.patch p.span b.span)) ∧
      b.attempt p = b
  covering : ∀ line r, b.covering? line = some r ↔
    r ∈ b.patches.map Patch.span ∧ r.contains line = true
  nearest : ∀ line r, b.covering? line = some r ↔
    ∃ p, b.Nearest line p ∧ line < p.span.stop ∧ p.span = r
  layout : b.Layout (walk b.patches b.span.start b.span.stop)
  render : ∀ s, b.render s = (walk b.patches b.span.start b.span.stop).flatMap (Piece.lines s)
  /-- In any other order the same patches are taken again and give the same text. -/
  order : ∀ order, order.Perm b.patches →
    attempts { span } order = { span, patches := order } ∧
      ∀ s, (attempts { span } order).render s = b.render s

/-- Whatever is tried on a body, in whatever order, it stays one with separate patches. -/
theorem patched_attempts {span : Span} (hspan : span.start ≤ span.stop) (calls : List Patch) :
    Patched span calls (attempts { span } calls) := by
  have hempty := Sound.empty span
  obtain ⟨hsound, hsame⟩ := hempty.attempts calls
  have htried := hempty.attempts_sublist calls
  generalize attempts { span } calls = b at hsound hsame htried
  obtain ⟨bspan, patches⟩ := b
  obtain rfl : bspan = span := hsame
  constructor
  · rfl
  · exact hsound
  · exact htried
  · exact fun p => (patch_eq hsound p.span p.lines).1
  · exact fun p hp => ⟨(patch_eq hsound p.span p.lines).2 hp, attempt_of_not_fits hsound hp⟩
  · exact fun line r => hsound.covering?_eq_some
  · exact fun line r => hsound.covering?_iff_nearest
  · exact ⟨hsound.tiles_walk hspan rfl, hsound.kept_walk hsound.clear_first rfl,
      hsound.patches_walk rfl rfl⟩
  · exact hsound.render_eq_walk
  · intro order ho
    have hall : attempts { span := bspan } order = { span := bspan, patches := order } :=
      attempts_of_sound (b := { span := bspan }) (hsound.perm ho)
    refine ⟨hall, fun s => ?_⟩
    rw [hall]
    exact hsound.render_perm ho s

/-- The middle patch of the three overlaps the first and is refused. -/
def triedPatches : List Patch := [⟨⟨1, 3⟩, ["z"]⟩, ⟨⟨2, 4⟩, []⟩, ⟨⟨3, 4⟩, ["w", "v"]⟩]

theorem triedPatches_patched :
    (⟨1, 5⟩ : Span).start ≤ (⟨1, 5⟩ : Span).stop ∧
      attempts { span := ⟨1, 5⟩ } triedPatches =
        { span := ⟨1, 5⟩, patches := [⟨⟨1, 3⟩, ["z"]⟩, ⟨⟨3, 4⟩, ["w", "v"]⟩] } ∧
      Patched ⟨1, 5⟩ triedPatches (attempts { span := ⟨1, 5⟩ } triedPatches) :=
  ⟨by decide, by decide, patched_attempts (by decide) triedPatches⟩

end Offload.PatchedBody
