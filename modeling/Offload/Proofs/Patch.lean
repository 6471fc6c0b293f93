import Offload.Proofs.Outcome
import Offload.Target.Body

/-!
Patches of a body. Whatever is tried, the replaced spans stay apart, so that a line lies in one patch
at most and the patch can be found by its start.
-/
namespace Offload

namespace Span

theorem isEmpty_eq_false {span : Span} : span.isEmpty = false ↔ span.start < span.stop := by
  simp only [isEmpty, length, beq_eq_false_iff_ne]
  omega

theorem contains_iff {span : Span} {line : Nat} :
    span.contains line = true ↔ span.start ≤ line ∧ line < span.stop := by
  simp [contains]

theorem contains_eq_false {span : Span} {line : Nat} :
    span.contains line = false ↔ line < span.start ∨ span.stop ≤ line := by
  rw [← Bool.not_eq_true, contains_iff]
  omega

theorem encloses_iff {s t : Span} :
    s.encloses t = true ↔ s.start ≤ t.start ∧ t.stop ≤ s.stop := by
  simp [encloses]

/-- No line lies in both spans. -/
def Apart (s t : Span) : Prop := ∀ line, s.contains line = true → t.contains line = false

theorem Apart.symm {s t : Span} (h : s.Apart t) : t.Apart s := by
  intro line ht
  cases hs : s.contains line with
  | false => rfl
  | true => simp [h line hs] at ht

theorem overlaps_eq_false {s t : Span} (hs : s.start < s.stop) (ht : t.start < t.stop) :
    s.overlaps t = false ↔ s.Apart t := by
  have hoverlaps : s.overlaps t = false ↔ t.stop ≤ s.start ∨ s.stop ≤ t.start := by
    rw [← Bool.not_eq_true, overlaps, Bool.and_eq_true, decide_eq_true_eq, decide_eq_true_eq]
    omega
  rw [hoverlaps]
  constructor
  · intro h line hline
    rw [contains_iff] at hline
    rw [contains_eq_false]
    omega
  · intro h
    -- The later of the two first lines would lie in both.
    have hstart := h (max s.start t.start)
    rw [contains_iff, contains_eq_false] at hstart
    omega

/-- The spans follow each other from `first` to `stop` without a gap. -/
inductive Tiles : Nat → Nat → List Span → Prop
  | nil (stop : Nat) : Tiles stop stop []
  | cons {span : Span} {spans : List Span} {stop : Nat} : span.start < span.stop →
    Tiles span.stop stop spans → Tiles span.start stop (span :: spans)

end Span

namespace PatchedBody

variable {b : PatchedBody} {p q : Patch} {line : Nat}

/-- Applies a patch if that is possible. -/
def attempt (b : PatchedBody) (p : Patch) : PatchedBody := (b.patch p.span p.lines).toOption.getD b

/-- Tries patches one after the other. -/
def attempts (b : PatchedBody) (calls : List Patch) : PatchedBody := calls.foldl attempt b

/-- What all bodies have in common that come from patching. -/
structure Sound (b : PatchedBody) : Prop where
  solid : ∀ p ∈ b.patches, p.span.start < p.span.stop
  inside : ∀ p ∈ b.patches, b.span.encloses p.span = true
  apart : b.patches.Pairwise fun p q => p.span.Apart q.span

/-- There is room for a patch. -/
structure Fits (b : PatchedBody) (span : Span) : Prop where
  solid : span.start < span.stop
  inside : b.span.encloses span = true
  free : ∀ line, span.contains line = true → b.isPatched line = false

theorem isPatched_iff : b.isPatched line = true ↔ ∃ p ∈ b.patches, p.span.contains line = true := by
  simp [isPatched, covering?]

theorem isPatched_eq_false :
    b.isPatched line = false ↔ ∀ p ∈ b.patches, p.span.contains line = false := by
  simp [isPatched, covering?]

theorem free_iff {span : Span} : (∀ line, span.contains line = true → b.isPatched line = false) ↔
    ∀ p ∈ b.patches, span.Apart p.span := by
  simp only [isPatched_eq_false, Span.Apart]
  exact ⟨fun h p hp line hline => h line hline p hp, fun h line hline p hp => h p hp line hline⟩

namespace Sound

theorem empty (span : Span) : Sound { span } := by
  constructor <;> simp

theorem append (h : b.Sound) (hp : b.Fits p.span) :
    Sound { b with patches := b.patches ++ [p] } where
  solid := by
    intro q hq
    rcases List.mem_append.1 hq with hq | hq
    · exact h.solid q hq
    · exact List.mem_singleton.1 hq ▸ hp.solid
  inside := by
    intro q hq
    rcases List.mem_append.1 hq with hq | hq
    · exact h.inside q hq
    · exact List.mem_singleton.1 hq ▸ hp.inside
  apart := by
    refine List.pairwise_append.2 ⟨h.apart, List.pairwise_singleton _ _, fun q hq r hr => ?_⟩
    rw [List.mem_singleton.1 hr]
    exact (free_iff.1 hp.free q hq).symm

theorem perm (h : b.Sound) {order : List Patch} (ho : order.Perm b.patches) :
    Sound { b with patches := order } where
  solid := fun q hq => h.solid q (ho.mem_iff.1 hq)
  inside := fun q hq => h.inside q (ho.mem_iff.1 hq)
  apart := (ho.pairwise_iff fun hpq => hpq.symm).2 h.apart

/-- A line lies in one patch at most. -/
theorem eq_of_contains (h : b.Sound) (hp : p ∈ b.patches) (hq : q ∈ b.patches)
    (hpl : p.span.contains line = true) (hql : q.span.contains line = true) : p = q := by
  rw [List.mem_iff_getElem] at hp hq
  obtain ⟨i, hi, rfl⟩ := hp
  obtain ⟨j, hj, rfl⟩ := hq
  rcases Nat.lt_trichotomy i j with hij | rfl | hij
  · have hapart := List.pairwise_iff_getElem.1 h.apart i j hi hj hij line hpl
    simp [hql] at hapart
  · rfl
  · have hapart := List.pairwise_iff_getElem.1 h.apart j i hj hi hij line hql
    simp [hpl] at hapart

theorem contains_start (h : b.Sound) (hp : p ∈ b.patches) :
    p.span.contains p.span.start = true :=
  Span.contains_iff.2 ⟨Nat.le_refl _, h.solid p hp⟩

theorem find?_start (h : b.Sound) :
    b.patches.find? (·.span.start == line) = some p ↔ p ∈ b.patches ∧ p.span.start = line := by
  constructor
  · intro hfind
    exact ⟨List.mem_of_find?_eq_some hfind, by simpa using List.find?_some hfind⟩
  · rintro ⟨hp, rfl⟩
    cases hfind : b.patches.find? (·.span.start == p.span.start) with
    | none =>
      have hnone := List.find?_eq_none.1 hfind p hp
      simp at hnone
    | some q =>
      have hq := List.mem_of_find?_eq_some hfind
      have hstart : q.span.start = p.span.start := by simpa using List.find?_some hfind
      have hcontains := h.contains_start hq
      rw [hstart] at hcontains
      rw [h.eq_of_contains hp hq (h.contains_start hp) hcontains]

end Sound

/-! Trying patches. -/

/-- A patch is taken exactly if there is room for it. -/
theorem patch_eq (h : b.Sound) (span : Span) (lines : List Text) :
    (b.Fits span → b.patch span lines = .ok { b with patches := b.patches ++ [⟨span, lines⟩] }) ∧
      (¬ b.Fits span → b.patch span lines = .error (.generation span.start (.patch span b.span))) := by
  have hcheck : ((span.start < b.span.start || b.span.stop < span.stop) ||
      b.patches.any (span.overlaps ·.span) || span.isEmpty) = false ↔ b.Fits span := by
    simp only [Bool.or_eq_false_iff, decide_eq_false_iff_not, Nat.not_lt, List.any_eq_false,
      Span.isEmpty_eq_false, Bool.not_eq_true]
    constructor
    · rintro ⟨⟨hinside, hfree⟩, hsolid⟩
      exact ⟨hsolid, Span.encloses_iff.2 hinside, free_iff.2 fun p hp =>
        (Span.overlaps_eq_false hsolid (h.solid p hp)).1 (hfree p hp)⟩
    · rintro ⟨hsolid, hinside, hfree⟩
      exact ⟨⟨Span.encloses_iff.1 hinside, fun p hp =>
        (Span.overlaps_eq_false hsolid (h.solid p hp)).2 (free_iff.1 hfree p hp)⟩, hsolid⟩
  rw [← hcheck, patch]
  constructor
  · intro hfree
    rw [if_neg (by simp [hfree])]
  · intro hfull
    rw [Bool.not_eq_false] at hfull
    rw [if_pos hfull]

theorem Sound.of_patch (h : b.Sound) {span : Span} {lines : List Text} {next : PatchedBody}
    (hnext : b.patch span lines = .ok next) : next.Sound := by
  by_cases hfits : b.Fits span
  · rw [(patch_eq h span lines).1 hfits] at hnext
    obtain rfl := Except.ok.inj hnext
    exact h.append (p := ⟨span, lines⟩) hfits
  · rw [(patch_eq h span lines).2 hfits] at hnext
    simp at hnext

theorem attempt_of_fits (h : b.Sound) (hp : b.Fits p.span) :
    b.attempt p = { b with patches := b.patches ++ [p] } := by
  rw [attempt, (patch_eq h p.span p.lines).1 hp]
  rfl

theorem attempt_of_not_fits (h : b.Sound) (hp : ¬ b.Fits p.span) : b.attempt p = b := by
  rw [attempt, (patch_eq h p.span p.lines).2 hp]
  rfl

theorem Sound.attempt (h : b.Sound) (p : Patch) :
    (b.attempt p).Sound ∧ (b.attempt p).span = b.span := by
  by_cases hp : b.Fits p.span
  · rw [attempt_of_fits h hp]
    exact ⟨h.append hp, rfl⟩
  · rw [attempt_of_not_fits h hp]
    exact ⟨h, rfl⟩

theorem Sound.attempts (h : b.Sound) (calls : List Patch) :
    (b.attempts calls).Sound ∧ (b.attempts calls).span = b.span := by
  induction calls generalizing b with
  | nil => exact ⟨h, rfl⟩
  | cons p calls ih =>
    obtain ⟨hsound, hspan⟩ := h.attempt p
    obtain ⟨hrest, hsame⟩ := ih hsound
    exact ⟨hrest, hsame.trans hspan⟩

/-- Nothing but what has been tried is stored. -/
theorem Sound.attempts_sublist (h : b.Sound) (calls : List Patch) :
    (b.attempts calls).patches.Sublist (b.patches ++ calls) := by
  induction calls generalizing b with
  | nil =>
    rw [List.append_nil]
    exact .refl _
  | cons p calls ih =>
    have hrest := ih (h.attempt p).1
    by_cases hp : b.Fits p.span
    · rw [attempt_of_fits h hp, List.append_assoc] at hrest
      change ((b.attempt p).attempts calls).patches.Sublist _
      rw [attempt_of_fits h hp]
      exact hrest
    · rw [attempt_of_not_fits h hp] at hrest
      change ((b.attempt p).attempts calls).patches.Sublist _
      rw [attempt_of_not_fits h hp]
      exact hrest.trans ((List.Sublist.refl _).append (List.sublist_cons_self p calls))

/-- Patches that fit together are all taken, in the order in which they are tried. -/
theorem attempts_of_sound {more : List Patch}
    (h : Sound { b with patches := b.patches ++ more }) :
    b.attempts more = { b with patches := b.patches ++ more } := by
  induction more generalizing b with
  | nil => simp [attempts]
  | cons p more ih =>
    have hmem : ∀ q ∈ b.patches, q ∈ b.patches ++ p :: more := fun q => List.mem_append_left _
    have hp : p ∈ b.patches ++ p :: more := List.mem_append_right _ List.mem_cons_self
    obtain ⟨hapart, -, hcross⟩ := List.pairwise_append.1 h.apart
    have hsound : b.Sound :=
      ⟨fun q hq => h.solid q (hmem q hq), fun q hq => h.inside q (hmem q hq), hapart⟩
    have hfits : b.Fits p.span := ⟨h.solid p hp, h.inside p hp,
      free_iff.2 fun q hq => (hcross q hq p List.mem_cons_self).symm⟩
    have happend : b.patches ++ p :: more = (b.patches ++ [p]) ++ more := List.append_cons ..
    rw [happend] at h
    change (b.attempt p).attempts more = _
    rw [attempt_of_fits hsound hfits, ih h, happend]

/-! Looking patches up. -/

theorem of_covering?_eq_some {r : Span} (h : b.covering? line = some r) :
    r ∈ b.patches.map Patch.span ∧ r.contains line = true := by
  rw [covering?] at h
  have hr := List.find?_some h
  exact ⟨List.mem_of_find?_eq_some h, hr⟩

theorem Sound.covering?_eq_some (h : b.Sound) {r : Span} :
    b.covering? line = some r ↔ r ∈ b.patches.map Patch.span ∧ r.contains line = true := by
  refine ⟨of_covering?_eq_some, ?_⟩
  rintro ⟨hr, hline⟩
  obtain ⟨p, hp, rfl⟩ := List.mem_map.1 hr
  cases hfind : b.covering? line with
  | none =>
    have hnone := List.find?_eq_none.1 hfind p.span hr
    simp [hline] at hnone
  | some found =>
    obtain ⟨hfound, hcontains⟩ := of_covering?_eq_some hfind
    obtain ⟨q, hq, rfl⟩ := List.mem_map.1 hfound
    rw [h.eq_of_contains hp hq hline hcontains]

/-- The patch with the last start up to a line. -/
def Nearest (b : PatchedBody) (line : Nat) (p : Patch) : Prop :=
  p ∈ b.patches ∧ p.span.start ≤ line ∧
    ∀ q ∈ b.patches, q.span.start ≤ line → q.span.start ≤ p.span.start

/-- Only the nearest patch can hold a line. -/
theorem Sound.covering?_iff_nearest (h : b.Sound) {r : Span} :
    b.covering? line = some r ↔ ∃ p, b.Nearest line p ∧ line < p.span.stop ∧ p.span = r := by
  rw [h.covering?_eq_some, List.mem_map]
  constructor
  · rintro ⟨⟨p, hp, rfl⟩, hline⟩
    rw [Span.contains_iff] at hline
    refine ⟨p, ⟨hp, hline.1, fun q hq hstart => ?_⟩, hline.2, rfl⟩
    -- A patch that starts between the two would start inside the first.
    by_cases hle : q.span.start ≤ p.span.start
    · exact hle
    · have hcontains : p.span.contains q.span.start = true :=
        Span.contains_iff.2 ⟨by omega, by omega⟩
      obtain rfl := h.eq_of_contains hp hq hcontains (h.contains_start hq)
      exact Nat.le_refl _
  · rintro ⟨p, ⟨hp, hstart, -⟩, hstop, rfl⟩
    exact ⟨⟨p, hp, rfl⟩, Span.contains_iff.2 ⟨hstart, hstop⟩⟩

end PatchedBody
end Offload
