import Mathlib.Data.List.Pairwise
import Offload.Proofs.Growth
import Offload.Proofs.Patch

/-!
Directives whose constructs do not cross. Put into a tree in the order of their lines, they are all
accepted, and the tree passes the final check.
-/
namespace Offload

open Outcome

namespace Span

variable {s u : Span}

/-- The spans overlap and neither lies within the other. -/
def crosses (s u : Span) : Bool := s.overlaps u && !s.encloses u && !u.encloses s

/-- Spans cross exactly if they share a line and each has a line of its own. -/
theorem crosses_iff :
    s.crosses u = true ↔ (∃ line, s.contains line = true ∧ u.contains line = true) ∧
      (∃ line, s.contains line = true ∧ u.contains line = false) ∧
      ∃ line, u.contains line = true ∧ s.contains line = false := by
  simp only [contains_iff, contains_eq_false]
  simp only [crosses, overlaps, encloses, Bool.and_eq_true, Bool.not_eq_true', Bool.and_eq_false_iff,
    decide_eq_true_eq, decide_eq_false_iff_not]
  constructor
  · rintro ⟨⟨hoverlap, hs⟩, hu⟩
    rcases Nat.lt_or_ge s.start u.start with hlt | hge
    · exact ⟨⟨u.start, by omega⟩, ⟨s.start, by omega⟩, ⟨s.stop, by omega⟩⟩
    · exact ⟨⟨s.start, by omega⟩, ⟨u.stop, by omega⟩, ⟨u.start, by omega⟩⟩
  · rintro ⟨⟨shared, hshared⟩, ⟨left, hleft⟩, ⟨right, hright⟩⟩
    omega

theorem crosses_self (s : Span) : s.crosses s = false := by
  simp [crosses, encloses]

theorem crosses_comm (s u : Span) : s.crosses u = u.crosses s := by
  rw [Bool.eq_iff_iff, crosses_iff, crosses_iff]
  simp only [and_comm]

end Span

namespace Directive

/-- The lines from a directive to the end of its region. -/
def extent? (d : Directive) : Option Span := d.region.map fun r => ⟨d.line, r.stop⟩

/-- Two compute constructs whose extents cross. -/
def crosses (d d' : Directive) : Bool :=
  d.kind.isCompute && d'.kind.isCompute &&
    d.extent?.any fun s => d'.extent?.any fun u => s.crosses u

theorem crosses_iff {d d' : Directive} :
    d.crosses d' = true ↔ d.kind.isCompute = true ∧ d'.kind.isCompute = true ∧
      ∃ r r', d.region = some r ∧ d'.region = some r' ∧
        Span.crosses ⟨d.line, r.stop⟩ ⟨d'.line, r'.stop⟩ = true := by
  cases hr : d.region <;> cases hr' : d'.region <;> simp [crosses, extent?, hr, hr', and_assoc]

theorem crosses_self (d : Directive) : d.crosses d = false := by
  cases hr : d.region <;> simp [crosses, extent?, hr, Span.crosses_self]

theorem crosses_comm (d d' : Directive) : d.crosses d' = d'.crosses d := by
  cases hr : d.region <;> cases hr' : d'.region <;>
    simp [crosses, extent?, hr, hr', Span.crosses_comm ⟨d.line, _⟩, Bool.and_comm]

end Directive

namespace DirectiveTree

variable {t : DirectiveTree} {lineCount : Nat}

/-- Constructs that cross over a directive of a tree have extents that cross. -/
theorem Grown.exists_crosses (h : t.Grown) {p q w : Nat} (hx : t.Crossing p q w) :
    ∃ e ∈ t.entries, ∃ e' ∈ t.entries, e.directive.crosses e'.directive = true := by
  have hpq : p ∈ t.ancestors q := by
    rw [ancestors_of_parent? hx.under]
    exact List.mem_cons_self
  have hlt := lt_of_mem_ancestors hpq
  obtain ⟨i, e, rfl, he, -, hcompute⟩ := h.exists_of_mem_ancestors hpq hx.not_root
  obtain ⟨j, e', rfl, he', hinserted, hcompute'⟩ := h.exists_of_mem_ancestors hx.above (by omega)
  have hgov' := hx.governed
  have hesc := hx.escaped
  rw [get_succ he'] at hgov'
  rw [get_succ he] at hesc
  -- The outer construct governs the line of the inner one.
  have hgov : e.directive.line < e'.directive.line ∧
      e.directive.governs e'.directive.line = true := by
    have hparent : e'.parent = i + 1 := Option.some.inj ((parent?_succ he').symm.trans hx.under)
    rcases h.parent_cases he' with ⟨hroot, -⟩ | ⟨k, owner, hk, ho, hholds⟩
    · omega
    obtain rfl : k = i := by omega
    obtain rfl : owner = e := Option.some.inj (ho.symm.trans he)
    rcases hholds.place with ⟨-, hline, hgov⟩ | ⟨hattached, -⟩
    · exact ⟨hline, hgov⟩
    · simp [hinserted] at hattached
  obtain ⟨hline, hgov⟩ := hgov
  obtain ⟨r, hr, hstart, hstop⟩ := Directive.governs_iff.1 hgov
  obtain ⟨r', hr', hstart', hstop'⟩ := Directive.governs_iff.1 hgov'
  have hbelow' := h.region_below he' hr'
  have hout : ¬ (t.get w).line < r.stop := by
    intro hin
    have hcontains := Directive.governs_iff.2 ⟨r, hr, by omega, hin⟩
    rw [hesc] at hcontains
    simp at hcontains
  refine ⟨e, List.mem_of_getElem? he, e', List.mem_of_getElem? he', ?_⟩
  refine Directive.crosses_iff.2 ⟨hcompute, hcompute', r, r', hr, hr', Span.crosses_iff.2 ?_⟩
  simp only [Span.contains_iff, Span.contains_eq_false]
  exact ⟨⟨e'.directive.line, by omega⟩, ⟨e.directive.line, by omega⟩, ⟨(t.get w).line, by omega⟩⟩

/-- A directive with a region behind it, and the loop half if it is a fused construct. -/
structure Contribution where
  directive : Directive
  half : Option Directive
  written : directive.kind ≠ .root
  region_below : ∀ r, directive.region = some r → directive.line < r.start
  halves : ∀ loop ∈ half, Halves directive loop

namespace Contribution

def line (c : Contribution) : Nat := c.directive.line

/-- The nodes of a contribution in the order in which they are put into a tree. -/
def directives (c : Contribution) : List Directive := c.directive :: c.half.toList

theorem line_of_mem {c : Contribution} {d : Directive} (h : d ∈ c.directives) : d.line = c.line := by
  rcases List.mem_cons.1 h with rfl | h
  · rfl
  · exact (c.halves d (Option.mem_toList.1 h)).line

theorem eq_of_compute {c : Contribution} {d : Directive} (h : d ∈ c.directives)
    (hd : d.kind.isCompute = true) : d = c.directive := by
  rcases List.mem_cons.1 h with rfl | h
  · rfl
  · rw [(c.halves d (Option.mem_toList.1 h)).loop] at hd
    exact absurd hd (by decide)

end Contribution

/-- Inserts a directive, and attaches its loop half to it. -/
def contribute (t : DirectiveTree) (c : Contribution) : Except InternalFault DirectiveTree := do
  let (t, id) ← t.insert c.directive
  match c.half with
  | none => return t
  | some half => return (← t.attach id half).1

/-- A tree of the given contributions. -/
structure Holding (lineCount : Nat) (contributions : List Contribution) (t : DirectiveTree) :
    Prop where
  grown : t.Grown
  lineCount : t.lineCount = lineCount
  directives : t.entries.map TreeEntry.directive = contributions.flatMap Contribution.directives

namespace Holding

theorem exists_of_mem {contributions : List Contribution} {e : TreeEntry}
    (h : Holding lineCount contributions t) (he : e ∈ t.entries) :
    ∃ c ∈ contributions, e.directive ∈ c.directives := by
  have hmem := List.mem_map_of_mem (f := TreeEntry.directive) he
  rw [h.directives] at hmem
  exact List.mem_flatMap.1 hmem

/-- A contribution behind all others is accepted. -/
theorem contribute {contributions : List Contribution} {c : Contribution}
    (h : Holding lineCount contributions t) (hline : c.line < lineCount)
    (hnew : ∀ other ∈ contributions, other.line < c.line) :
    ∃ t', t.contribute c = .ok t' ∧ Holding lineCount (contributions ++ [c]) t' := by
  have hbehind : ∀ e ∈ t.entries, e.directive.line < c.directive.line := by
    intro e he
    obtain ⟨other, hother, hmem⟩ := h.exists_of_mem he
    rw [Contribution.line_of_mem hmem]
    exact hnew other hother
  have hbound : c.directive.line < t.lineCount := by
    rw [h.lineCount]
    exact hline
  have hinsert := insert_eq_ok c.written hbound (atLine?_eq_none hbehind)
  refine ⟨t.graft c.directive c.half, ?_, ?_⟩
  · rw [DirectiveTree.contribute, hinsert, ok_bind]
    cases hhalf : c.half with
    | none => rfl
    | some half =>
      have hh := c.halves half hhalf
      simp only [put_snd, attach_put hh.compute hh.line.symm hh.region.symm]
      rfl
  · constructor
    · exact h.grown.graft c.written hbound c.region_below c.halves hbehind
    · rw [lineCount_graft, h.lineCount]
    · rw [entries_graft, List.map_append, h.directives, List.flatMap_append]
      cases hhalf : c.half <;> simp [scions, Contribution.directives, hhalf]

/-- Contributions in the order of their lines are accepted one after the other. -/
theorem foldlM_contribute {done rest : List Contribution} (h : Holding lineCount done t)
    (hlines : (done ++ rest).Pairwise fun c c' => c.line < c'.line)
    (hbelow : ∀ c ∈ rest, c.line < lineCount) :
    ∃ t', rest.foldlM DirectiveTree.contribute t = .ok t' ∧ Holding lineCount (done ++ rest) t' := by
  induction rest generalizing done t with
  | nil =>
    rw [List.append_nil]
    exact ⟨t, rfl, h⟩
  | cons c rest ih =>
    obtain ⟨hline, hrest⟩ := List.forall_mem_cons.1 hbelow
    have hnew : ∀ other ∈ done, other.line < c.line := fun other hother =>
      (List.pairwise_append.1 hlines).2.2 other hother c List.mem_cons_self
    obtain ⟨next, hnext, hholding⟩ := h.contribute hline hnew
    rw [List.append_cons] at hlines ⊢
    obtain ⟨t', hfold, hfinal⟩ := ih hholding hlines hrest
    refine ⟨t', ?_, hfinal⟩
    rw [List.foldlM_cons, hnext, ok_bind, hfold]

/-- Without constructs that cross, the final check succeeds. -/
theorem validate_eq_ok {contributions : List Contribution}
    (h : Holding lineCount contributions t)
    (hcross : ∀ c ∈ contributions, ∀ c' ∈ contributions, c.directive.crosses c'.directive = false) :
    t.validate = .ok () := by
  refine h.grown.validate_eq_ok_iff_not_crossing.2 fun p q w hx => ?_
  obtain ⟨e, he, e', he', hcrosses⟩ := h.grown.exists_crosses hx
  obtain ⟨hcompute, hcompute', -⟩ := Directive.crosses_iff.1 hcrosses
  obtain ⟨c, hc, hmem⟩ := h.exists_of_mem he
  obtain ⟨c', hc', hmem'⟩ := h.exists_of_mem he'
  rw [Contribution.eq_of_compute hmem hcompute, Contribution.eq_of_compute hmem' hcompute',
    hcross c hc c' hc'] at hcrosses
  simp at hcrosses

end Holding

/-- Directives that come in the order of their lines, and of which no two constructs cross, are all
accepted, and their tree passes the final check. -/
theorem validate_of_not_crosses (lineCount : Nat) (contributions : List Contribution)
    (hlines : contributions.Pairwise fun c c' => c.line < c'.line)
    (hbelow : ∀ c ∈ contributions, c.line < lineCount)
    (hcross : contributions.Pairwise fun c c' => c.directive.crosses c'.directive = false) :
    ∃ t, contributions.foldlM contribute (empty lineCount) = .ok t ∧
      t.toList = .root lineCount :: contributions.flatMap Contribution.directives ∧
      t.validate = .ok () := by
  have hstart : Holding lineCount [] (empty lineCount) := ⟨grown_empty lineCount, rfl, rfl⟩
  obtain ⟨t, hfold, hholding⟩ := hstart.foldlM_contribute hlines hbelow
  refine ⟨t, hfold, ?_, hholding.validate_eq_ok ?_⟩
  · rw [toList, hholding.directives, root, hholding.lineCount]
    rfl
  · refine fun c hc c' hc' => hcross.forall_of_forall_of_flip (fun c _ => c.directive.crosses_self)
      (hcross.imp fun {c c'} h => ?_) hc hc'
    rw [flip, Directive.crosses_comm]
    exact h

/-- A fused construct and one without a loop, both inside a third. -/
def threeConstructs : List Contribution := [
  { directive := { kind := .kernels, line := 0, region := some ⟨2, 9⟩, delimited := true }
    half := none
    written := by decide
    region_below := by simp
    halves := by simp },
  { directive := { kind := .parallel, line := 2, region := some ⟨3, 6⟩, fused := true }
    half := some { kind := .loop, line := 2, region := some ⟨3, 6⟩, fused := true }
    written := by decide
    region_below := by simp
    halves := by
      rintro loop ⟨⟩
      exact ⟨rfl, rfl, rfl, rfl, rfl, rfl⟩ },
  { directive := { kind := .serial, line := 6, region := some ⟨7, 9⟩ }
    half := none
    written := by decide
    region_below := by simp
    halves := by simp }]

theorem threeConstructs_validate :
    ∃ t, threeConstructs.foldlM contribute (empty 10) = .ok t ∧
      t.toList = .root 10 :: threeConstructs.flatMap Contribution.directives ∧
      t.validate = .ok () :=
  validate_of_not_crosses 10 threeConstructs (by decide) (by decide) (by decide)

end DirectiveTree
end Offload
