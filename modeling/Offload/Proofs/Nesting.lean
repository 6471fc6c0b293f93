import Offload.Proofs.Tree

/-!
Nesting. In a tree that has grown line by line, only one check of `validate` can fail: that a
directive lies in the regions of all constructs above it. It fails when two constructs cross over
a directive; where it succeeds, ancestors are the constructs that govern the line.
-/
namespace Offload

/-- What the final check asks of a directive and a directive above it. -/
def Directive.admits (ancestor d : Directive) : Bool :=
  ancestor.fused && ancestor.line == d.line || ancestor.isRoot || ancestor.governs d.line

/-- The loop half of the construct's own annotation. -/
def Directive.isLoopHalfOf (half construct : Directive) : Bool :=
  half.kind == .loop && half.fused && construct.fused && half.line == construct.line

namespace DirectiveTree

variable {t : DirectiveTree}

/-- The parent of a node that is not under the root. -/
structure Holds (owner e : TreeEntry) : Prop where
  inserted : owner.attached = false
  compute : owner.directive.kind.isCompute = true
  place : (e.attached = false ∧ owner.directive.line < e.directive.line ∧
      owner.directive.governs e.directive.line = true) ∨
    (e.attached = true ∧ Halves owner.directive e.directive)

/-- A construct `q` stands under a construct `p`, and a directive `w` under `q` lies in the region
of `q` but not in that of `p`. -/
structure Crossing (t : DirectiveTree) (p q w : Nat) : Prop where
  under : t.parent? q = some p
  above : q ∈ t.ancestors w
  not_root : p ≠ 0
  governed : (t.get q).governs (t.get w).line = true
  escaped : (t.get p).governs (t.get w).line = false

instance (t : DirectiveTree) (p q w : Nat) : Decidable (t.Crossing p q w) :=
  decidable_of_iff (t.parent? q = some p ∧ q ∈ t.ancestors w ∧ p ≠ 0 ∧
      (t.get q).governs (t.get w).line = true ∧ (t.get p).governs (t.get w).line = false)
    ⟨fun ⟨h₁, h₂, h₃, h₄, h₅⟩ => ⟨h₁, h₂, h₃, h₄, h₅⟩,
      fun h => ⟨h.under, h.above, h.not_root, h.governed, h.escaped⟩⟩

/-- No directive stands between another and the region of that one. -/
def Snug (t : DirectiveTree) : Prop :=
  ∀ {i j : Nat} {p w : TreeEntry} {r : Span}, t.entries[i]? = some p → t.entries[j]? = some w →
    p.directive.region = some r → p.directive.line < w.directive.line → r.start ≤ w.directive.line

namespace Grown

theorem parent_cases (h : t.Grown) {i : Nat} {e : TreeEntry} (he : t.entries[i]? = some e) :
    (e.parent = 0 ∧ e.attached = false) ∨
      ∃ j owner, e.parent = j + 1 ∧ t.entries[j]? = some owner ∧ Holds owner e := by
  cases ha : e.attached with
  | false =>
    have hp := h.inserted he ha
    rcases t.parentFor_cases e.directive.line with ⟨hzero, -⟩ | ⟨owner, hmem, -⟩
    · exact .inl ⟨hp.trans hzero, rfl⟩
    · obtain ⟨⟨j, hj, ho⟩, hoa, hlt, hkind, hgov⟩ := mem_candidates.1 hmem
      have hcompute : owner.directive.kind.isCompute = true :=
        (DirectiveKind.holdsChildren_iff.1 hkind).resolve_left (h.written ho)
      exact .inr ⟨j, owner, hp.trans hj, ho, hoa, hcompute, .inl ⟨ha, hlt, hgov⟩⟩
  | true =>
    obtain ⟨j, owner, -, hp, ho, hoa, hhalves⟩ := h.attached he ha
    exact .inr ⟨j, owner, hp, ho, hoa, hhalves.compute, .inr ⟨ha, hhalves⟩⟩

/-- Compute constructs are inserted, never attached. -/
theorem inserted_of_compute (h : t.Grown) {i : Nat} {e : TreeEntry} (he : t.entries[i]? = some e)
    (hc : e.directive.kind.isCompute = true) : e.attached = false := by
  cases ha : e.attached with
  | false => rfl
  | true =>
    obtain ⟨j, owner, -, -, -, -, hhalves⟩ := h.attached he ha
    rw [hhalves.loop] at hc
    exact absurd hc (by decide)

theorem eq_of_line_eq (h : t.Grown) {i j : Nat} {e e' : TreeEntry} (he : t.entries[i]? = some e)
    (he' : t.entries[j]? = some e') (ha : e.attached = false) (ha' : e'.attached = false)
    (hline : e.directive.line = e'.directive.line) : i = j := by
  rcases Nat.lt_trichotomy i j with hij | hij | hij
  · have := h.ordered hij he he' ha ha'
    omega
  · exact hij
  · have := h.ordered hij he' he ha' ha
    omega

/-- An ancestor other than the root is an inserted compute construct. -/
theorem exists_of_mem_ancestors (h : t.Grown) {a id : Nat} (ha : a ∈ t.ancestors id) (hzero : a ≠ 0) :
    ∃ j owner, a = j + 1 ∧ t.entries[j]? = some owner ∧ owner.attached = false ∧
      owner.directive.kind.isCompute = true := by
  induction id using Nat.strongRecOn with
  | ind id ih =>
    obtain ⟨parent, hp, hmem⟩ := mem_ancestors_iff.1 ha
    rcases hmem with rfl | hmem
    · obtain ⟨i, e, rfl, he, rfl⟩ := exists_entry hp
      rcases h.parent_cases he with ⟨hroot, -⟩ | ⟨j, owner, hj, ho, hholds⟩
      · exact absurd hroot hzero
      · exact ⟨j, owner, hj, ho, hholds.inserted, hholds.compute⟩
    · exact ih parent (parent?_lt hp) hmem

/-! The final check. -/

theorem region_of_children (h : t.Grown) {i : Nat} {e : TreeEntry} (he : t.entries[i]? = some e)
    (hc : t.children (i + 1) ≠ []) : e.directive.region.isSome = true ∨ e.directive.fused = true := by
  obtain ⟨child, hchild⟩ := List.exists_mem_of_ne_nil _ hc
  obtain ⟨j, e', -, he', hparent⟩ := exists_entry (mem_children_iff.1 hchild)
  rcases h.parent_cases he' with ⟨hroot, -⟩ | ⟨k, owner, hk, ho, hholds⟩
  · omega
  · obtain rfl : k = i := by omega
    obtain rfl : owner = e := Option.some.inj (ho.symm.trans he)
    rcases hholds.place with ⟨-, -, hgov⟩ | ⟨-, hhalves⟩
    · obtain ⟨r, hr, -⟩ := Directive.governs_iff.1 hgov
      simp [hr]
    · exact .inr hhalves.owner_fused

/-- Of all that can be wrong with a node, growth leaves that it escapes an ancestor. -/
theorem fault?_eq (h : t.Grown) {i : Nat} {e : TreeEntry} (he : t.entries[i]? = some e) :
    t.fault? e (i + 1) = (t.ancestors (i + 1)).findSome? fun a =>
      if (t.get a).admits e.directive then none
      else some (.escapesAncestor e.directive.line (t.get a).line) := by
  have hregion : (e.directive.region.isNone && !e.directive.fused &&
      !(t.children (i + 1)).isEmpty) = false := by
    cases hc : (t.children (i + 1)).isEmpty with
    | true => simp
    | false =>
      rcases h.region_of_children he (by simpa using hc) with hr | hf
      · obtain ⟨r, hr⟩ := Option.isSome_iff_exists.1 hr
        simp [hr]
      · simp [hf]
  unfold fault?
  simp only [hregion]
  rcases h.parent_cases he with ⟨hroot, -⟩ | ⟨j, owner, hj, ho, hholds⟩
  · rw [hroot, get_zero]
    simp [root, Directive.root, Directive.isRoot, Directive.admits]
  · rw [hj, get_succ ho]
    rcases hholds.place with ⟨-, hlt, hgov⟩ | ⟨-, hhalves⟩
    · have hne : (owner.directive.line == e.directive.line) = false := by simp; omega
      simp [hne, hgov, Directive.admits]
    · simp [hhalves.line, hhalves.region, hhalves.owner_fused, hhalves.half_fused, Directive.admits]

theorem validate_eq_ok_iff (h : t.Grown) :
    t.validate = .ok () ↔ ∀ i e, t.entries[i]? = some e → ∀ a ∈ t.ancestors (i + 1),
      (t.get a).admits e.directive = true := by
  unfold validate
  split
  · next fault hf =>
    simp only [reduceCtorEq, false_iff]
    intro hall
    obtain ⟨⟨e, id⟩, hmem, hfault⟩ := List.exists_of_findSome?_eq_some hf
    obtain ⟨i, rfl, he⟩ := mem_numbered.1 hmem
    simp only [h.fault?_eq he] at hfault
    obtain ⟨a, ha, hfault⟩ := List.exists_of_findSome?_eq_some hfault
    simp [hall i e he a ha] at hfault
  · next hf =>
    simp only [true_iff]
    intro i e he a ha
    have hnone := List.findSome?_eq_none_iff.1 hf (e, i + 1) (mem_numbered.2 ⟨i, rfl, he⟩)
    simp only [h.fault?_eq he, List.findSome?_eq_none_iff, ite_eq_left_iff] at hnone
    simpa using hnone a ha

theorem validate_eq_error (h : t.Grown) {fault : InternalFault} (hv : t.validate = .error fault) :
    ∃ line ancestorLine, fault = .escapesAncestor line ancestorLine := by
  unfold validate at hv
  split at hv
  · next f hf =>
    obtain rfl := Except.error.inj hv
    obtain ⟨⟨e, id⟩, hmem, hfault⟩ := List.exists_of_findSome?_eq_some hf
    obtain ⟨i, rfl, he⟩ := mem_numbered.1 hmem
    simp only [h.fault?_eq he] at hfault
    obtain ⟨a, -, hfault⟩ := List.exists_of_findSome?_eq_some hfault
    split at hfault
    · simp at hfault
    · exact ⟨_, _, (Option.some.inj hfault).symm⟩
  · simp at hv

/-! Crossing. -/

/-- The line of a construct lies before every line that it governs. -/
theorem line_lt_of_governs (h : t.Grown) {i line : Nat} {e : TreeEntry} (he : t.entries[i]? = some e)
    (hgov : e.directive.governs line = true) : e.directive.line < line := by
  obtain ⟨r, hr, hstart, -⟩ := Directive.governs_iff.1 hgov
  have := h.region_below he hr
  omega

theorem not_admits_of_crossing (h : t.Grown) {p q w : Nat} (hx : t.Crossing p q w) :
    p ∈ t.ancestors w ∧ (t.get p).admits (t.get w) = false := by
  have hmem : p ∈ t.ancestors q := by simp [ancestors_of_parent? hx.under]
  refine ⟨mem_ancestors_trans hmem hx.above, ?_⟩
  have hq0 : q ≠ 0 := by
    have := lt_of_mem_ancestors hmem
    omega
  obtain ⟨j, eq, rfl, heq, hqa, hqc⟩ := h.exists_of_mem_ancestors hx.above hq0
  obtain ⟨i, ep, rfl, hep, -, hpc⟩ := h.exists_of_mem_ancestors hmem hx.not_root
  have hgov := hx.governed
  rw [get_succ heq] at hgov
  have hqw := h.line_lt_of_governs heq hgov
  -- The construct above comes first, so the two cannot share an annotation.
  have hpq : ep.directive.line < eq.directive.line :=
    h.ordered (by have := lt_of_mem_ancestors hmem; omega) hep heq (h.inserted_of_compute hep hpc) hqa
  have hesc := hx.escaped
  rw [get_succ hep] at hesc ⊢
  have hne : (ep.directive.line == (t.get w).line) = false := by
    simp only [beq_eq_false_iff_ne]
    omega
  have hroot : ep.directive.isRoot = false := by
    simpa [Directive.isRoot] using h.written hep
  simp [Directive.admits, hesc, hne, hroot]

/-- What admits a directive passes this on to its own parent, unless the two cross. -/
theorem admits_of_not_crossing (h : t.Grown) {k : Nat} {w : TreeEntry} (hw : t.entries[k]? = some w)
    (hx : ∀ p q, ¬ t.Crossing p q (k + 1)) {x : Nat}
    (hself : x = k + 1 ∨ x ∈ t.ancestors (k + 1) ∧ (t.get x).admits w.directive = true) {a : Nat}
    (ha : a ∈ t.ancestors x) : (t.get a).admits w.directive = true := by
  induction x using Nat.strongRecOn with
  | ind x ih =>
    obtain ⟨parent, hp, hmem⟩ := mem_ancestors_iff.1 ha
    have hlt := parent?_lt hp
    have habove : parent ∈ t.ancestors (k + 1) := by
      have : parent ∈ t.ancestors x := by simp [ancestors_of_parent? hp]
      rcases hself with rfl | ⟨hx', -⟩
      · exact this
      · exact mem_ancestors_trans this hx'
    have hadmits : (t.get parent).admits w.directive = true := by
      by_cases hzero : parent = 0
      · rw [hzero]
        simp [get_zero, root, Directive.root, Directive.admits, Directive.isRoot]
      obtain ⟨i, e, rfl, he, rfl⟩ := exists_entry hp
      rcases h.parent_cases he with ⟨hroot, -⟩ | ⟨j, owner, hj, ho, hholds⟩
      · exact absurd hroot hzero
      rw [hj, get_succ ho]
      -- The owner governs the line of `e`, or shares the annotation with it.
      rcases hself with hi | ⟨hx', hadm⟩
      · obtain rfl : i = k := by omega
        obtain rfl : e = w := Option.some.inj (he.symm.trans hw)
        rcases hholds.place with ⟨-, -, hgov⟩ | ⟨-, hhalves⟩
        · simp [Directive.admits, hgov]
        · simp [Directive.admits, hhalves.owner_fused, hhalves.line]
      · obtain ⟨i', e', hi', he', hea, hec⟩ := h.exists_of_mem_ancestors hx' (by omega)
        obtain rfl : i = i' := by omega
        obtain rfl : e = e' := Option.some.inj (he.symm.trans he')
        rcases hholds.place with ⟨-, -, hgov⟩ | ⟨hattached, -⟩
        · rw [get_succ he] at hadm
          simp only [Directive.admits, Bool.or_eq_true, Bool.and_eq_true, beq_iff_eq] at hadm
          rcases hadm with (⟨-, hline⟩ | hroot) | hgov'
          · rw [hline] at hgov
            simp [Directive.admits, hgov]
          · exact absurd (by simpa [Directive.isRoot] using hroot) (h.written he)
          · cases hesc : owner.directive.governs w.directive.line with
            | true => simp [Directive.admits, hesc]
            | false =>
              refine absurd ?_ (hx (j + 1) (i + 1))
              refine ⟨?_, hx', by omega, ?_, ?_⟩
              · rw [parent?_succ he, hj]
              · rwa [get_succ he, get_succ hw]
              · rwa [get_succ ho, get_succ hw]
        · simp [hea] at hattached
    rcases hmem with rfl | hmem
    · exact hadmits
    · exact ih parent hlt (.inr ⟨habove, hadmits⟩) hmem

/-- The final check succeeds exactly on trees without crossings. -/
theorem validate_eq_ok_iff_not_crossing (h : t.Grown) :
    t.validate = .ok () ↔ ∀ p q w, ¬ t.Crossing p q w := by
  rw [h.validate_eq_ok_iff]
  constructor
  · intro hall p q w hx
    obtain ⟨hmem, hadm⟩ := h.not_admits_of_crossing hx
    obtain ⟨parent, hp, -⟩ := mem_ancestors_iff.1 hmem
    obtain ⟨k, e, rfl, he, -⟩ := exists_entry hp
    rw [get_succ he, hall k e he p hmem] at hadm
    exact absurd hadm (by simp)
  · intro hx k w hw a ha
    exact h.admits_of_not_crossing hw (fun p q => hx p q (k + 1)) (.inl rfl) ha

/-! Ancestors as governing constructs. -/

theorem mem_ancestors_of_governs (h : t.Grown) (hs : t.Snug) {i j : Nat} {p w : TreeEntry}
    (hp : t.entries[i]? = some p) (hw : t.entries[j]? = some w)
    (hc : p.directive.kind.isCompute = true) (hgov : p.directive.governs w.directive.line = true)
    (hij : i ≠ j) : i + 1 ∈ t.ancestors (j + 1) := by
  induction j using Nat.strongRecOn generalizing w with
  | ind j ih =>
    have hpa := h.inserted_of_compute hp hc
    have hline := h.line_lt_of_governs hp hgov
    rw [ancestors_of_parent? (parent?_succ hw)]
    cases ha : w.attached with
    | true =>
      obtain ⟨k, owner, rfl, hparent, ho, -, hhalves⟩ := h.attached hw ha
      rw [hparent]
      by_cases hik : i = k
      · simp [hik]
      · rw [hhalves.line] at hgov
        exact List.mem_cons_of_mem _ (ih k (by omega) ho hgov hik)
    | false =>
      rw [h.inserted hw ha]
      have hcand : (p, i + 1) ∈ t.candidates w.directive.line :=
        mem_candidates.2 ⟨⟨i, rfl, hp⟩, hpa, hline, DirectiveKind.holdsChildren_iff.2 (.inr hc), hgov⟩
      rcases t.parentFor_cases w.directive.line with ⟨-, hnil⟩ | ⟨q, hmem, hlast⟩
      · rw [hnil] at hcand
        simp at hcand
      obtain ⟨⟨k, hk, hq⟩, hqa, hqw, -, -⟩ := mem_candidates.1 hmem
      have hpq := hlast _ hcand
      rw [hk]
      by_cases hik : i = k
      · simp [hik]
      -- The parent lies between `p` and `w`, hence in the region of `p`.
      · have hpq' : p.directive.line < q.directive.line := by
          have := mt (h.eq_of_line_eq hp hq hpa hqa) hik
          simp only at hpq
          omega
        have hgovq : p.directive.governs q.directive.line = true := by
          obtain ⟨r, hr, hstart, hstop⟩ := Directive.governs_iff.1 hgov
          exact Directive.governs_iff.2 ⟨r, hr, hs hp hq hr hpq', by omega⟩
        have hkj : k < j := by
          have := t.parent_le j w hw
          rw [h.inserted hw ha] at this
          omega
        exact List.mem_cons_of_mem _ (ih k hkj hq hgovq hik)

/-- A directive on the line of a construct, other than the construct, is its loop half. -/
theorem halves_of_line_eq (h : t.Grown) {i j : Nat} {p w : TreeEntry}
    (hp : t.entries[i]? = some p) (hw : t.entries[j]? = some w) (hpa : p.attached = false)
    (hline : w.directive.line = p.directive.line) (hij : i ≠ j) :
    j = i + 1 ∧ w.parent = i + 1 ∧ Halves p.directive w.directive := by
  cases ha : w.attached with
  | false => exact absurd (h.eq_of_line_eq hp hw hpa ha hline.symm) hij
  | true =>
    obtain ⟨k, owner, rfl, hparent, ho, hoa, hhalves⟩ := h.attached hw ha
    obtain rfl : i = k := h.eq_of_line_eq hp ho hpa hoa (by rw [← hline, hhalves.line])
    obtain rfl : p = owner := Option.some.inj (hp.symm.trans ho)
    exact ⟨rfl, hparent, hhalves⟩

/-- In a tree that passes the final check, the constructs above a directive are those that govern
its line, and the construct of its own annotation. -/
theorem mem_ancestors_iff_governs (h : t.Grown) (hs : t.Snug) (hv : t.validate = .ok ())
    {i j : Nat} {p w : TreeEntry} (hp : t.entries[i]? = some p) (hw : t.entries[j]? = some w)
    (hc : p.directive.kind.isCompute = true) (hij : i ≠ j) :
    i + 1 ∈ t.ancestors (j + 1) ↔
      p.directive.governs w.directive.line = true ∨
        w.directive.isLoopHalfOf p.directive = true := by
  have hpa := h.inserted_of_compute hp hc
  constructor
  · intro hmem
    have hadm := h.validate_eq_ok_iff.1 hv j w hw _ hmem
    rw [get_succ hp] at hadm
    simp only [Directive.admits, Bool.or_eq_true, Bool.and_eq_true, beq_iff_eq] at hadm
    rcases hadm with (⟨-, hline⟩ | hroot) | hgov
    · obtain ⟨-, -, hhalves⟩ := h.halves_of_line_eq hp hw hpa hline.symm hij
      right
      simp [Directive.isLoopHalfOf, hhalves.loop, hhalves.half_fused, hhalves.owner_fused, hline]
    · exact absurd (by simpa [Directive.isRoot] using hroot) (h.written hp)
    · exact .inl hgov
  · rintro (hgov | hhalf)
    · exact h.mem_ancestors_of_governs hs hp hw hc hgov hij
    · simp only [Directive.isLoopHalfOf, Bool.and_eq_true, beq_iff_eq] at hhalf
      obtain ⟨-, hparent, -⟩ := h.halves_of_line_eq hp hw hpa hhalf.2 hij
      rw [ancestors_of_parent? (parent?_succ hw), hparent]
      exact List.mem_cons_self

end Grown
end DirectiveTree
end Offload
