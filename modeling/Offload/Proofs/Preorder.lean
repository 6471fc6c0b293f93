import Mathlib.Data.List.Sort
import Offload.Proofs.Dispatch
import Offload.Proofs.Enclosure

/-!
The order of an outline. In the tree of a source, the parent of every directive is the directive
before it or stands above that one. An outline therefore lists the directives by number, and that is
in the order of their lines.
-/
namespace Offload

open Outcome

namespace Outline

mutual

/-- The directives of an outline from top to bottom. -/
def directives : Outline → List Directive
  | .node directive children => directive :: directivesOfAll children

def directivesOfAll : List Outline → List Directive
  | [] => []
  | first :: rest => directives first ++ directivesOfAll rest

end

theorem directivesOfAll_eq_flatMap (outlines : List Outline) :
    directivesOfAll outlines = outlines.flatMap directives := by
  induction outlines with
  | nil => rfl
  | cons first rest ih => rw [directivesOfAll, ih, List.flatMap_cons]

theorem linesOfAll_eq_flatMap (indent : Text) (outlines : List Outline) :
    linesOfAll indent outlines = outlines.flatMap (lines indent) := by
  induction outlines with
  | nil => rfl
  | cons first rest ih => rw [linesOfAll, ih, List.flatMap_cons]

end Outline

namespace DirectiveTree

variable {t : DirectiveTree} {id a b x y : Nat}

/-! From top to bottom. -/

/-- A node and all nodes under it, as an outline has them. -/
def preorder (t : DirectiveTree) (id : Nat) : List Nat :=
  id :: (t.children id).attach.flatMap fun child => t.preorder child.1
termination_by t.entries.length + 1 - id
decreasing_by
  have := of_mem_children child.2
  omega

theorem preorder_eq (t : DirectiveTree) (id : Nat) :
    t.preorder id = id :: (t.children id).flatMap t.preorder := by
  rw [preorder, ← List.flatMap_map Subtype.val t.preorder, List.attach_map_subtype_val]

theorem outlineOf_eq (t : DirectiveTree) (id : Nat) :
    t.outlineOf id = .node (t.get id) ((t.children id).map t.outlineOf) := by
  rw [outlineOf, List.attach_map_val]

theorem directives_outlineOf (t : DirectiveTree) (id : Nat) :
    (t.outlineOf id).directives = (t.preorder id).map t.get := by
  induction id using preorder.induct t with
  | case1 id ih =>
    rw [outlineOf_eq, preorder_eq, Outline.directives, Outline.directivesOfAll_eq_flatMap,
      List.flatMap_map, List.map_cons, List.map_flatMap]
    exact congrArg _ (List.flatMap_congr fun child hchild => ih ⟨child, hchild⟩)

/-- The space before a node in an outline. -/
def indentOf (t : DirectiveTree) (id : Nat) : Text := List.replicate (2 * t.depth id) ' '

theorem indentOf_of_mem_children {child : Nat} (h : child ∈ t.children id) :
    t.indentOf child = t.indentOf id ++ "  ".toList := by
  rw [indentOf, depth_of_parent? (mem_children_iff.1 h), Nat.mul_succ, List.replicate_add]
  rfl

theorem lines_outlineOf (t : DirectiveTree) (id : Nat) :
    (t.outlineOf id).lines (t.indentOf id) =
      (t.preorder id).map fun x => t.indentOf x ++ (t.get x).render := by
  induction id using preorder.induct t with
  | case1 id ih =>
    rw [outlineOf_eq, preorder_eq, Outline.lines, Outline.linesOfAll_eq_flatMap,
      List.flatMap_map, List.map_cons, List.map_flatMap]
    refine congrArg _ (List.flatMap_congr fun child hchild => ?_)
    rw [← ih ⟨child, hchild⟩, indentOf_of_mem_children hchild]

theorem toList_eq_map_get (t : DirectiveTree) : t.toList = (List.range t.size).map t.get := by
  refine List.ext_getElem (by simp [toList, size]) fun i hi _ => ?_
  rw [List.getElem_map, List.getElem_range]
  cases i with
  | zero => rfl
  | succ i =>
    have hentry : i < t.entries.length := by simpa [toList] using hi
    rw [get_succ (List.getElem?_eq_getElem hentry)]
    simp [toList]

/-! The nodes under a node. -/

theorem mem_preorder_self (t : DirectiveTree) (id : Nat) : id ∈ t.preorder id := by
  rw [preorder_eq]
  exact List.mem_cons_self

theorem mem_preorder_of_parent? (h : x ∈ t.preorder id) (hy : t.parent? y = some x) :
    y ∈ t.preorder id := by
  induction id using preorder.induct t with
  | case1 id ih =>
    rw [preorder_eq, List.mem_cons, List.mem_flatMap] at h ⊢
    right
    rcases h with rfl | ⟨child, hchild, h⟩
    · exact ⟨y, mem_children_iff.2 hy, t.mem_preorder_self y⟩
    · exact ⟨child, hchild, ih ⟨child, hchild⟩ h⟩

theorem mem_preorder_iff : x ∈ t.preorder id ↔ x = id ∨ id ∈ t.ancestors x := by
  constructor
  · intro h
    induction id using preorder.induct t with
    | case1 id ih =>
      rw [preorder_eq, List.mem_cons, List.mem_flatMap] at h
      rcases h with rfl | ⟨child, hchild, h⟩
      · exact .inl rfl
      have habove : id ∈ t.ancestors child := by
        rw [ancestors_of_parent? (mem_children_iff.1 hchild)]
        exact List.mem_cons_self
      rcases ih ⟨child, hchild⟩ h with rfl | hmem
      · exact .inr habove
      · exact .inr (mem_ancestors_trans habove hmem)
  · intro h
    induction x using Nat.strongRecOn with
    | ind x ih =>
      rcases h with rfl | h
      · exact t.mem_preorder_self x
      obtain ⟨parent, hparent, h⟩ := mem_ancestors_iff.1 h
      refine mem_preorder_of_parent? (ih parent (parent?_lt hparent) ?_) hparent
      exact h.imp_left Eq.symm

theorem le_of_mem_preorder (h : x ∈ t.preorder id) : id ≤ x := by
  rcases mem_preorder_iff.1 h with rfl | h
  · exact Nat.le_refl x
  · exact Nat.le_of_lt (lt_of_mem_ancestors h)

theorem zero_mem_ancestors_iff : 0 ∈ t.ancestors id ↔ 0 < id ∧ id < t.size := by
  constructor
  · intro h
    obtain ⟨parent, hparent, -⟩ := mem_ancestors_iff.1 h
    exact ⟨lt_of_mem_ancestors h, lt_size_of_parent? hparent⟩
  · rintro ⟨hpos, hsize⟩
    induction id using Nat.strongRecOn with
    | ind id ih =>
      obtain ⟨parent, hparent⟩ := exists_parent? hpos hsize
      have hlt := parent?_lt hparent
      rw [ancestors_of_parent? hparent, List.mem_cons]
      rcases Nat.eq_zero_or_pos parent with hzero | hpos'
      · exact .inl hzero.symm
      · exact .inr (ih parent hlt hpos' (by omega))

/-! Chains. -/

/-- Increasing numbers without a gap. -/
theorem eq_range'_of_pairwise {numbers : List Nat} {first : Nat}
    (hlt : numbers.Pairwise (· < ·)) (hle : ∀ x ∈ numbers, first ≤ x)
    (hgap : ∀ x ∈ numbers, ∀ y, first ≤ y → y ≤ x → y ∈ numbers) :
    numbers = List.range' first numbers.length := by
  induction numbers generalizing first with
  | nil => rfl
  | cons head rest ih =>
    obtain ⟨hhead, hrest⟩ := List.pairwise_cons.1 hlt
    have hfirst : first = head := by
      have hlow := hle head List.mem_cons_self
      rcases List.mem_cons.1 (hgap head List.mem_cons_self first (Nat.le_refl _) hlow) with heq | hmem
      · exact heq
      · have := hhead first hmem
        omega
    subst hfirst
    rw [List.length_cons, List.range'_succ]
    refine congrArg _ (ih hrest (fun x hx => hhead x hx) fun x hx y hy hyx => ?_)
    have hmem := hgap x (List.mem_cons_of_mem _ hx) y (by omega) hyx
    exact (List.mem_cons.1 hmem).resolve_left (by omega)

/-- The parent of each node is the node before it, or stands above that one. -/
def Chained (t : DirectiveTree) : Prop :=
  ∀ id parent, t.parent? (id + 1) = some parent → parent = id ∨ parent ∈ t.ancestors id

namespace Chained

/-- The nodes under a node are without a gap. -/
theorem mem_ancestors (h : t.Chained) (ha : a ∈ t.ancestors y) (hax : a < x) (hxy : x ≤ y) :
    a ∈ t.ancestors x := by
  induction y with
  | zero => omega
  | succ y ih =>
    rcases Nat.eq_or_lt_of_le hxy with rfl | hlt
    · exact ha
    refine ih ?_ (by omega)
    obtain ⟨parent, hparent, habove⟩ := mem_ancestors_iff.1 ha
    rcases h y parent hparent with hprevious | hchain
    · rcases habove with hself | habove
      · omega
      · rwa [hprevious] at habove
    · rcases habove with rfl | habove
      · exact hchain
      · exact mem_ancestors_trans habove hchain

/-- What is under a node comes before the younger siblings of the node. -/
theorem lt_of_siblings (h : t.Chained) (ha : t.parent? a = some id) (hb : t.parent? b = some id)
    (hab : a < b) (hx : x ∈ t.preorder a) : x < b := by
  rcases mem_preorder_iff.1 hx with rfl | hx
  · exact hab
  refine Nat.lt_of_not_le fun hbx => ?_
  have hlt := parent?_lt ha
  have hmem := h.mem_ancestors hx hab hbx
  rw [ancestors_of_parent? hb, List.mem_cons] at hmem
  rcases hmem with rfl | hmem
  · omega
  · have := lt_of_mem_ancestors hmem
    omega

theorem pairwise_preorder (h : t.Chained) (id : Nat) : (t.preorder id).Pairwise (· < ·) := by
  induction id using preorder.induct t with
  | case1 id ih =>
    rw [preorder_eq, List.pairwise_cons, List.pairwise_flatMap]
    refine ⟨?_, fun child hchild => ih ⟨child, hchild⟩, ?_⟩
    · intro x hx
      obtain ⟨child, hchild, hx⟩ := List.mem_flatMap.1 hx
      exact Nat.lt_of_lt_of_le (of_mem_children hchild).1 (le_of_mem_preorder hx)
    · refine (t.pairwise_children id).imp_of_mem fun {a b} ha hb hab x hx y hy => ?_
      have hxb := h.lt_of_siblings (mem_children_iff.1 ha) (mem_children_iff.1 hb) hab hx
      exact Nat.lt_of_lt_of_le hxb (le_of_mem_preorder hy)

theorem preorder_zero (h : t.Chained) : t.preorder 0 = List.range t.size := by
  refine (h.pairwise_preorder 0).eq_of_mem_iff List.pairwise_lt_range fun x => ?_
  rw [mem_preorder_iff, zero_mem_ancestors_iff, List.mem_range, size]
  omega

/-- The nodes under a node are a block of numbers. -/
theorem preorder_eq_range' (h : t.Chained) (id : Nat) :
    t.preorder id = List.range' id (t.preorder id).length := by
  refine eq_range'_of_pairwise (h.pairwise_preorder id) (fun x hx => le_of_mem_preorder hx) ?_
  intro x hx y hle hyx
  rw [mem_preorder_iff] at hx ⊢
  rcases Nat.eq_or_lt_of_le hle with heq | hlt
  · exact .inl heq.symm
  right
  rcases hx with rfl | hx
  · omega
  · exact h.mem_ancestors hx hlt hyx

end Chained

/-! Trees that have grown line by line. -/

namespace Grown

/-- A loop half has the line of the construct before it; every other directive has a line of its
own. -/
theorem exists_inserted (h : t.Grown) {i : Nat} {e : TreeEntry} (he : t.entries[i]? = some e) :
    ∃ k owner, t.entries[k]? = some owner ∧ owner.attached = false ∧
      owner.directive.line = e.directive.line ∧
      (i = k ∧ e = owner ∨ i = k + 1 ∧ Halves owner.directive e.directive) := by
  cases ha : e.attached with
  | false => exact ⟨i, e, he, ha, rfl, .inl ⟨rfl, rfl⟩⟩
  | true =>
    obtain ⟨k, owner, hi, -, ho, hoa, hhalves⟩ := h.attached he ha
    exact ⟨k, owner, ho, hoa, hhalves.line.symm, .inr ⟨hi, hhalves⟩⟩

/-- The lines of directives do not decrease, and are the same only for the halves of a fused
annotation. -/
theorem line_le (h : t.Grown) {i j : Nat} {e e' : TreeEntry} (hij : i < j)
    (he : t.entries[i]? = some e) (he' : t.entries[j]? = some e') :
    e.directive.line ≤ e'.directive.line ∧
      (e.directive.line = e'.directive.line →
        j = i + 1 ∧ Halves e.directive e'.directive) := by
  obtain ⟨k, owner, ho, hoa, hline, hplace⟩ := h.exists_inserted he
  obtain ⟨k', owner', ho', hoa', hline', hplace'⟩ := h.exists_inserted he'
  rcases Nat.lt_trichotomy k k' with hk | rfl | hk
  · have hlt := h.ordered hk ho ho' hoa hoa'
    exact ⟨by omega, fun heq => by omega⟩
  · obtain rfl : owner = owner' := Option.some.inj (ho.symm.trans ho')
    refine ⟨by omega, fun _ => ?_⟩
    rcases hplace with ⟨hi, rfl⟩ | ⟨hi, -⟩
    · rcases hplace' with ⟨hj, -⟩ | ⟨hj, hhalves⟩
      · omega
      · exact ⟨by omega, hhalves⟩
    · omega
  · omega

theorem chained (h : t.Grown) (hs : t.Snug) : t.Chained := by
  intro i parent hparent
  obtain ⟨_, e, hi, he, rfl⟩ := exists_entry hparent
  obtain rfl := Nat.succ.inj hi
  have hle := t.parent_le i e he
  cases i with
  | zero => exact .inl (by omega)
  | succ k =>
    cases ha : e.attached with
    | true =>
      obtain ⟨j, owner, hj, hp, -⟩ := h.attached he ha
      exact .inl (by omega)
    | false =>
      have hi := (List.getElem?_eq_some_iff.1 he).1
      obtain ⟨w, hw⟩ : ∃ w, t.entries[k]? = some w := ⟨_, List.getElem?_eq_getElem (by omega)⟩
      have hp := h.inserted he ha
      rcases t.parentFor_cases e.directive.line with ⟨hzero, -⟩ | ⟨q, hmem, -⟩
      · rw [hp, hzero]
        exact .inr (zero_mem_ancestors_iff.2 ⟨by omega, by simp [size]; omega⟩)
      obtain ⟨⟨j, hj, hq⟩, hqa, -, hkind, hgov⟩ := mem_candidates.1 hmem
      have hcompute := (DirectiveKind.holdsChildren_iff.1 hkind).resolve_left (h.written hq)
      rw [hp, hj] at hle ⊢
      by_cases hjk : j = k
      · exact .inl (by omega)
      right
      -- The directive before lies between the construct and the new line.
      obtain ⟨hqw, -⟩ := h.line_le (by omega) hq hw
      obtain ⟨hwe, -⟩ := h.line_le (Nat.lt_succ_self k) hw he
      by_cases hsame : w.directive.line = q.directive.line
      · obtain ⟨-, hhalf, -⟩ := h.halves_of_line_eq hq hw hqa hsame hjk
        rw [ancestors_of_parent? (parent?_succ hw), hhalf]
        exact List.mem_cons_self
      · obtain ⟨r, hr, -, hstop⟩ := Directive.governs_iff.1 hgov
        have hgovw : q.directive.governs w.directive.line = true :=
          Directive.governs_iff.2 ⟨r, hr, hs hq hw hr (by omega), by omega⟩
        exact h.mem_ancestors_of_governs hs hq hw hcompute hgovw hjk

/-- The root is on line 0, which it may share with directives. -/
theorem get_line_le (h : t.Grown) (hab : a < b) (hb : b < t.size) :
    (t.get a).line ≤ (t.get b).line ∧
      ((t.get a).line = (t.get b).line → a = 0 ∨ b = a + 1 ∧ Halves (t.get a) (t.get b)) := by
  obtain ⟨j, rfl⟩ : ∃ j, b = j + 1 := ⟨b - 1, by omega⟩
  have hj : j < t.entries.length := by simpa [size] using hb
  cases a with
  | zero => exact ⟨Nat.zero_le _, fun _ => .inl rfl⟩
  | succ i =>
    have he := List.getElem?_eq_getElem (show i < t.entries.length by omega)
    have he' := List.getElem?_eq_getElem hj
    obtain ⟨hle, heq⟩ := h.line_le (by omega) he he'
    rw [get_succ he, get_succ he']
    refine ⟨hle, fun hline => .inr ?_⟩
    obtain ⟨hnext, hhalves⟩ := heq hline
    exact ⟨by omega, hhalves⟩

end Grown
end DirectiveTree

theorem grown_chained_of_parseDirectives {source : Text} {tree : DirectiveTree}
    (h : (parseDirectives {} (.ofText Source.defaultTabWidth source)).outcome = .ok tree) :
    tree.Grown ∧ tree.Chained := by
  obtain ⟨htree, -⟩ := exists_growTree_of_parseDirectives h
  have hgrowing := growing_of_growTree htree
  have hgrown := hgrowing.grown
  exact ⟨hgrown, hgrown.chained (hgrowing.snug Config.markersApart_default)⟩

/-- An outline of the tree of a source lists the directives by number, which is in the order of
their lines. Each node has a block of numbers together with all that is under it. Two nodes share a
line only as the halves of a fused annotation, or if one of them is the root. -/
theorem outline_in_source_order {source : Text} {tree : DirectiveTree}
    (h : (parseDirectives {} (.ofText Source.defaultTabWidth source)).outcome = .ok tree) :
    tree.preorder 0 = List.range tree.size ∧
      tree.outline.directives = tree.toList ∧
      tree.outline.lines [] = (List.range tree.size).map (fun id =>
        List.replicate (2 * tree.depth id) ' ' ++ (tree.get id).render) ∧
      (∀ id, (∃ count, tree.preorder id = List.range' id count) ∧
        ∀ x, x ∈ tree.preorder id ↔ x = id ∨ id ∈ tree.ancestors x) ∧
      ∀ a b, a < b → b < tree.size →
        (tree.get a).line ≤ (tree.get b).line ∧
          ((tree.get a).line = (tree.get b).line →
            a = 0 ∨ b = a + 1 ∧ DirectiveTree.Halves (tree.get a) (tree.get b)) := by
  obtain ⟨hgrown, hchained⟩ := grown_chained_of_parseDirectives h
  refine ⟨hchained.preorder_zero, ?_, ?_, ?_, ?_⟩
  · rw [DirectiveTree.outline, DirectiveTree.directives_outlineOf, hchained.preorder_zero,
      DirectiveTree.toList_eq_map_get]
  · have hlines := tree.lines_outlineOf 0
    rw [hchained.preorder_zero, DirectiveTree.indentOf,
      DirectiveTree.depth_of_none DirectiveTree.parent?_zero] at hlines
    exact hlines
  · intro id
    exact ⟨⟨_, hchained.preorder_eq_range' id⟩, fun x => DirectiveTree.mem_preorder_iff⟩
  · intro a b hab hb
    exact hgrown.get_line_le hab hb

/-- A construct over a block, and a fused construct with a directive in it. -/
def blockSource : Text := Text.unlines [
  "# acc parallel", "#\x7b", "# acc loop", "for i in x:", "    y", "#\x7d",
  "# acc kernels loop", "for j in x:", "    # acc wait", "    y"]

theorem blockSource_in_source_order :
    ∃ tree, (parseDirectives {} (.ofText Source.defaultTabWidth blockSource)).outcome = .ok tree ∧
      tree.preorder 0 = [0, 1, 2, 3, 4, 5] ∧
      DirectiveTree.Halves (tree.get 3) (tree.get 4) := by
  have hcheck : ((parseDirectives {} (.ofText Source.defaultTabWidth blockSource)).outcome.toOption.any
      fun t => t.size == 6 && (t.get 3).line == (t.get 4).line) = true := by
    decide +kernel
  obtain ⟨tree, htree, hp⟩ := exists_of_any hcheck
  simp only [Bool.and_eq_true, beq_iff_eq] at hp
  obtain ⟨hsize, hline⟩ := hp
  obtain ⟨horder, -, -, -, hlines⟩ := outline_in_source_order htree
  refine ⟨tree, htree, ?_, ?_⟩
  · rw [horder, hsize]
    rfl
  · have hshared := (hlines 3 4 (by decide) (by omega)).2 hline
    exact (hshared.resolve_left (by decide)).2

/-- A directive on the first line has the line of the root. -/
theorem firstLine_shared_with_root :
    ∃ tree, (parseDirectives {} (.ofText Source.defaultTabWidth "# acc wait")).outcome = .ok tree ∧
      tree.preorder 0 = [0, 1] ∧ (tree.get 0).line = (tree.get 1).line ∧
      ¬ DirectiveTree.Halves (tree.get 0) (tree.get 1) := by
  have hcheck : ((parseDirectives {} (.ofText Source.defaultTabWidth "# acc wait")).outcome.toOption.any
      fun t => t.size == 2 && (t.get 0).line == (t.get 1).line) = true := by
    decide +kernel
  obtain ⟨tree, htree, hp⟩ := exists_of_any hcheck
  simp only [Bool.and_eq_true, beq_iff_eq] at hp
  obtain ⟨hsize, hline⟩ := hp
  refine ⟨tree, htree, ?_, hline, fun hhalves => ?_⟩
  · rw [(grown_chained_of_parseDirectives htree).2.preorder_zero, hsize]
    rfl
  · exact absurd hhalves.compute (by simp [DirectiveTree.get_zero, DirectiveTree.root, Directive.root,
      DirectiveKind.isCompute])

end Offload
