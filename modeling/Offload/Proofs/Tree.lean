import Offload.Directive.Tree

/-!
Trees that grow line by line. Each inserted directive stands under the nearest construct above that
governs its line, and each attached one under the construct of its own annotation.
-/
namespace Offload

theorem Directive.governs_iff {d : Directive} {line : Nat} :
    d.governs line = true ↔ ∃ r, d.region = some r ∧ r.start ≤ line ∧ line < r.stop := by
  unfold governs
  cases d.region <;> simp [Span.contains]

theorem DirectiveKind.holdsChildren_iff {kind : DirectiveKind} :
    kind.holdsChildren = true ↔ kind = .root ∨ kind.isCompute = true := by
  simp [holdsChildren]

namespace DirectiveTree

variable {t : DirectiveTree} {id a b line : Nat}

@[simp] theorem get?_zero : t.get? 0 = some t.root := rfl

@[simp] theorem get?_succ (i : Nat) : t.get? (i + 1) = t.entries[i]?.map TreeEntry.directive := rfl

theorem get_zero : t.get 0 = t.root := rfl

theorem get_eq {d : Directive} (h : t.get? id = some d) : t.get id = d := by
  rw [get, h]
  rfl

theorem get?_eq_get (h : id < t.size) : t.get? id = some (t.get id) := by
  cases id with
  | zero => rfl
  | succ i =>
    have hi : i < t.entries.length := by simpa [size] using h
    rw [get, get?_succ, List.getElem?_eq_getElem hi]
    rfl

theorem get_succ {i : Nat} {e : TreeEntry} (h : t.entries[i]? = some e) :
    t.get (i + 1) = e.directive := get_eq (by simp [h])

@[simp] theorem parent?_zero : t.parent? 0 = none := rfl

theorem parent?_succ {i : Nat} {e : TreeEntry} (h : t.entries[i]? = some e) :
    t.parent? (i + 1) = some e.parent := by
  simp [parent?, h]

theorem exists_entry {parent : Nat} (h : t.parent? id = some parent) :
    ∃ i e, id = i + 1 ∧ t.entries[i]? = some e ∧ e.parent = parent := by
  cases id with
  | zero => simp at h
  | succ i =>
    simp only [parent?, Option.map_eq_some_iff] at h
    obtain ⟨e, he, hp⟩ := h
    exact ⟨i, e, rfl, he, hp⟩

/-! Ancestors. -/

theorem ancestors_of_parent? {parent : Nat} (h : t.parent? id = some parent) :
    t.ancestors id = parent :: t.ancestors parent := by
  rw [ancestors]
  split <;> simp_all

theorem ancestors_of_none (h : t.parent? id = none) : t.ancestors id = [] := by
  rw [ancestors]
  split <;> simp_all

theorem mem_ancestors_iff :
    a ∈ t.ancestors id ↔
      ∃ parent, t.parent? id = some parent ∧ (a = parent ∨ a ∈ t.ancestors parent) := by
  cases h : t.parent? id with
  | none => simp [ancestors_of_none h]
  | some parent => simp [ancestors_of_parent? h]

theorem lt_of_mem_ancestors (h : a ∈ t.ancestors id) : a < id := by
  induction id using Nat.strongRecOn with
  | ind id ih =>
    obtain ⟨parent, hp, h⟩ := mem_ancestors_iff.1 h
    have := parent?_lt hp
    rcases h with rfl | h
    · exact this
    · have := ih parent this h
      omega

/-- The ancestors of a node depend on the parents of the nodes up to it only. -/
theorem ancestors_congr {t' : DirectiveTree} (h : ∀ i ≤ id, t'.parent? i = t.parent? i) :
    t'.ancestors id = t.ancestors id := by
  induction id using Nat.strongRecOn with
  | ind id ih =>
    have hid := h id (Nat.le_refl id)
    cases hp : t.parent? id with
    | none => rw [ancestors_of_none hp, ancestors_of_none (hid.trans hp)]
    | some parent =>
      have hlt := parent?_lt hp
      have hrest := ih parent hlt fun i hi => h i (by omega)
      rw [ancestors_of_parent? hp, ancestors_of_parent? (hid.trans hp), hrest]

theorem mem_ancestors_trans (hab : a ∈ t.ancestors b) (hb : b ∈ t.ancestors id) :
    a ∈ t.ancestors id := by
  induction id using Nat.strongRecOn with
  | ind id ih =>
    obtain ⟨parent, hp, hb⟩ := mem_ancestors_iff.1 hb
    rw [ancestors_of_parent? hp]
    rcases hb with rfl | hb
    · exact List.mem_cons_of_mem _ hab
    · exact List.mem_cons_of_mem _ (ih parent (parent?_lt hp) hb)

/-! Children and levels. -/

theorem mem_numbered {e : TreeEntry} :
    (e, id) ∈ t.numbered ↔ ∃ i, id = i + 1 ∧ t.entries[i]? = some e := by
  rw [numbered, List.mk_mem_zipIdx_iff_le_and_getElem?_sub]
  constructor
  · rintro ⟨hle, h⟩
    exact ⟨id - 1, by omega, h⟩
  · rintro ⟨i, rfl, h⟩
    exact ⟨by omega, h⟩

theorem mem_children_iff {child : Nat} : child ∈ t.children id ↔ t.parent? child = some id := by
  simp only [children, List.mem_map, List.mem_filter, beq_iff_eq, Prod.exists]
  constructor
  · rintro ⟨e, _, ⟨hmem, rfl⟩, rfl⟩
    obtain ⟨i, rfl, he⟩ := mem_numbered.1 hmem
    exact parent?_succ he
  · intro h
    obtain ⟨i, e, rfl, he, rfl⟩ := exists_entry h
    exact ⟨e, i + 1, ⟨mem_numbered.2 ⟨i, rfl, he⟩, rfl⟩, rfl⟩

theorem mem_levels_of_parent? {child depth : Nat} {level : List Nat} (h : id ∈ t.levels depth level)
    (hchild : t.parent? child = some id) : child ∈ t.levels (depth + 1) level := by
  induction depth generalizing level with
  | zero => simp [levels] at h
  | succ depth ih =>
    rw [levels, List.mem_append] at h
    rw [levels, List.mem_append]
    right
    rcases h with h | h
    · rw [levels, List.mem_append]
      exact .inl (List.mem_flatMap.2 ⟨id, h, mem_children_iff.2 hchild⟩)
    · exact ih h

theorem mem_levels_mono {depth depth' : Nat} {level : List Nat} (h : id ∈ t.levels depth level)
    (hle : depth ≤ depth') : id ∈ t.levels depth' level := by
  induction depth generalizing level depth' with
  | zero => simp [levels] at h
  | succ depth ih =>
    obtain ⟨n, rfl⟩ : ∃ n, depth' = n + 1 := ⟨depth' - 1, by omega⟩
    rw [levels, List.mem_append] at h ⊢
    exact h.imp_right fun h => ih h (by omega)

/-- Every node but the root comes up level by level. -/
theorem mem_breadthFirst {i : Nat} (h : i < t.entries.length) : i + 1 ∈ t.breadthFirst := by
  have hlevels : i + 1 ∈ t.levels (i + 1) (t.children 0) := by
    induction i using Nat.strongRecOn with
    | ind i ih =>
      have he := parent?_succ (List.getElem?_eq_getElem h)
      cases hp : (t.entries[i]).parent with
      | zero =>
        rw [hp] at he
        exact List.mem_append_left _ (mem_children_iff.2 he)
      | succ j =>
        rw [hp] at he
        have hlt := parent?_lt he
        have hj := ih j (by omega) (by omega)
        exact mem_levels_mono (mem_levels_of_parent? hj he) (by omega)
  exact mem_levels_mono hlevels (by omega)

/-! The choice of a parent. -/

theorem mem_candidates {e : TreeEntry} :
    (e, id) ∈ t.candidates line ↔ (∃ i, id = i + 1 ∧ t.entries[i]? = some e) ∧ e.attached = false ∧
      e.directive.line < line ∧ e.directive.kind.holdsChildren = true ∧
      e.directive.governs line = true := by
  rw [candidates, List.mem_filter, mem_numbered]
  simp [and_assoc]

theorem lastByLine?_eq_none {entries : List (TreeEntry × Nat)} :
    lastByLine? entries = none ↔ entries = [] := by
  cases entries with
  | nil => simp [lastByLine?]
  | cons first rest =>
    simp only [lastByLine?]
    split
    · split <;> simp
    · simp

theorem le_of_lastByLine? {entries : List (TreeEntry × Nat)} {last other : TreeEntry × Nat}
    (h : lastByLine? entries = some last) (ho : other ∈ entries) :
    other.1.directive.line ≤ last.1.directive.line := by
  induction entries generalizing last with
  | nil => simp at ho
  | cons first rest ih =>
    simp only [lastByLine?] at h
    cases hr : lastByLine? rest with
    | none =>
      have hnil : rest = [] := lastByLine?_eq_none.1 hr
      simp_all
    | some below =>
      rw [hr] at h
      simp only at h
      split at h
      · next hlt =>
        obtain rfl := Option.some.inj h
        rcases List.mem_cons.1 ho with rfl | ho
        · exact Nat.le_refl _
        · have := ih hr ho
          omega
      · next hge =>
        obtain rfl := Option.some.inj h
        rcases List.mem_cons.1 ho with rfl | ho
        · omega
        · exact ih hr ho

/-- The parent is the root if nothing else qualifies, and the last of what does otherwise. -/
theorem parentFor_cases (t : DirectiveTree) (line : Nat) :
    (t.parentFor line = 0 ∧ t.candidates line = []) ∨
      ∃ e, (e, t.parentFor line) ∈ t.candidates line ∧
        ∀ other ∈ t.candidates line, other.1.directive.line ≤ e.directive.line := by
  unfold parentFor
  cases h : lastByLine? (t.candidates line) with
  | none => exact .inl ⟨rfl, lastByLine?_eq_none.1 h⟩
  | some last => exact .inr ⟨last.1, mem_of_lastByLine? h, fun _ ho => le_of_lastByLine? h ho⟩

/-! Growth. -/

/-- The directives of a fused annotation: the construct and its loop half. -/
structure Halves (owner half : Directive) : Prop where
  compute : owner.kind.isCompute = true
  loop : half.kind = .loop
  line : half.line = owner.line
  region : half.region = owner.region
  owner_fused : owner.fused = true
  half_fused : half.fused = true

/-- A tree into which directives have been put in the order of their lines. -/
structure Grown (t : DirectiveTree) : Prop where
  written : ∀ {i : Nat} {e : TreeEntry}, t.entries[i]? = some e → e.directive.kind ≠ .root
  line_lt : ∀ {i : Nat} {e : TreeEntry}, t.entries[i]? = some e → e.directive.line < t.lineCount
  region_below : ∀ {i : Nat} {e : TreeEntry} {r : Span}, t.entries[i]? = some e →
    e.directive.region = some r → e.directive.line < r.start
  inserted : ∀ {i : Nat} {e : TreeEntry}, t.entries[i]? = some e → e.attached = false →
    e.parent = t.parentFor e.directive.line
  attached : ∀ {i : Nat} {e : TreeEntry}, t.entries[i]? = some e → e.attached = true →
    ∃ j owner, i = j + 1 ∧ e.parent = j + 1 ∧ t.entries[j]? = some owner ∧
      owner.attached = false ∧ Halves owner.directive e.directive
  ordered : ∀ {i j : Nat} {e e' : TreeEntry}, i < j → t.entries[i]? = some e →
    t.entries[j]? = some e' → e.attached = false → e'.attached = false →
    e.directive.line < e'.directive.line

theorem grown_empty (lineCount : Nat) : (empty lineCount).Grown := by
  constructor <;> simp [empty]

theorem entries_put (t : DirectiveTree) (d : Directive) :
    (t.put d).1.entries = t.entries ++ [⟨d, t.parentFor d.line, false⟩] := rfl

theorem length_entries_put (t : DirectiveTree) (d : Directive) :
    (t.put d).1.entries.length = t.entries.length + 1 := by
  rw [entries_put, List.length_append]
  rfl

/-- Puts in the directive of an annotation, with its loop half if the annotation is fused. -/
def graft (t : DirectiveTree) (d : Directive) (half : Option Directive) : DirectiveTree :=
  half.elim (t.put d).1 fun half =>
    ((t.put d).1.push ⟨half, t.entries.length + 1, true⟩
      (Nat.le_of_eq (t.length_entries_put d).symm)).1

/-- The entries that a directive adds to a tree. -/
def scions (t : DirectiveTree) (d : Directive) (half : Option Directive) : List TreeEntry :=
  ⟨d, t.parentFor d.line, false⟩ ::
    (half.map fun half => ⟨half, t.entries.length + 1, true⟩).toList

@[simp] theorem entries_graft (d : Directive) (half : Option Directive) :
    (t.graft d half).entries = t.entries ++ t.scions d half := by
  cases half <;> simp [graft, put, push, scions]

@[simp] theorem lineCount_graft (d : Directive) (half : Option Directive) :
    (t.graft d half).lineCount = t.lineCount := by
  cases half <;> rfl

/-- Entries at or behind a line do not change the choice of its parent. -/
theorem parentFor_append {t' : DirectiveTree} {more : List TreeEntry}
    (h : t'.entries = t.entries ++ more)
    (hmore : ∀ e ∈ more, e.attached = true ∨ line ≤ e.directive.line) :
    t'.parentFor line = t.parentFor line := by
  have hc : t'.candidates line = t.candidates line := by
    unfold candidates numbered
    rw [h, List.zipIdx_append, List.filter_append, List.append_right_eq_self, List.filter_eq_nil_iff]
    rintro ⟨e, id⟩ he
    rcases hmore e (List.fst_mem_of_mem_zipIdx he) with ha | hl
    · simp [ha]
    · simp only [Bool.and_eq_true, decide_eq_true_eq, not_and]
      intros
      omega
  rw [parentFor, parentFor, hc]

theorem entries_graft_cases {d : Directive} {half : Option Directive} {i : Nat} {e : TreeEntry}
    (h : (t.graft d half).entries[i]? = some e) :
    t.entries[i]? = some e ∨ (i = t.entries.length ∧ e = ⟨d, t.parentFor d.line, false⟩) ∨
      (i = t.entries.length + 1 ∧
        ∃ loop, half = some loop ∧ e = ⟨loop, t.entries.length + 1, true⟩) := by
  rw [entries_graft] at h
  rcases Nat.lt_or_ge i t.entries.length with hi | hi
  · rw [List.getElem?_append_left hi] at h
    exact .inl h
  · rw [List.getElem?_append_right hi, scions] at h
    obtain ⟨k, rfl⟩ : ∃ k, i = t.entries.length + k := ⟨i - t.entries.length, by omega⟩
    rw [Nat.add_sub_cancel_left] at h
    cases k with
    | zero => exact .inr (.inl ⟨rfl, by simpa using h.symm⟩)
    | succ k =>
      cases half with
      | none => simp at h
      | some loop =>
        cases k with
        | zero => exact .inr (.inr ⟨rfl, loop, rfl, by simpa using h.symm⟩)
        | succ k => simp at h

/-- A directive behind all others keeps the tree in order. -/
theorem Grown.graft (h : t.Grown) {d : Directive} {half : Option Directive}
    (hkind : d.kind ≠ .root) (hline : d.line < t.lineCount)
    (hregion : ∀ r, d.region = some r → d.line < r.start) (hhalf : ∀ l ∈ half, Halves d l)
    (hnew : ∀ e ∈ t.entries, e.directive.line < d.line) : (t.graft d half).Grown := by
  have hparent : ∀ line ≤ d.line, (t.graft d half).parentFor line = t.parentFor line := by
    intro line hle
    refine parentFor_append (entries_graft d half) ?_
    intro e he
    rcases List.mem_cons.1 he with rfl | he
    · exact .inr hle
    · left
      cases half <;> simp_all
  have hfirst : (t.graft d half).entries[t.entries.length]? =
      some ⟨d, t.parentFor d.line, false⟩ := by
    simp [scions]
  constructor
  case written =>
    intro i e he
    rcases entries_graft_cases he with he | ⟨-, rfl⟩ | ⟨-, l, hl, rfl⟩
    · exact h.written he
    · exact hkind
    · simp [(hhalf l hl).loop]
  case line_lt =>
    intro i e he
    rw [lineCount_graft]
    rcases entries_graft_cases he with he | ⟨-, rfl⟩ | ⟨-, l, hl, rfl⟩
    · exact h.line_lt he
    · exact hline
    · simpa [(hhalf l hl).line] using hline
  case region_below =>
    intro i e r he hr
    rcases entries_graft_cases he with he | ⟨-, rfl⟩ | ⟨-, l, hl, rfl⟩
    · exact h.region_below he hr
    · exact hregion r hr
    · rw [(hhalf l hl).region] at hr
      rw [(hhalf l hl).line]
      exact hregion r hr
  case inserted =>
    intro i e he ha
    rcases entries_graft_cases he with he | ⟨-, rfl⟩ | ⟨-, l, hl, rfl⟩
    · rw [hparent _ (Nat.le_of_lt (hnew e (List.mem_of_getElem? he)))]
      exact h.inserted he ha
    · exact (hparent d.line (Nat.le_refl _)).symm
    · simp at ha
  case attached =>
    intro i e he ha
    rcases entries_graft_cases he with he | ⟨-, rfl⟩ | ⟨hi, l, hl, rfl⟩
    · obtain ⟨j, owner, rfl, hp, ho, hrest⟩ := h.attached he ha
      refine ⟨j, owner, rfl, hp, ?_, hrest⟩
      rw [entries_graft, List.getElem?_append_left (List.getElem?_eq_some_iff.1 ho).1]
      exact ho
    · simp at ha
    · exact ⟨t.entries.length, _, hi, rfl, hfirst, rfl, hhalf l hl⟩
  case ordered =>
    intro i j e e' hij he he' ha ha'
    rcases entries_graft_cases he' with he' | ⟨hj, rfl⟩ | ⟨-, l, hl, rfl⟩
    · have hj := (List.getElem?_eq_some_iff.1 he').1
      rcases entries_graft_cases he with he | ⟨hi, -⟩ | ⟨hi, -⟩
      · exact h.ordered hij he he' ha ha'
      · omega
      · omega
    · rcases entries_graft_cases he with he | ⟨hi, -⟩ | ⟨hi, -⟩
      · exact hnew e (List.mem_of_getElem? he)
      · omega
      · omega
    · simp at ha'

end DirectiveTree
end Offload
