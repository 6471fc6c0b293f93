import Mathlib.Data.List.Induction
import Mathlib.Data.List.Nodup
import Offload.Proofs.Tree

/-!
Trees under any calls. Directives may come in any order of lines and calls may fail. A node keeps
the place that it has been given, so the children and the lines of a tree can be read off the calls
that have succeeded.
-/
namespace Offload.DirectiveTree

variable {t t' : DirectiveTree} {id line lineCount : Nat}

/-! Children. -/

theorem pairwise_children (t : DirectiveTree) (id : Nat) : (t.children id).Pairwise (· < ·) := by
  have hnumbers : (t.numbered.map Prod.snd).Pairwise (· < ·) := by
    rw [numbered, List.zipIdx_map_snd]
    exact List.pairwise_lt_range'
  have hsub : (t.children id).Sublist (t.numbered.map Prod.snd) := List.filter_sublist.map _
  exact hnumbers.sublist hsub

theorem nodup_children (t : DirectiveTree) (id : Nat) : (t.children id).Nodup :=
  (t.pairwise_children id).imp Nat.ne_of_lt

theorem exists_parent? (hpos : 0 < id) (h : id < t.size) :
    ∃ parent, t.parent? id = some parent := by
  obtain ⟨i, rfl⟩ : ∃ i, id = i + 1 := ⟨id - 1, by omega⟩
  have hi : i < t.entries.length := by simpa [size] using h
  exact ⟨_, parent?_succ (List.getElem?_eq_getElem hi)⟩

/-! The index of lines. -/

/-- Inserted nodes are no roots and have lines of their own. -/
structure Indexed (t : DirectiveTree) : Prop where
  written : ∀ {i : Nat} {e : TreeEntry}, t.entries[i]? = some e → e.attached = false →
    e.directive.kind ≠ .root
  alone : ∀ {i j : Nat} {e e' : TreeEntry}, t.entries[i]? = some e → t.entries[j]? = some e' →
    e.attached = false → e'.attached = false → e.directive.line = e'.directive.line → i = j

theorem exists_of_atLine? (h : t.atLine? line = some id) :
    ∃ i e, id = i + 1 ∧ t.entries[i]? = some e ∧ e.attached = false ∧ e.directive.line = line := by
  obtain ⟨⟨e, number⟩, hfind, rfl⟩ := Option.map_eq_some_iff.1 h
  obtain ⟨i, rfl, he⟩ := mem_numbered.1 (List.mem_of_find?_eq_some hfind)
  have hp := List.find?_some hfind
  simp only [Bool.and_eq_true, Bool.not_eq_true', beq_iff_eq] at hp
  exact ⟨i, e, rfl, he, hp.1, hp.2⟩

theorem Indexed.atLine?_eq_some_iff (h : t.Indexed) :
    t.atLine? line = some id ↔
      ∃ i e, id = i + 1 ∧ t.entries[i]? = some e ∧ e.attached = false ∧
        e.directive.line = line := by
  refine ⟨exists_of_atLine?, ?_⟩
  rintro ⟨i, e, rfl, he, ha, hline⟩
  cases hat : t.atLine? line with
  | none =>
    simp only [atLine?, Option.map_eq_none_iff, List.find?_eq_none] at hat
    have hno := hat (e, i + 1) (mem_numbered.2 ⟨i, rfl, he⟩)
    simp [ha, hline] at hno
  | some other =>
    obtain ⟨j, e', rfl, he', ha', hline'⟩ := exists_of_atLine? hat
    have hij := h.alone he he' ha ha' (hline.trans hline'.symm)
    rw [hij]

/-- A node that is indexed under line `above` and is a compute construct around `line`. -/
structure Surrounds (t : DirectiveTree) (line above id : Nat) : Prop where
  lt : above < line
  indexed : t.atLine? above = some id
  compute : (t.get id).kind.isCompute = true
  governs : (t.get id).governs line = true

/-- The indexed construct around a line whose own line is the greatest, or the root if no indexed
construct is around it. -/
inductive Nearest (t : DirectiveTree) (line : Nat) : Nat → Prop
  | construct {above id : Nat} (around : t.Surrounds line above id)
    (greatest : ∀ other id', t.Surrounds line other id' → other ≤ above) : Nearest t line id
  | root (nothing : ∀ above id, ¬ t.Surrounds line above id) : Nearest t line 0

/-- The nodes that `parentFor` chooses from are the indexed constructs around the line. -/
theorem Indexed.mem_candidates_iff (h : t.Indexed) {e : TreeEntry} {i : Nat}
    (he : t.entries[i]? = some e) :
    (e, i + 1) ∈ t.candidates line ↔
      e.attached = false ∧ t.Surrounds line e.directive.line (i + 1) := by
  rw [mem_candidates]
  constructor
  · rintro ⟨-, ha, hlt, hkind, hgov⟩
    have hcompute := (DirectiveKind.holdsChildren_iff.1 hkind).resolve_left (h.written he ha)
    have hindex := h.atLine?_eq_some_iff.2 ⟨i, e, rfl, he, ha, rfl⟩
    refine ⟨ha, hlt, hindex, ?_, ?_⟩
    · rwa [get_succ he]
    · rwa [get_succ he]
  · rintro ⟨ha, hs⟩
    have hcompute := hs.compute
    have hgov := hs.governs
    rw [get_succ he] at hcompute hgov
    exact ⟨⟨i, rfl, he⟩, ha, hs.lt, DirectiveKind.holdsChildren_iff.2 (.inr hcompute), hgov⟩

theorem Indexed.exists_candidate (h : t.Indexed) {above : Nat} (hs : t.Surrounds line above id) :
    ∃ e, (e, id) ∈ t.candidates line ∧ e.directive.line = above := by
  obtain ⟨i, e, rfl, he, ha, rfl⟩ := h.atLine?_eq_some_iff.1 hs.indexed
  exact ⟨e, (h.mem_candidates_iff he).2 ⟨ha, hs⟩, rfl⟩

theorem Indexed.nearest_parentFor (h : t.Indexed) (line : Nat) :
    t.Nearest line (t.parentFor line) := by
  rcases t.parentFor_cases line with ⟨hzero, hnil⟩ | ⟨e, hmem, hlast⟩
  · rw [hzero]
    refine .root fun above id hs => ?_
    obtain ⟨e, he, -⟩ := h.exists_candidate hs
    rw [hnil] at he
    exact absurd he List.not_mem_nil
  · obtain ⟨⟨i, hi, he⟩, -⟩ := mem_candidates.1 hmem
    rw [hi] at hmem ⊢
    refine .construct ((h.mem_candidates_iff he).1 hmem).2 fun other id' hs => ?_
    obtain ⟨e', he', rfl⟩ := h.exists_candidate hs
    exact hlast (e', id') he'

/-! Calls. -/

/-- A call that asks a tree to grow. -/
inductive Call
  | insert (d : Directive)
  | attach (owner : Nat) (d : Directive)

/-- The answer of a tree to a call: the grown tree and the number of the new node. -/
def perform (t : DirectiveTree) : Call → Except InternalFault (DirectiveTree × Nat)
  | .insert d => t.insert d
  | .attach owner d => t.attach owner d

/-- The tree that a call leaves behind, which is the old one if the call fails. -/
def after (t : DirectiveTree) (call : Call) : DirectiveTree :=
  match t.perform call with
  | .ok (grown, _) => grown
  | .error _ => t

/-- The tree that calls leave behind, from one that holds only the root. -/
def run (lineCount : Nat) (calls : List Call) : DirectiveTree :=
  calls.foldl after (empty lineCount)

/-- The entry that a call adds if it succeeds. -/
def Call.entry (t : DirectiveTree) : Call → TreeEntry
  | .insert d => ⟨d, t.parentFor d.line, false⟩
  | .attach owner d => ⟨d, owner, true⟩

/-- What a call needs to succeed. -/
def Call.Allowed (t : DirectiveTree) : Call → Prop
  | .insert d => d.kind ≠ .root ∧ d.line < t.lineCount ∧ t.atLine? d.line = none
  | .attach owner d => owner < t.size ∧ (t.get owner).kind.isCompute = true ∧
      (t.get owner).line = d.line ∧ (t.get owner).region = d.region

/-- What a successful call does. -/
structure Grows (t t' : DirectiveTree) (call : Call) (id : Nat) : Prop where
  allowed : call.Allowed t
  number : id = t.entries.length + 1
  lineCount : t'.lineCount = t.lineCount
  entries : t'.entries = t.entries ++ [call.entry t]

theorem grows_of_perform {call : Call} (h : t.perform call = .ok (t', id)) : t.Grows t' call id := by
  cases call with
  | insert d =>
    simp only [perform, insert] at h
    split at h
    · simp at h
    next hroot =>
    split at h
    · simp at h
    next hline =>
    split at h
    · simp at h
    next hfree =>
    obtain ⟨rfl, rfl⟩ := Prod.mk.inj (Except.ok.inj h)
    have hkind : d.kind ≠ .root := by simpa [Directive.isRoot] using hroot
    exact ⟨⟨hkind, by omega, hfree⟩, rfl, rfl, rfl⟩
  | attach owner d =>
    simp only [perform, attach] at h
    split at h
    next howner =>
      split at h
      next hfits =>
        obtain ⟨rfl, rfl⟩ := Prod.mk.inj (Except.ok.inj h)
        exact ⟨⟨by simpa [size] using Nat.lt_succ_of_le howner, hfits⟩, rfl, rfl, rfl⟩
      next => simp at h
    next => simp at h

theorem exists_perform_iff {call : Call} :
    (∃ grown id, t.perform call = .ok (grown, id)) ↔ call.Allowed t := by
  constructor
  · rintro ⟨grown, id, h⟩
    exact (grows_of_perform h).allowed
  · intro h
    cases call with
    | insert d =>
      obtain ⟨hkind, hline, hfree⟩ := h
      have hroot : d.isRoot = false := by simpa [Directive.isRoot] using hkind
      refine ⟨(t.put d).1, (t.put d).2, ?_⟩
      rw [perform, insert, hroot, if_neg (by simp), if_neg (by omega), hfree]
    | attach owner d =>
      obtain ⟨howner, hfits⟩ := h
      have hle : owner ≤ t.entries.length := Nat.le_of_lt_succ howner
      refine ⟨(t.push ⟨d, owner, true⟩ hle).1, (t.push ⟨d, owner, true⟩ hle).2, ?_⟩
      rw [perform, attach, dif_pos hle, if_pos hfits]

theorem Grows.getElem?_cases {call : Call} (h : t.Grows t' call id) {i : Nat} {e : TreeEntry}
    (he : t'.entries[i]? = some e) :
    t.entries[i]? = some e ∨ i = t.entries.length ∧ e = call.entry t := by
  rw [h.entries] at he
  rcases Nat.lt_trichotomy i t.entries.length with hi | rfl | hi
  · rw [List.getElem?_append_left hi] at he
    exact .inl he
  · rw [List.getElem?_concat_length, Option.some.injEq] at he
    exact .inr ⟨rfl, he.symm⟩
  · rw [List.getElem?_eq_none (by simp; omega)] at he
    simp at he

theorem after_cases (t : DirectiveTree) (call : Call) :
    (∃ t' id, t.perform call = .ok (t', id) ∧ t.after call = t') ∨
      ∃ fault, t.perform call = .error fault ∧ t.after call = t := by
  unfold after
  cases h : t.perform call with
  | error fault => exact .inr ⟨fault, rfl, rfl⟩
  | ok answer => exact .inl ⟨answer.1, answer.2, rfl, rfl⟩

theorem prefix_entries_after (t : DirectiveTree) (call : Call) :
    t.entries <+: (t.after call).entries := by
  rcases t.after_cases call with ⟨t', id, h, hafter⟩ | ⟨-, -, hafter⟩
  · rw [hafter, (grows_of_perform h).entries]
    exact List.prefix_append _ _
  · simp only [hafter, List.prefix_rfl]

/-- A node that is inserted is no root, and no inserted node has its line. -/
theorem Grows.fresh {call : Call} (h : t.Grows t' call id) (ht : t.Indexed)
    (hinserted : (call.entry t).attached = false) :
    (call.entry t).directive.kind ≠ .root ∧
      ∀ {i : Nat} {e : TreeEntry}, t.entries[i]? = some e → e.attached = false →
        e.directive.line ≠ (call.entry t).directive.line := by
  cases call with
  | attach owner d => simp [Call.entry] at hinserted
  | insert d =>
    obtain ⟨hkind, -, hfree⟩ := h.allowed
    refine ⟨hkind, fun {i e} he ha hline => ?_⟩
    have hat := ht.atLine?_eq_some_iff.2 ⟨i, e, rfl, he, ha, hline⟩
    simp [Call.entry, hfree] at hat

/-- A call keeps the inserted nodes apart. -/
theorem Indexed.after (h : t.Indexed) (call : Call) : (t.after call).Indexed := by
  rcases t.after_cases call with ⟨t', id, hcall, hafter⟩ | ⟨-, -, hafter⟩
  case inr =>
    rw [hafter]
    exact h
  have hgrows := grows_of_perform hcall
  rw [hafter]
  constructor
  · intro i e he ha
    rcases hgrows.getElem?_cases he with he | ⟨-, rfl⟩
    · exact h.written he ha
    · exact (hgrows.fresh h ha).1
  · intro i j e e' he he' ha ha' hline
    rcases hgrows.getElem?_cases he with he | ⟨hi, rfl⟩ <;>
      rcases hgrows.getElem?_cases he' with he' | ⟨hj, rfl⟩
    · exact h.alone he he' ha ha' hline
    · exact absurd hline ((hgrows.fresh h ha').2 he ha)
    · exact absurd hline.symm ((hgrows.fresh h ha).2 he' ha')
    · omega

/-! Runs. -/

theorem run_concat (lineCount : Nat) (calls : List Call) (call : Call) :
    run lineCount (calls ++ [call]) = (run lineCount calls).after call := by
  rw [run, List.foldl_append]
  rfl

theorem lineCount_run (lineCount : Nat) (calls : List Call) :
    (run lineCount calls).lineCount = lineCount := by
  induction calls using List.reverseRecOn with
  | nil => rfl
  | append_singleton calls call ih =>
    rw [run_concat]
    rcases (run lineCount calls).after_cases call with ⟨t', id, h, hafter⟩ | ⟨-, -, hafter⟩
    · rw [hafter, (grows_of_perform h).lineCount, ih]
    · rw [hafter, ih]

theorem indexed_run (lineCount : Nat) (calls : List Call) : (run lineCount calls).Indexed := by
  induction calls using List.reverseRecOn with
  | nil => constructor <;> simp [run, empty]
  | append_singleton calls call ih =>
    rw [run_concat]
    exact ih.after call

/-- Later calls only add nodes. -/
theorem prefix_entries_run (lineCount : Nat) {before calls : List Call} (h : before <+: calls) :
    (run lineCount before).entries <+: (run lineCount calls).entries := by
  obtain ⟨rest, rfl⟩ := h
  induction rest using List.reverseRecOn with
  | nil => simp
  | append_singleton rest call ih =>
    rw [← List.append_assoc, run_concat]
    exact ih.trans (prefix_entries_after _ call)

/-- Node `id` has come with the given call, which followed the calls `before`. -/
structure Entered (lineCount : Nat) (calls before : List Call) (call : Call) (id : Nat) : Prop where
  place : before ++ [call] <+: calls
  answer : ∃ grown, (run lineCount before).perform call = .ok (grown, id)

/-- The entry of a node is still the one that its call has added. -/
theorem Entered.getElem? {calls before : List Call} {call : Call}
    (h : Entered lineCount calls before call id) :
    ∃ i, id = i + 1 ∧
      (run lineCount calls).entries[i]? = some (call.entry (run lineCount before)) := by
  obtain ⟨grown, hanswer⟩ := h.answer
  have hgrows := grows_of_perform hanswer
  have hrun : run lineCount (before ++ [call]) = grown := by
    rw [run_concat, after, hanswer]
  have hkept := prefix_entries_run lineCount h.place
  rw [hrun, hgrows.entries] at hkept
  refine ⟨(run lineCount before).entries.length, hgrows.number, ?_⟩
  obtain ⟨more, hmore⟩ := hkept
  rw [← hmore]
  simp

/-- Every node but the root has come with a call. -/
theorem exists_entered {calls : List Call} {i : Nat} {e : TreeEntry}
    (h : (run lineCount calls).entries[i]? = some e) :
    ∃ before call, Entered lineCount calls before call (i + 1) ∧
      e = call.entry (run lineCount before) := by
  induction calls using List.reverseRecOn with
  | nil => simp [run, empty] at h
  | append_singleton calls call ih =>
    have hlater : (run lineCount calls).entries[i]? = some e →
        ∃ before c, Entered lineCount (calls ++ [call]) before c (i + 1) ∧
          e = c.entry (run lineCount before) := by
      intro hold
      obtain ⟨before, c, hentered, heq⟩ := ih hold
      exact ⟨before, c, ⟨hentered.place.trans (List.prefix_append _ _), hentered.answer⟩, heq⟩
    rw [run_concat] at h
    rcases (run lineCount calls).after_cases call with ⟨t', id, hcall, hafter⟩ | ⟨-, -, hafter⟩
    · have hgrows := grows_of_perform hcall
      rw [hafter] at h
      rcases hgrows.getElem?_cases h with hold | ⟨hi, heq⟩
      · exact hlater hold
      · refine ⟨calls, call, ⟨List.prefix_rfl, t', ?_⟩, heq⟩
        rw [hcall, hgrows.number, hi]
    · rw [hafter] at h
      exact hlater h

/-- What the calls of a run say about the tree that they leave behind. -/
structure Consistent (lineCount : Nat) (calls : List Call) (t : DirectiveTree) : Prop where
  root : t.get? 0 = some (.root lineCount)
  /-- Every other node has come with a call. -/
  entered : ∀ id, 0 < id → id < t.size → ∃ before call, Entered lineCount calls before call id
  /-- It stands once among the children of its parent, which is an older node, and nowhere else. -/
  parent : ∀ id, 0 < id → id < t.size → ∃ parent < id, t.parent? id = some parent ∧
    (t.children parent).count id = 1 ∧ ∀ other, other ≠ parent → id ∉ t.children other
  children : ∀ id, (t.children id).Pairwise (· < ·) ∧
    ∀ child ∈ t.children id, 0 < child ∧ child < t.size
  /-- The index holds the inserted nodes, each under its line. -/
  index : ∀ line id, t.atLine? line = some id ↔
    ∃ before d, Entered lineCount calls before (.insert d) id ∧ d.line = line
  /-- An inserted node stands under what was nearest in the tree of that time. -/
  nearest : ∀ before d id, Entered lineCount calls before (.insert d) id → t.get? id = some d ∧
    ∃ parent, t.parent? id = some parent ∧ (run lineCount before).Nearest d.line parent
  /-- A call succeeds exactly if the tree allows it. -/
  allowed : ∀ call, (∃ grown id, t.perform call = .ok (grown, id)) ↔ call.Allowed t

/-- Nodes, parents, children and lines stay consistent under any calls. -/
theorem consistent_run (lineCount : Nat) (calls : List Call) :
    Consistent lineCount calls (run lineCount calls) where
  root := by rw [get?_zero, DirectiveTree.root, lineCount_run]
  entered := by
    intro id hpos hid
    obtain ⟨parent, hparent⟩ := exists_parent? hpos hid
    obtain ⟨i, e, rfl, he, -⟩ := exists_entry hparent
    obtain ⟨before, call, hentered, -⟩ := exists_entered he
    exact ⟨before, call, hentered⟩
  parent := by
    intro id hpos hid
    obtain ⟨parent, hparent⟩ := exists_parent? hpos hid
    refine ⟨parent, parent?_lt hparent, hparent, ?_, ?_⟩
    · exact List.count_eq_one_of_mem (nodup_children _ parent) (mem_children_iff.2 hparent)
    · intro other hne hmem
      rw [mem_children_iff, hparent, Option.some.injEq] at hmem
      exact hne hmem.symm
  children := by
    intro id
    refine ⟨pairwise_children _ id, fun child hchild => ?_⟩
    have hbounds := of_mem_children hchild
    exact ⟨by omega, Nat.lt_succ_of_le hbounds.2⟩
  index := by
    intro line id
    rw [(indexed_run lineCount calls).atLine?_eq_some_iff]
    constructor
    · rintro ⟨i, e, rfl, he, ha, rfl⟩
      obtain ⟨before, call, hentered, rfl⟩ := exists_entered he
      cases call with
      | insert d => exact ⟨before, d, hentered, rfl⟩
      | attach owner d => simp [Call.entry] at ha
    · rintro ⟨before, d, hentered, rfl⟩
      obtain ⟨i, hi, he⟩ := hentered.getElem?
      exact ⟨i, _, hi, he, rfl, rfl⟩
  nearest := by
    intro before d id hentered
    obtain ⟨i, rfl, he⟩ := hentered.getElem?
    refine ⟨?_, _, parent?_succ he, (indexed_run lineCount before).nearest_parentFor d.line⟩
    rw [get?_succ, he]
    rfl
  allowed := fun _ => exists_perform_iff

end Offload.DirectiveTree
