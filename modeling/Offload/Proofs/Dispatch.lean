import Mathlib.Data.List.Nodup
import Mathlib.Logic.Function.Iterate
import Offload.Backend
import Offload.Proofs.History
import Offload.Proofs.Outcome

/-!
The order of dispatch. Nodes come up level by level, each once and behind its parent, as they come
out of a queue to which every node adds its children. A backend is asked for them in this order, up
to the first one that fails.
-/
namespace Offload

namespace DirectiveTree

variable {t : DirectiveTree} {id parent k : Nat}

/-! Depth. -/

/-- The number of nodes above a node. -/
def depth (t : DirectiveTree) (id : Nat) : Nat := (t.ancestors id).length

theorem depth_of_parent? (h : t.parent? id = some parent) : t.depth id = t.depth parent + 1 := by
  rw [depth, ancestors_of_parent? h, List.length_cons, depth]

theorem depth_of_none (h : t.parent? id = none) : t.depth id = 0 := by
  rw [depth, ancestors_of_none h, List.length_nil]

theorem depth_le (t : DirectiveTree) (id : Nat) : t.depth id ≤ id := by
  induction id using Nat.strongRecOn with
  | ind id ih =>
    cases h : t.parent? id with
    | none =>
      rw [depth_of_none h]
      exact Nat.zero_le id
    | some parent =>
      have hlt := parent?_lt h
      have hparent := ih parent hlt
      rw [depth_of_parent? h]
      omega

theorem lt_size_of_parent? (h : t.parent? id = some parent) : id < t.size := by
  obtain ⟨i, e, rfl, he, -⟩ := exists_entry h
  have hi := (List.getElem?_eq_some_iff.1 he).1
  simpa [size] using hi

/-- Only the root has no depth, among the parents of nodes. -/
theorem eq_zero_of_depth (h : t.parent? id = some parent) (hd : t.depth parent = 0) :
    parent = 0 := by
  rcases Nat.eq_zero_or_pos parent with hzero | hpos
  · exact hzero
  · have hsize := Nat.lt_trans (parent?_lt h) (lt_size_of_parent? h)
    obtain ⟨above, habove⟩ := exists_parent? hpos hsize
    rw [depth_of_parent? habove] at hd
    omega

/-! Levels. -/

/-- The children of all nodes of a level. -/
def below (t : DirectiveTree) (level : List Nat) : List Nat := level.flatMap t.children

/-- The nodes that have the given number of nodes between them and the root. -/
def level (t : DirectiveTree) (k : Nat) : List Nat := t.below^[k] (t.children 0)

theorem level_zero (t : DirectiveTree) : t.level 0 = t.children 0 := rfl

theorem level_succ (t : DirectiveTree) (k : Nat) : t.level (k + 1) = t.below (t.level k) :=
  Function.iterate_succ_apply' _ _ _

theorem levels_eq_flatMap (t : DirectiveTree) (count : Nat) (level : List Nat) :
    t.levels count level = (List.range count).flatMap fun k => t.below^[k] level := by
  induction count generalizing level with
  | zero => rfl
  | succ count ih =>
    rw [levels, List.range_succ_eq_map, List.flatMap_cons, List.flatMap_map]
    exact congrArg (level ++ ·) (ih (t.below level))

theorem breadthFirst_eq_flatMap (t : DirectiveTree) :
    t.breadthFirst = (List.range t.entries.length).flatMap t.level :=
  levels_eq_flatMap t _ _

theorem mem_level_iff :
    id ∈ t.level k ↔ ∃ parent, t.parent? id = some parent ∧ t.depth parent = k := by
  induction k generalizing id with
  | zero =>
    rw [level_zero, mem_children_iff]
    constructor
    · intro h
      exact ⟨0, h, depth_of_none parent?_zero⟩
    · rintro ⟨parent, h, hd⟩
      rw [h, eq_zero_of_depth h hd]
  | succ k ih =>
    rw [level_succ, below, List.mem_flatMap]
    constructor
    · rintro ⟨parent, hparent, hmem⟩
      obtain ⟨above, habove, hd⟩ := ih.1 hparent
      refine ⟨parent, mem_children_iff.1 hmem, ?_⟩
      rw [depth_of_parent? habove, hd]
    · rintro ⟨parent, h, hd⟩
      refine ⟨parent, ?_, mem_children_iff.2 h⟩
      cases habove : t.parent? parent with
      | none =>
        rw [depth_of_none habove] at hd
        omega
      | some above =>
        rw [depth_of_parent? habove] at hd
        exact ih.2 ⟨above, habove, by omega⟩

theorem depth_of_mem_level (h : id ∈ t.level k) : t.depth id = k + 1 := by
  obtain ⟨parent, hparent, hd⟩ := mem_level_iff.1 h
  rw [depth_of_parent? hparent, hd]

/-- There are no more levels than nodes. -/
theorem level_length (t : DirectiveTree) : t.level t.entries.length = [] := by
  refine List.eq_nil_iff_forall_not_mem.2 fun id h => ?_
  have hd := depth_of_mem_level h
  have hle := t.depth_le id
  obtain ⟨parent, hparent, -⟩ := mem_level_iff.1 h
  have hsize := lt_size_of_parent? hparent
  simp only [size] at hsize
  omega

theorem mem_breadthFirst_iff : id ∈ t.breadthFirst ↔ 0 < id ∧ id < t.size := by
  rw [breadthFirst_eq_flatMap, List.mem_flatMap]
  constructor
  · rintro ⟨k, -, h⟩
    obtain ⟨parent, hparent, -⟩ := mem_level_iff.1 h
    have hlt := parent?_lt hparent
    exact ⟨by omega, lt_size_of_parent? hparent⟩
  · rintro ⟨hpos, hsize⟩
    obtain ⟨parent, hparent⟩ := exists_parent? hpos hsize
    have hle := t.depth_le parent
    have hlt := parent?_lt hparent
    simp only [size] at hsize
    exact ⟨t.depth parent, List.mem_range.2 (by omega), mem_level_iff.2 ⟨parent, hparent, rfl⟩⟩

/-! What comes before what. -/

/-- The first node is nearer to the root than the second, or as near, and the older one if they are
siblings. -/
structure Precedes (t : DirectiveTree) (a b : Nat) : Prop where
  depth : t.depth a ≤ t.depth b
  older : t.parent? a = t.parent? b → a < b

theorem Precedes.ne {a b : Nat} (h : t.Precedes a b) : a ≠ b := by
  rintro rfl
  exact absurd (h.older rfl) (Nat.lt_irrefl a)

theorem precedes_of_depth_lt {a b : Nat} (h : t.depth a < t.depth b) : t.Precedes a b := by
  refine ⟨Nat.le_of_lt h, fun hsame => ?_⟩
  cases hparent : t.parent? b with
  | none =>
    rw [depth_of_none hparent] at h
    omega
  | some parent =>
    rw [depth_of_parent? hparent, depth_of_parent? (hsame.trans hparent)] at h
    omega

theorem pairwise_precedes_children (t : DirectiveTree) (id : Nat) :
    (t.children id).Pairwise t.Precedes := by
  refine (t.pairwise_children id).imp_of_mem fun {a b} ha hb hlt => ?_
  refine ⟨Nat.le_of_eq ?_, fun _ => hlt⟩
  rw [depth_of_parent? (mem_children_iff.1 ha), depth_of_parent? (mem_children_iff.1 hb)]

-- Nodes of one level have different parents or stand in one list of children. The induction is on
-- the level, since the parents have to be known to differ.
theorem pairwise_precedes_level (t : DirectiveTree) (k : Nat) :
    (t.level k).Pairwise t.Precedes := by
  induction k with
  | zero => exact t.pairwise_precedes_children 0
  | succ k ih =>
    rw [level_succ, below, List.pairwise_flatMap]
    refine ⟨fun id _ => t.pairwise_precedes_children id, ?_⟩
    refine ih.imp_of_mem fun {p q} hp hq hpq a ha b hb => ?_
    have hap := mem_children_iff.1 ha
    have hbq := mem_children_iff.1 hb
    refine ⟨Nat.le_of_eq ?_, fun hsame => ?_⟩
    · rw [depth_of_parent? hap, depth_of_parent? hbq, depth_of_mem_level hp, depth_of_mem_level hq]
    · rw [hap, hbq, Option.some.injEq] at hsame
      exact absurd hsame hpq.ne

theorem pairwise_precedes_breadthFirst (t : DirectiveTree) :
    t.breadthFirst.Pairwise t.Precedes := by
  rw [breadthFirst_eq_flatMap, List.pairwise_flatMap]
  refine ⟨fun k _ => t.pairwise_precedes_level k, ?_⟩
  refine List.pairwise_lt_range.imp fun hlt a ha b hb => precedes_of_depth_lt ?_
  rw [depth_of_mem_level ha, depth_of_mem_level hb]
  omega

theorem perm_breadthFirst (t : DirectiveTree) :
    t.breadthFirst.Perm (List.range' 1 (t.size - 1)) := by
  have hnodup : t.breadthFirst.Nodup := t.pairwise_precedes_breadthFirst.imp Precedes.ne
  refine (List.perm_ext_iff_of_nodup hnodup List.nodup_range').2 fun id => ?_
  rw [mem_breadthFirst_iff, List.mem_range'_1]
  omega

theorem length_breadthFirst (t : DirectiveTree) : t.breadthFirst.length = t.entries.length := by
  rw [t.perm_breadthFirst.length_eq, List.length_range', size, Nat.add_sub_cancel]

/-- When a node comes up, its parent is the root or has come up. -/
theorem parent_of_breadthFirst {done rest : List Nat} (h : t.breadthFirst = done ++ id :: rest) :
    ∃ parent, t.parent? id = some parent ∧ (parent = 0 ∨ parent ∈ done) := by
  have hid : id ∈ t.breadthFirst := by simp [h]
  obtain ⟨hpos, hsize⟩ := mem_breadthFirst_iff.1 hid
  obtain ⟨parent, hparent⟩ := exists_parent? hpos hsize
  have hlt := parent?_lt hparent
  refine ⟨parent, hparent, ?_⟩
  rcases Nat.eq_zero_or_pos parent with hzero | hpos'
  · exact .inl hzero
  right
  have hmem : parent ∈ t.breadthFirst := mem_breadthFirst_iff.2 ⟨hpos', by omega⟩
  have hpairs := t.pairwise_precedes_breadthFirst
  rw [h] at hmem hpairs
  rw [List.mem_append, List.mem_cons] at hmem
  rcases hmem with hdone | rfl | hrest
  · exact hdone
  · omega
  · have hafter := (List.pairwise_cons.1 (List.pairwise_append.1 hpairs).2.1).1 parent hrest
    have hdepth := hafter.depth
    rw [depth_of_parent? hparent] at hdepth
    omega

/-! The queue. -/

/-- One round with a queue: the node at its head comes out, and the children of that node go to its
end. -/
def turn (t : DirectiveTree) : List Nat × List Nat → List Nat × List Nat
  | ([], order) => ([], order)
  | (id :: queue, order) => (queue ++ t.children id, order ++ [id])

theorem iterate_turn (t : DirectiveTree) (front back order : List Nat) :
    t.turn^[front.length] (front ++ back, order) = (back ++ t.below front, order ++ front) := by
  induction front generalizing back order with
  | nil => simp [below]
  | cons id front ih =>
    rw [List.length_cons, Function.iterate_succ_apply, List.cons_append, turn, List.append_assoc, ih]
    simp [below]

theorem iterate_turn_levels (t : DirectiveTree) (count : Nat) (level order : List Nat) :
    t.turn^[(t.levels count level).length] (level, order) =
      (t.below^[count] level, order ++ t.levels count level) := by
  induction count generalizing level order with
  | zero => simp [levels]
  | succ count ih =>
    have hfirst := t.iterate_turn level [] order
    rw [List.append_nil, List.nil_append] at hfirst
    rw [levels, List.length_append, Nat.add_comm, Function.iterate_add_apply, hfirst]
    rw [Function.iterate_succ_apply, ← List.append_assoc]
    exact ih (t.below level) (order ++ level)

/-- The queue is empty after as many rounds as there are nodes under the root. -/
theorem iterate_turn_breadthFirst (t : DirectiveTree) :
    t.turn^[t.size - 1] (t.children 0, []) = ([], t.breadthFirst) := by
  have hrounds := t.iterate_turn_levels t.entries.length (t.children 0) []
  have hlength := t.length_breadthFirst
  rw [breadthFirst] at hlength ⊢
  rw [hlength, List.nil_append] at hrounds
  exact hrounds.trans (Prod.ext t.level_length rfl)

end DirectiveTree

/-! Backends. -/

namespace Logged

variable {ε α β : Type} {x : Logged ε α} {f : α → Logged ε β}

theorem bind_of_ok {a : α} (h : x.outcome = .ok a) :
    x >>= f = ⟨(f a).outcome, x.records ++ (f a).records⟩ := by
  change bind x f = _
  rw [bind, h]

theorem bind_of_error {e : ε} (h : x.outcome = .error e) : x >>= f = ⟨.error e, x.records⟩ := by
  change bind x f = _
  rw [bind, h]

end Logged

namespace Backend

variable {b : Backend} {tree : DirectiveTree} {start target : Target} {e : Error}
  {ids : List Nat} {records : List LogRecord}

/-- The record with which a backend turns to a node. -/
def announcement (b : Backend) (tree : DirectiveTree) (id : Nat) : LogRecord :=
  ⟨.debug, b.name ++ ": generating #" ++ Text.decimal id ++ " for " ++ (tree.get id).render⟩

/-- The backend generates the given nodes, each once and in this order, every one on the target that
the one before has left. The records are those of these calls. -/
inductive Generates (b : Backend) (tree : DirectiveTree) :
    Target → List Nat → Target → List LogRecord → Prop
  | nil (target : Target) : Generates b tree target [] target []
  | cons {start mid target : Target} {id : Nat} {ids : List Nat} {records : List LogRecord}
    (first : (b.generate (tree.get id) tree start).outcome = .ok mid)
    (rest : Generates b tree mid ids target records) :
    Generates b tree start (id :: ids) target
      (b.announcement tree id :: (b.generate (tree.get id) tree start).records ++ records)

theorem outcome_visit (b : Backend) (tree : DirectiveTree) (target : Target) (id : Nat) :
    (b.visit tree target id).outcome = (b.generate (tree.get id) tree target).outcome := by
  simp [visit]

theorem records_visit (b : Backend) (tree : DirectiveTree) (target : Target) (id : Nat) :
    (b.visit tree target id).records =
      b.announcement tree id :: (b.generate (tree.get id) tree target).records := by
  unfold visit announcement
  exact congrArg Logged.records (Logged.bind_of_ok rfl)

/-- Nodes that have been generated leave the others to be visited. -/
theorem Generates.foldlM_append (h : b.Generates tree start ids target records) (rest : List Nat) :
    (ids ++ rest).foldlM (b.visit tree) start =
      ⟨(rest.foldlM (b.visit tree) target).outcome,
        records ++ (rest.foldlM (b.visit tree) target).records⟩ := by
  induction h with
  | nil target => rfl
  | cons first _ ih =>
    rw [List.cons_append, List.foldlM_cons, Logged.bind_of_ok ((outcome_visit ..).trans first), ih,
      records_visit]
    simp only [List.cons_append, List.append_assoc]

theorem Generates.foldlM_eq (h : b.Generates tree start ids target records) :
    ids.foldlM (b.visit tree) start = ⟨.ok target, records⟩ := by
  have hall := h.foldlM_append []
  rw [List.append_nil, List.foldlM_nil] at hall
  rw [hall]
  simp [pure]

/-- The backend generates the nodes `done` and then fails on another one. -/
def FailsAt (b : Backend) (tree : DirectiveTree) (start : Target) (done : List Nat) (id : Nat)
    (e : Error) (records : List LogRecord) : Prop :=
  ∃ target before, b.Generates tree start done target before ∧
    (b.generate (tree.get id) tree target).outcome = .error e ∧
    records = before ++ b.announcement tree id :: (b.generate (tree.get id) tree target).records

theorem FailsAt.foldlM_eq {done rest : List Nat} {id : Nat}
    (h : b.FailsAt tree start done id e records) :
    (done ++ id :: rest).foldlM (b.visit tree) start = ⟨.error e, records⟩ := by
  obtain ⟨target, before, hdone, hfails, rfl⟩ := h
  rw [hdone.foldlM_append, List.foldlM_cons,
    Logged.bind_of_error ((outcome_visit ..).trans hfails), records_visit]

theorem generates_or_failsAt (b : Backend) (tree : DirectiveTree) (start : Target) (ids : List Nat) :
    (∃ target records, b.Generates tree start ids target records) ∨
      ∃ done id rest e records, ids = done ++ id :: rest ∧ b.FailsAt tree start done id e records := by
  induction ids generalizing start with
  | nil => exact .inl ⟨start, [], .nil start⟩
  | cons id ids ih =>
    cases hfirst : (b.generate (tree.get id) tree start).outcome with
    | error e => exact .inr ⟨[], id, ids, e, _, rfl, ⟨start, [], .nil start, hfirst, rfl⟩⟩
    | ok mid =>
      rcases ih mid with
        ⟨target, records, hrest⟩ | ⟨done, next, rest, e, _, rfl, target, before, hdone, hfails, -⟩
      · exact .inl ⟨target, _, .cons hfirst hrest⟩
      · exact .inr ⟨id :: done, next, rest, e, _, rfl, target, _, .cons hfirst hdone, hfails, rfl⟩

theorem foldlM_visit_eq_ok_iff :
    ids.foldlM (b.visit tree) start = ⟨.ok target, records⟩ ↔
      b.Generates tree start ids target records := by
  refine ⟨fun h => ?_, Generates.foldlM_eq⟩
  rcases b.generates_or_failsAt tree start ids with
    ⟨target', records', hall⟩ | ⟨done, id, rest, e, records', rfl, hfails⟩
  · rw [hall.foldlM_eq, Logged.mk.injEq, Except.ok.injEq] at h
    obtain ⟨rfl, rfl⟩ := h
    exact hall
  · rw [hfails.foldlM_eq, Logged.mk.injEq] at h
    exact absurd h.1 (by simp)

theorem foldlM_visit_eq_error_iff :
    ids.foldlM (b.visit tree) start = ⟨.error e, records⟩ ↔
      ∃ done id rest, ids = done ++ id :: rest ∧ b.FailsAt tree start done id e records := by
  constructor
  · intro h
    rcases b.generates_or_failsAt tree start ids with
      ⟨target, records', hall⟩ | ⟨done, id, rest, e', records', rfl, hfails⟩
    · rw [hall.foldlM_eq, Logged.mk.injEq] at h
      exact absurd h.1 (by simp)
    · rw [hfails.foldlM_eq, Logged.mk.injEq, Except.error.injEq] at h
      obtain ⟨rfl, rfl⟩ := h
      exact ⟨done, id, rest, rfl, hfails⟩
  · rintro ⟨done, id, rest, rfl, hfails⟩
    exact hfails.foldlM_eq

end Backend

namespace Registry

variable {r : Registry} {tree : DirectiveTree} {start target : Target} {e : Error}
  {ids : List Nat} {records : List LogRecord}

/-- No registered generator fails on one of the given nodes. -/
def Reliable (r : Registry) (tree : DirectiveTree) (ids : List Nat) : Prop :=
  ∀ id ∈ ids, ∀ generator, r.generator? (tree.get id).kind = some generator →
    ∀ target, ∃ next, (generator (tree.get id) tree target).outcome = .ok next

theorem generate_of_not_handles {d : Directive} (h : r.handles d.kind = false)
    (tree : DirectiveTree) (target : Target) :
    (r.generate d tree target).outcome = .error (.notImplemented d.line r.name d.kind) := by
  have hnone : r.generator? d.kind = none := by simpa [handles] using h
  rw [generate, hnone]
  rfl

theorem Reliable.exists_generate (hr : r.Reliable tree ids) {id : Nat} (hid : id ∈ ids)
    (h : r.handles (tree.get id).kind = true) (target : Target) :
    ∃ next, (r.generate (tree.get id) tree target).outcome = .ok next := by
  obtain ⟨generator, hgenerator⟩ := Option.isSome_iff_exists.1 h
  simp only [generate, hgenerator]
  exact hr id hid generator hgenerator target

theorem handles_of_generates (h : r.toBackend.Generates tree start ids target records) :
    ∀ id ∈ ids, r.handles (tree.get id).kind = true := by
  induction h with
  | nil target => simp
  | @cons start mid target id ids records first _ ih =>
    refine List.forall_mem_cons.2 ⟨?_, ih⟩
    cases hkind : r.handles (tree.get id).kind with
    | true => rfl
    | false => simp [toBackend, generate_of_not_handles hkind tree start] at first

theorem Reliable.exists_generates (hr : r.Reliable tree ids) (start : Target)
    (h : ∀ id ∈ ids, r.handles (tree.get id).kind = true) :
    ∃ target records, r.toBackend.Generates tree start ids target records := by
  induction ids generalizing start with
  | nil => exact ⟨start, [], .nil start⟩
  | cons id ids ih =>
    obtain ⟨hid, hids⟩ := List.forall_mem_cons.1 h
    obtain ⟨mid, hmid⟩ := hr.exists_generate List.mem_cons_self hid start
    obtain ⟨target, records, hrest⟩ := ih (List.forall_mem_cons.1 hr).2 mid hids
    exact ⟨target, _, .cons hmid hrest⟩

/-- With generators that do not fail, a registry fails on the first node that it does not handle. -/
theorem Reliable.failsAt_iff {done rest : List Nat} {id : Nat}
    (hr : r.Reliable tree (done ++ id :: rest)) :
    (∃ records, r.toBackend.FailsAt tree start done id e records) ↔
      (∀ other ∈ done, r.handles (tree.get other).kind = true) ∧
        r.handles (tree.get id).kind = false ∧
        e = .notImplemented (tree.get id).line r.name (tree.get id).kind := by
  constructor
  · rintro ⟨_, target, before, hdone, hfails, -⟩
    have hkind : r.handles (tree.get id).kind = false := by
      cases hkind : r.handles (tree.get id).kind with
      | false => rfl
      | true =>
        obtain ⟨next, hnext⟩ := hr.exists_generate (by simp) hkind target
        simp [toBackend, hnext] at hfails
    refine ⟨handles_of_generates hdone, hkind, ?_⟩
    have hmissing := generate_of_not_handles hkind tree target
    exact Except.error.inj (hfails.symm.trans hmissing)
  · rintro ⟨hdone, hkind, rfl⟩
    have hreliable : r.Reliable tree done := fun other hother =>
      hr other (List.mem_append_left _ hother)
    obtain ⟨target, before, hgenerates⟩ := hreliable.exists_generates start hdone
    exact ⟨_, target, before, hgenerates, generate_of_not_handles hkind tree target, rfl⟩

theorem Reliable.outcome_dispatch_eq_error_iff (hr : r.Reliable tree tree.breadthFirst) :
    (r.toBackend.dispatch tree start).outcome = .error e ↔
      ∃ done id rest, tree.breadthFirst = done ++ id :: rest ∧
        (∀ other ∈ done, r.handles (tree.get other).kind = true) ∧
        r.handles (tree.get id).kind = false ∧
        e = .notImplemented (tree.get id).line r.name (tree.get id).kind := by
  constructor
  · intro h
    have hdispatch : r.toBackend.dispatch tree start =
        ⟨.error e, (r.toBackend.dispatch tree start).records⟩ := by rw [← h]
    obtain ⟨done, id, rest, hsplit, hfails⟩ := Backend.foldlM_visit_eq_error_iff.1 hdispatch
    rw [hsplit] at hr
    exact ⟨done, id, rest, hsplit, hr.failsAt_iff.1 ⟨_, hfails⟩⟩
  · rintro ⟨done, id, rest, hsplit, hmissing⟩
    rw [hsplit] at hr
    obtain ⟨records, hfails⟩ := hr.failsAt_iff.2 hmissing
    have hdispatch := Backend.foldlM_visit_eq_error_iff.2 ⟨done, id, rest, hsplit, hfails⟩
    rw [Backend.dispatch, hdispatch]

end Registry

namespace DirectiveTree

/-- An order of all nodes but the root, level by level. -/
structure LevelOrder (t : DirectiveTree) (order : List Nat) : Prop where
  perm : order.Perm (List.range' 1 (t.size - 1))
  /-- When a node comes up, its parent is the root or has come up. -/
  parents : ∀ done id rest, order = done ++ id :: rest →
    ∃ parent, t.parent? id = some parent ∧ (parent = 0 ∨ parent ∈ done)
  depths : (order.map t.depth).Pairwise (· ≤ ·)
  /-- Of two siblings, the one that was inserted first comes first. -/
  siblings : order.Pairwise fun a b => t.parent? a = t.parent? b → a < b
  /-- A queue that starts with the children of the root gives out the nodes in this order, and is
  empty then. -/
  queue : t.turn^[t.size - 1] (t.children 0, []) = ([], order)

theorem levelOrder_breadthFirst (t : DirectiveTree) : t.LevelOrder t.breadthFirst where
  perm := t.perm_breadthFirst
  parents := fun _ _ _ => parent_of_breadthFirst
  depths := List.pairwise_map.2 (t.pairwise_precedes_breadthFirst.imp Precedes.depth)
  siblings := t.pairwise_precedes_breadthFirst.imp Precedes.older
  queue := t.iterate_turn_breadthFirst

/-- Dispatch takes the nodes level by level. It succeeds exactly if the backend generates all of
them in this order, and otherwise has generated the nodes before the one that fails. With a registry
whose generators do not fail on them, it fails exactly on the first node that has none. -/
theorem dispatch_levelOrder (t : DirectiveTree) :
    t.LevelOrder t.breadthFirst ∧
      (∀ (b : Backend) (start : Target),
        (∀ target records, b.dispatch t start = ⟨.ok target, records⟩ ↔
          b.Generates t start t.breadthFirst target records) ∧
        ∀ e records, b.dispatch t start = ⟨.error e, records⟩ ↔
          ∃ done id rest, t.breadthFirst = done ++ id :: rest ∧
            b.FailsAt t start done id e records) ∧
      ∀ (r : Registry), r.Reliable t t.breadthFirst → ∀ (start : Target) (e : Error),
        (r.toBackend.dispatch t start).outcome = .error e ↔
          ∃ done id rest, t.breadthFirst = done ++ id :: rest ∧
            (∀ other ∈ done, r.handles (t.get other).kind = true) ∧
            r.handles (t.get id).kind = false ∧
            e = .notImplemented (t.get id).line r.name (t.get id).kind := by
  refine ⟨t.levelOrder_breadthFirst, fun b start => ?_, fun r hr start e => ?_⟩
  · exact ⟨fun _ _ => Backend.foldlM_visit_eq_ok_iff, fun _ _ => Backend.foldlM_visit_eq_error_iff⟩
  · exact hr.outcome_dispatch_eq_error_iff

end DirectiveTree

/-- A construct with a loop in it, and a directive behind the construct. -/
def waitingTree : DirectiveTree :=
  .run 8 [
    .insert { kind := .parallel, line := 1, region := some ⟨2, 6⟩ },
    .insert { kind := .loop, line := 3, region := some ⟨4, 6⟩ },
    .insert { kind := .wait, line := 6 }]

/-- A registry that knows constructs of one kind only. -/
def parallelRegistry : Registry :=
  ({ name := "partial" } : Registry).register .parallel fun _ _ target =>
    pure (target.addImport "recorded")

theorem parallelRegistry_reliable (tree : DirectiveTree) (ids : List Nat) :
    parallelRegistry.Reliable tree ids := by
  intro id _ generator h target
  simp only [parallelRegistry, Registry.register, Registry.generator?, List.filter_nil,
    List.nil_append, Option.map_eq_some_iff] at h
  obtain ⟨⟨kind', found⟩, hfind, rfl⟩ := h
  obtain ⟨-, rfl⟩ := Prod.mk.inj (List.mem_singleton.1 (List.mem_of_find?_eq_some hfind))
  exact ⟨_, rfl⟩

/-- The loop stands above the other directive in the source, and below it in the tree. -/
theorem parallelRegistry_fails_at_wait :
    waitingTree.breadthFirst = [1, 3, 2] ∧
      (parallelRegistry.toBackend.dispatch waitingTree
        (.ofContext { source := [] } Source.defaultTabWidth Target.defaultEntry)).outcome =
        .error (.notImplemented 6 "partial" .wait) := by
  have horder : waitingTree.breadthFirst = [1, 3, 2] := by decide
  refine ⟨horder, ?_⟩
  refine (waitingTree.dispatch_levelOrder.2.2 _ (parallelRegistry_reliable _ _) _ _).2 ?_
  exact ⟨[1], 3, [2], horder, by decide, by decide, by decide⟩

end Offload
