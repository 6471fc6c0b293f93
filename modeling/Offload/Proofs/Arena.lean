import Offload.Directive.Arena
import Offload.Proofs.History

/-!
The store of a tree and the tree itself. Whatever calls come, the lists and the index of the store
hold what the tree computes from its entries, every call gets the same answer from both, and a call
that fails hands the store back as it was.
-/
namespace Offload

namespace LineIndex

variable {x : LineIndex} {line id : Nat}

theorem lookup_cons (first : Nat × Nat) (rest : List (Nat × Nat)) (line : Nat) :
    (first :: rest).lookup line = if line = first.1 then some first.2 else rest.lookup line := by
  obtain ⟨key, value⟩ := first
  by_cases h : line = key
  · simp [h]
  · rw [List.lookup_cons, beq_eq_false_iff_ne.2 h, if_neg h]

theorem lookup_insertEntry (line id other : Nat) (entries : List (Nat × Nat)) :
    (insertEntry line id entries).lookup other =
      if other = line then some id else entries.lookup other := by
  induction entries with
  | nil => rw [insertEntry, lookup_cons]
  | cons first rest ih =>
    rw [insertEntry, lookup_cons first]
    split
    · rw [lookup_cons, lookup_cons first]
    · split
      · next hsame =>
        rw [lookup_cons, ← hsame]
        split <;> rfl
      · next hother =>
        rw [lookup_cons, ih]
        grind

theorem get?_insert (x : LineIndex) (line id other : Nat) :
    (x.insert line id).get? other = if other = line then some id else x.get? other :=
  lookup_insertEntry line id other x.entries

/-- The index holds one node at most for each line. -/
theorem get?_eq_some_iff : x.get? line = some id ↔ (line, id) ∈ x.entries := by
  obtain ⟨entries, ordered⟩ := x
  change entries.lookup line = some id ↔ (line, id) ∈ entries
  induction entries with
  | nil => simp
  | cons first rest ih =>
    obtain ⟨key, value⟩ := first
    rw [List.pairwise_cons] at ordered
    rw [lookup_cons, List.mem_cons, Prod.mk.injEq]
    by_cases h : line = key
    · subst h
      have hrest : (line, id) ∉ rest := fun hmem => Nat.lt_irrefl line (ordered.1 _ hmem)
      simp [hrest, eq_comm]
    · simp [h, ih ordered.2]

theorem mem_above : id ∈ x.above line ↔ ∃ above < line, x.get? above = some id := by
  simp only [above, List.mem_reverse, List.mem_map, List.mem_filter, decide_eq_true_eq,
    get?_eq_some_iff]
  constructor
  · rintro ⟨⟨key, value⟩, ⟨hmem, hlt⟩, rfl⟩
    exact ⟨key, hlt, hmem⟩
  · rintro ⟨key, hlt, hmem⟩
    exact ⟨(key, id), ⟨hmem, hlt⟩, rfl⟩

/-- The first node that is found above a line is the one of the greatest line. -/
theorem exists_of_find?_above {p : Nat → Bool} (h : (x.above line).find? p = some id) :
    ∃ above < line, x.get? above = some id ∧
      ∀ other < line, ∀ id', x.get? other = some id' → p id' = true → other ≤ above := by
  have hform : x.above line =
      ((x.entries.filter fun e => e.1 < line).reverse).map Prod.snd := (List.map_reverse ..).symm
  rw [hform, List.find?_map, Option.map_eq_some_iff] at h
  obtain ⟨⟨above, id⟩, hfind, rfl⟩ := h
  obtain ⟨-, nearer, farther, hsplit, hnearer⟩ := List.find?_eq_some_iff_append.1 hfind
  have hmem {e : Nat × Nat} :
      e ∈ nearer ++ (above, id) :: farther ↔ e ∈ x.entries ∧ e.1 < line := by
    rw [← hsplit, List.mem_reverse, List.mem_filter, decide_eq_true_eq]
  obtain ⟨hentry, hlt⟩ := hmem.1 (List.mem_append_right nearer List.mem_cons_self)
  refine ⟨above, hlt, get?_eq_some_iff.2 hentry, fun other hother id' hid' hp => ?_⟩
  have hordered : (nearer ++ (above, id) :: farther).Pairwise fun a b => b.1 < a.1 := by
    rw [← hsplit, List.pairwise_reverse]
    exact x.ordered.filter _
  rcases List.mem_append.1 (hmem.2 ⟨get?_eq_some_iff.1 hid', hother⟩) with hin | hin
  · exact absurd hp (by simpa using hnearer _ hin)
  · rcases List.mem_cons.1 hin with heq | hin
    · exact Nat.le_of_eq (congrArg Prod.fst heq)
    · exact Nat.le_of_lt ((List.pairwise_cons.1 (List.pairwise_append.1 hordered).2.1).1 _ hin)

end LineIndex

/-! What one more node changes in a tree. -/

namespace DirectiveTree

variable {t : DirectiveTree} {new : TreeEntry}

theorem numbered_push (h : new.parent ≤ t.entries.length) :
    (t.push new h).1.numbered = t.numbered ++ [(new, t.size)] := by
  simp [numbered, push, List.zipIdx_append, size, Nat.add_comm]

theorem children_push (h : new.parent ≤ t.entries.length) (id : Nat) :
    (t.push new h).1.children id = t.children id ++ if new.parent = id then [t.size] else [] := by
  rw [children, numbered_push, List.filter_append, List.map_append, ← children]
  by_cases hid : new.parent = id <;> simp [hid]

theorem parent?_push (h : new.parent ≤ t.entries.length) (id : Nat) :
    (t.push new h).1.parent? id = if id = t.size then some new.parent else t.parent? id := by
  cases id with
  | zero => simp [size]
  | succ i =>
    simp only [parent?, push, size, List.getElem?_append, Nat.add_right_cancel_iff]
    grind

theorem atLine?_push (h : new.parent ≤ t.entries.length) (line : Nat) :
    (t.push new h).1.atLine? line =
      (t.atLine? line).or
        (if new.attached = false ∧ new.directive.line = line then some t.size else none) := by
  rw [atLine?, numbered_push, List.find?_append, Option.map_or, ← atLine?]
  by_cases hnew : new.attached = false ∧ new.directive.line = line
  · simp [hnew]
  · cases hattached : new.attached <;> simp_all

/-- Beyond its last node a tree has no children. -/
theorem children_eq_nil {id : Nat} (h : t.entries.length ≤ id) : t.children id = [] := by
  apply List.eq_nil_iff_forall_not_mem.2
  intro child hchild
  have hbounds := of_mem_children hchild
  omega

theorem getElem?_toList (t : DirectiveTree) (id : Nat) : t.toList[id]? = t.get? id := by
  cases id with
  | zero => rfl
  | succ i => simp [toList]

/-- What is nearest to a line is determined by the index. -/
theorem Nearest.unique {line id id' : Nat} (h : t.Nearest line id) (h' : t.Nearest line id') :
    id = id' := by
  cases h with
  | construct around greatest =>
    cases h' with
    | construct around' greatest' =>
      have hle := greatest _ _ around'
      have hge := greatest' _ _ around
      obtain rfl := Nat.le_antisymm hle hge
      exact Option.some.inj (around.indexed.symm.trans around'.indexed)
    | root nothing => exact absurd around (nothing _ _)
  | root nothing =>
    cases h' with
    | construct around _ => exact absurd around (nothing _ _)
    | root _ => rfl

end DirectiveTree

namespace Arena

open DirectiveTree (Call)

variable {a b : Arena} {t : DirectiveTree} {id line lineCount : Nat}

/-- The store holds what the tree computes. -/
structure Stores (a : Arena) (t : DirectiveTree) : Prop where
  nodes : a.nodes = t.toList
  parents : a.parents = (List.range t.size).map t.parent?
  children : a.children = (List.range t.size).map t.children
  index : ∀ line, a.atLine? line = t.atLine? line
  lineCount : a.lineCount = t.lineCount

theorem stores_empty (lineCount : Nat) : (empty lineCount).Stores (.empty lineCount) where
  nodes := rfl
  parents := rfl
  children := rfl
  index := fun _ => rfl
  lineCount := rfl

namespace Stores

theorem length_nodes (h : a.Stores t) : a.nodes.length = t.size := by
  rw [h.nodes, DirectiveTree.toList, List.length_cons, List.length_map, DirectiveTree.size]

theorem getElem?_nodes (h : a.Stores t) (id : Nat) : a.nodes[id]? = t.get? id := by
  rw [h.nodes, t.getElem?_toList]

theorem parent?_eq (h : a.Stores t) (id : Nat) : a.parent? id = t.parent? id := by
  rw [Arena.parent?, h.parents, List.getElem?_map]
  by_cases hid : id < t.size
  · rw [List.getElem?_range hid, Option.map_some, Option.join_some]
  · have hnone : t.parent? id = none := by
      by_contra hsome
      obtain ⟨parent, hparent⟩ := Option.ne_none_iff_exists'.1 hsome
      obtain ⟨i, e, rfl, he, -⟩ := DirectiveTree.exists_entry hparent
      exact hid (Nat.succ_lt_succ (List.getElem?_eq_some_iff.1 he).1)
    rw [List.getElem?_eq_none (by simpa using hid), hnone]
    rfl

theorem childrenOf_eq (h : a.Stores t) (id : Nat) : a.childrenOf id = t.children id := by
  rw [childrenOf, h.children, List.getElem?_map]
  by_cases hid : id < t.size
  · rw [List.getElem?_range hid, Option.map_some, Option.getD_some]
  · rw [List.getElem?_eq_none (by simpa using hid), Option.map_none, Option.getD_none]
    exact (DirectiveTree.children_eq_nil (by rw [DirectiveTree.size] at hid; omega)).symm

end Stores

/-- A node that is indexed under line `above` and is a compute construct around `line`. -/
structure Surrounds (a : Arena) (line above id : Nat) : Prop where
  lt : above < line
  indexed : a.atLine? above = some id
  compute : ∃ d, a.nodes[id]? = some d ∧ d.kind.isCompute = true ∧ d.governs line = true

/-- The indexed construct around a line whose own line is the greatest, or the root if no indexed
construct is around it. -/
inductive Nearest (a : Arena) (line : Nat) : Nat → Prop
  | construct {above id : Nat} (around : a.Surrounds line above id)
    (greatest : ∀ other id', a.Surrounds line other id' → other ≤ above) : Nearest a line id
  | root (nothing : ∀ above id, ¬ a.Surrounds line above id) : Nearest a line 0

/-! What the store and the tree have in common. -/

namespace Stores

theorem surrounds_iff (h : a.Stores t) {above : Nat} :
    a.Surrounds line above id ↔ t.Surrounds line above id := by
  constructor
  · rintro ⟨hlt, hindexed, d, hd, hcompute, hgoverns⟩
    rw [h.getElem?_nodes] at hd
    have hget := DirectiveTree.get_eq hd
    exact ⟨hlt, h.index above ▸ hindexed, by rwa [hget], by rwa [hget]⟩
  · rintro ⟨hlt, hindexed, hcompute, hgoverns⟩
    obtain ⟨i, e, rfl, he, -⟩ := DirectiveTree.exists_of_atLine? hindexed
    refine ⟨hlt, (h.index above).trans hindexed, t.get (i + 1), ?_, hcompute, hgoverns⟩
    rw [h.getElem?_nodes, DirectiveTree.get?_succ, he, DirectiveTree.get_succ he, Option.map_some]

theorem nearest_iff (h : a.Stores t) : a.Nearest line id ↔ t.Nearest line id := by
  constructor
  · intro hnear
    cases hnear with
    | construct around greatest =>
      exact .construct (h.surrounds_iff.1 around) fun other id' ho =>
        greatest other id' (h.surrounds_iff.2 ho)
    | root nothing => exact .root fun above id ho => nothing above id (h.surrounds_iff.2 ho)
  · intro hnear
    cases hnear with
    | construct around greatest =>
      exact .construct (h.surrounds_iff.2 around) fun other id' ho =>
        greatest other id' (h.surrounds_iff.1 ho)
    | root nothing => exact .root fun above id ho => nothing above id (h.surrounds_iff.1 ho)

/-- Indexed nodes that can hold children are constructs. -/
theorem any_holds_iff (h : a.Stores t) (ht : t.Indexed) {above : Nat}
    (hindexed : a.atLine? above = some id) (hlt : above < line) :
    (a.nodes[id]?.any fun d => d.kind.holdsChildren && d.governs line) = true ↔
      a.Surrounds line above id := by
  obtain ⟨i, e, rfl, he, hinserted, -⟩ :=
    DirectiveTree.exists_of_atLine? ((h.index above).symm.trans hindexed)
  have hnode : a.nodes[i + 1]? = some e.directive := by
    rw [h.getElem?_nodes, DirectiveTree.get?_succ, he, Option.map_some]
  have hkind := ht.written he hinserted
  rw [hnode, Option.any_some, Bool.and_eq_true, DirectiveKind.holdsChildren_iff]
  constructor
  · rintro ⟨hholds, hgoverns⟩
    exact ⟨hlt, hindexed, _, hnode, hholds.resolve_left hkind, hgoverns⟩
  · rintro ⟨-, -, d, hd, hcompute, hgoverns⟩
    obtain rfl : e.directive = d := Option.some.inj (hnode.symm.trans hd)
    exact ⟨.inr hcompute, hgoverns⟩

theorem nearest_parentFor (h : a.Stores t) (ht : t.Indexed) (line : Nat) :
    a.Nearest line (a.parentFor line) := by
  rw [parentFor]
  cases hfind : (a.index.above line).find? fun id =>
      a.nodes[id]?.any fun d => d.kind.holdsChildren && d.governs line with
  | none =>
    refine .root fun above id hs => ?_
    have hmem : id ∈ a.index.above line := LineIndex.mem_above.2 ⟨above, hs.lt, hs.indexed⟩
    exact List.find?_eq_none.1 hfind id hmem ((h.any_holds_iff ht hs.indexed hs.lt).2 hs)
  | some id =>
    obtain ⟨above, hlt, hindexed, hgreatest⟩ := LineIndex.exists_of_find?_above hfind
    have hholds := List.find?_some hfind
    refine .construct ((h.any_holds_iff ht hindexed hlt).1 hholds) fun other id' hs => ?_
    exact hgreatest other hs.lt id' hs.indexed ((h.any_holds_iff ht hs.indexed hs.lt).2 hs)

/-- The walk through the index ends where the tree's own choice lies. -/
theorem parentFor_eq (h : a.Stores t) (ht : t.Indexed) (line : Nat) :
    a.parentFor line = t.parentFor line :=
  (h.nearest_iff.1 (h.nearest_parentFor ht line)).unique (ht.nearest_parentFor line)

end Stores

/-! Calls. -/

/-- The answer of a store to a call: the number of the new node or a fault, and the store that the
call leaves behind. -/
def perform (a : Arena) : Call → EStateM.Result InternalFault Arena Nat
  | .insert d => insert d a
  | .attach owner d => attach owner d a

/-- Whatever the answer, the next call works on the store that it comes with. -/
def after (a : Arena) (call : Call) : Arena :=
  match a.perform call with
  | .ok _ b => b
  | .error _ b => b

/-- The store that calls leave behind, from one that holds only the root. -/
def run (lineCount : Nat) (calls : List Call) : Arena := calls.foldl after (empty lineCount)

/-- The store behind `push`. -/
def grown (a : Arena) (parent : Nat) (d : Directive) : Arena :=
  { a with
    nodes := a.nodes ++ [d]
    parents := a.parents ++ [some parent]
    children := (a.children ++ [[]]).modify parent (· ++ [a.nodes.length]) }

theorem get_bind {α : Type} (k : Arena → EStateM InternalFault Arena α) (a : Arena) :
    (get >>= k) a = k a a := rfl

theorem push_eq (a : Arena) (parent : Nat) (d : Directive) :
    push parent d a = .ok a.nodes.length (a.grown parent d) := rfl

namespace Stores

variable {new : TreeEntry}

/-- The lists of the children grow in step with the entries of the tree. -/
theorem children_grown (h : a.Stores t) (hparent : new.parent ≤ t.entries.length) :
    (a.grown new.parent new.directive).children =
      (List.range (t.size + 1)).map (t.push new hparent).1.children := by
  have hnone : t.children t.size = [] :=
    DirectiveTree.children_eq_nil (by simp [DirectiveTree.size])
  have hold : a.children ++ [[]] = (List.range (t.size + 1)).map t.children := by
    rw [List.range_succ, List.map_append, h.children, List.map_singleton, hnone]
  rw [grown, hold, h.length_nodes]
  apply List.ext_getElem?
  intro id
  rw [List.getElem?_modify, List.getElem?_map, List.getElem?_map]
  by_cases hid : id < t.size + 1
  · rw [List.getElem?_range hid, Option.map_some, Option.map_some, Option.map_eq_map,
      Option.map_some, DirectiveTree.children_push]
    split <;> simp
  · rw [List.getElem?_eq_none (by simpa using hid)]
    rfl

theorem parents_grown (h : a.Stores t) (hparent : new.parent ≤ t.entries.length) :
    (a.grown new.parent new.directive).parents =
      (List.range (t.size + 1)).map (t.push new hparent).1.parent? := by
  have hold : (List.range t.size).map (t.push new hparent).1.parent? = a.parents := by
    rw [h.parents]
    apply List.map_congr_left
    intro id hid
    have hne : id ≠ t.size := Nat.ne_of_lt (List.mem_range.1 hid)
    rw [DirectiveTree.parent?_push, if_neg hne]
  rw [List.range_succ, List.map_append, hold, List.map_singleton, DirectiveTree.parent?_push,
    if_pos rfl, grown]

/-- One more node: where the index says the same of it, store and tree are still in step. -/
theorem push (h : a.Stores t) (new : TreeEntry) (hparent : new.parent ≤ t.entries.length)
    {index : LineIndex} (hindex : ∀ line, index.get? line = (t.push new hparent).1.atLine? line) :
    Stores { a.grown new.parent new.directive with index } (t.push new hparent).1 := by
  have hsize : (t.push new hparent).1.size = t.size + 1 := by
    simp [DirectiveTree.size, DirectiveTree.push]
  constructor
  case nodes => simp [grown, h.nodes, DirectiveTree.toList, DirectiveTree.push, DirectiveTree.root]
  case parents => rw [hsize, ← h.parents_grown hparent]
  case children => rw [hsize, ← h.children_grown hparent]
  case index => exact hindex
  case lineCount => exact h.lineCount

theorem attached (h : a.Stores t) {owner : Nat} (howner : owner ≤ t.entries.length)
    (d : Directive) :
    Stores (a.grown owner d) (t.push ⟨d, owner, true⟩ howner).1 := by
  refine h.push ⟨d, owner, true⟩ howner fun line => ?_
  rw [DirectiveTree.atLine?_push, ← h.index]
  simp [atLine?]

theorem inserted (h : a.Stores t) {d : Directive} (hfree : t.atLine? d.line = none) :
    Stores
      { a.grown (t.parentFor d.line) d with index := a.index.insert d.line a.nodes.length }
      (t.put d).1 := by
  refine h.push ⟨d, t.parentFor d.line, false⟩ (t.parentFor_le d.line) fun line => ?_
  rw [DirectiveTree.atLine?_push, LineIndex.get?_insert, h.length_nodes]
  by_cases hline : line = d.line
  · rw [if_pos hline, hline, hfree]
    simp
  · rw [if_neg hline, ← atLine?, h.index]
    simp [Ne.symm hline]

end Stores

/-- A store and a tree answer alike, and a fault leaves the store as it was. -/
inductive Agree (a : Arena) :
    EStateM.Result InternalFault Arena Nat → Except InternalFault (DirectiveTree × Nat) → Prop
  | ok (id : Nat) {b : Arena} {t : DirectiveTree} (stores : b.Stores t) :
    Agree a (.ok id b) (.ok (t, id))
  | error (fault : InternalFault) : Agree a (.error fault a) (.error fault)

namespace Stores

theorem agree_insert (h : a.Stores t) (ht : t.Indexed) (d : Directive) :
    a.Agree (insert d a) (t.insert d) := by
  rw [insert, get_bind, DirectiveTree.insert, h.lineCount, h.index, h.parentFor_eq ht]
  split_ifs
  · exact .error _
  · exact .error _
  · cases hfree : t.atLine? d.line with
    | some id => exact .error _
    | none =>
      have hok : a.Agree _ (.ok (_, a.nodes.length)) := .ok _ (h.inserted hfree)
      simp only [bind, EStateM.bind, push_eq]
      rwa [h.length_nodes] at hok ⊢

theorem agree_attach (h : a.Stores t) (owner : Nat) (d : Directive) :
    a.Agree (attach owner d a) (t.attach owner d) := by
  rw [attach, get_bind, DirectiveTree.attach, h.getElem?_nodes]
  by_cases howner : owner ≤ t.entries.length
  · rw [dif_pos howner, DirectiveTree.get?_eq_get (Nat.lt_succ_of_le howner)]
    simp only
    split_ifs
    · have hok : a.Agree _ (.ok (_, a.nodes.length)) := .ok _ (h.attached howner d)
      rw [push_eq]
      rwa [h.length_nodes] at hok ⊢
    · exact .error _
  · have hnone : t.get? owner = none := by
      rw [← h.getElem?_nodes, List.getElem?_eq_none]
      rw [h.length_nodes, DirectiveTree.size]
      omega
    rw [dif_neg howner, hnone]
    exact .error _

theorem agree_perform (h : a.Stores t) (ht : t.Indexed) (call : Call) :
    a.Agree (a.perform call) (t.perform call) := by
  cases call with
  | insert d => exact h.agree_insert ht d
  | attach owner d => exact h.agree_attach owner d

/-- A call, whether it succeeds or fails, keeps the store and the tree in step. -/
theorem after (h : a.Stores t) (ht : t.Indexed) (call : Call) :
    (a.after call).Stores (t.after call) := by
  have hagree := h.agree_perform ht call
  rw [Arena.after, DirectiveTree.after]
  generalize a.perform call = answer, t.perform call = answer' at hagree ⊢
  cases hagree with
  | ok id stores => exact stores
  | error fault => exact h

end Stores

/-! Runs. -/

theorem run_concat (lineCount : Nat) (calls : List Call) (call : Call) :
    run lineCount (calls ++ [call]) = (run lineCount calls).after call := by
  rw [run, List.foldl_append]
  rfl

/-- After any calls the store holds what the tree computes. -/
theorem stores_run (lineCount : Nat) (calls : List Call) :
    (run lineCount calls).Stores (DirectiveTree.run lineCount calls) := by
  induction calls using List.reverseRecOn with
  | nil => exact stores_empty lineCount
  | append_singleton calls call ih =>
    rw [run_concat, DirectiveTree.run_concat]
    exact ih.after (DirectiveTree.indexed_run lineCount calls) call

theorem agree_run (lineCount : Nat) (calls : List Call) (call : Call) :
    (run lineCount calls).Agree ((run lineCount calls).perform call)
      ((DirectiveTree.run lineCount calls).perform call) :=
  (stores_run lineCount calls).agree_perform (DirectiveTree.indexed_run lineCount calls) call

theorem Agree.exists_ok_iff {answer : EStateM.Result InternalFault Arena Nat}
    {answer' : Except InternalFault (DirectiveTree × Nat)} (h : a.Agree answer answer') :
    (∃ b, answer = .ok id b) ↔ ∃ grown, answer' = .ok (grown, id) := by
  cases h <;> simp [and_comm]

theorem Agree.eq_of_error {fault : InternalFault}
    {answer' : Except InternalFault (DirectiveTree × Nat)} (h : a.Agree (.error fault b) answer') :
    b = a := by
  cases h
  rfl

/-- Node `id` has come with the given call, which followed the calls `before`. -/
structure Entered (lineCount : Nat) (calls before : List Call) (call : Call) (id : Nat) : Prop where
  place : before ++ [call] <+: calls
  answer : ∃ b, (run lineCount before).perform call = .ok id b

theorem entered_iff {calls before : List Call} {call : Call} :
    Entered lineCount calls before call id ↔
      DirectiveTree.Entered lineCount calls before call id := by
  have hanswer : (∃ b, (run lineCount before).perform call = .ok id b) ↔ _ :=
    (agree_run lineCount before call).exists_ok_iff
  exact ⟨fun h => ⟨h.place, hanswer.1 h.answer⟩, fun h => ⟨h.place, hanswer.2 h.answer⟩⟩

/-- A node and its parent are still what the call of the node has stored. -/
theorem Entered.getElem? {calls before : List Call} {call : Call}
    (h : Entered lineCount calls before call id) :
    (run lineCount calls).nodes[id]? =
        some (call.entry (DirectiveTree.run lineCount before)).directive ∧
      (run lineCount calls).parent? id =
        some (call.entry (DirectiveTree.run lineCount before)).parent := by
  have hstores := stores_run lineCount calls
  obtain ⟨i, rfl, he⟩ := (entered_iff.1 h).getElem?
  constructor
  · rw [hstores.getElem?_nodes, DirectiveTree.get?_succ, he, Option.map_some]
  · rw [hstores.parent?_eq, DirectiveTree.parent?_succ he]

/-- What a call needs to succeed. -/
def Allowed (a : Arena) : Call → Prop
  | .insert d => d.kind ≠ .root ∧ d.line < a.lineCount ∧ a.atLine? d.line = none
  | .attach owner d => ∃ compute, a.nodes[owner]? = some compute ∧ compute.kind.isCompute = true ∧
      compute.line = d.line ∧ compute.region = d.region

theorem Stores.allowed_iff (h : a.Stores t) (call : Call) : a.Allowed call ↔ call.Allowed t := by
  cases call with
  | insert d => simp only [Allowed, Call.Allowed, h.lineCount, h.index]
  | attach owner d =>
    simp only [Allowed, Call.Allowed, h.getElem?_nodes]
    constructor
    · rintro ⟨compute, hget, hfits⟩
      have hlt : owner < t.size := by
        rw [← h.getElem?_nodes] at hget
        exact h.length_nodes ▸ (List.getElem?_eq_some_iff.1 hget).1
      rw [DirectiveTree.get_eq hget]
      exact ⟨hlt, hfits⟩
    · rintro ⟨hlt, hfits⟩
      exact ⟨t.get owner, DirectiveTree.get?_eq_get hlt, hfits⟩

/-- What a store holds after the calls of a run. -/
structure WellFormed (lineCount : Nat) (calls : List Call) (a : Arena) : Prop where
  root : ∃ d, a.nodes[0]? = some d ∧ d.kind = .root ∧ d.region = some ⟨0, lineCount⟩ ∧
    a.parent? 0 = none
  parallel : a.parents.length = a.nodes.length ∧ a.children.length = a.nodes.length
  /-- Every node but the root has come with a call. -/
  entered : ∀ id, 0 < id → id < a.nodes.length →
    ∃ before call, Entered lineCount calls before call id
  /-- It stands once among the children of its parent, which is an older node, and nowhere else. -/
  parent : ∀ id, 0 < id → id < a.nodes.length → ∃ parent < id, a.parent? id = some parent ∧
    (a.childrenOf parent).count id = 1 ∧ ∀ other, other ≠ parent → id ∉ a.childrenOf other
  children : ∀ ids ∈ a.children, ids.Pairwise (· < ·) ∧
    ∀ child ∈ ids, 0 < child ∧ child < a.nodes.length
  /-- The index holds the inserted nodes, each under its line. -/
  index : ∀ line id, a.atLine? line = some id ↔
    ∃ before d, Entered lineCount calls before (.insert d) id ∧ d.line = line
  /-- An inserted node stands under what was nearest in the store of that time. -/
  nearest : ∀ before d id, Entered lineCount calls before (.insert d) id →
    a.nodes[id]? = some d ∧
      ∃ parent, a.parent? id = some parent ∧ (run lineCount before).Nearest d.line parent
  attached : ∀ before owner d id, Entered lineCount calls before (.attach owner d) id →
    a.nodes[id]? = some d ∧ a.parent? id = some owner
  /-- A call succeeds exactly if the store allows it. -/
  allowed : ∀ call, (∃ id b, a.perform call = .ok id b) ↔ a.Allowed call
  /-- A call that fails hands the store back as it was. -/
  unchanged : ∀ call fault b, a.perform call = .error fault b → b = a
  /-- The tree of the same calls computes what is stored. -/
  computed : a.Stores (DirectiveTree.run lineCount calls)

/-- Nodes, parents, children and index stay in step under any calls. -/
theorem wellFormed_run (lineCount : Nat) (calls : List Call) :
    WellFormed lineCount calls (run lineCount calls) := by
  have hstores := stores_run lineCount calls
  have hconsistent := DirectiveTree.consistent_run lineCount calls
  have hlength := hstores.length_nodes
  constructor
  case root =>
    refine ⟨.root lineCount, ?_, rfl, rfl, ?_⟩
    · rw [hstores.getElem?_nodes, hconsistent.root]
    · rw [hstores.parent?_eq, DirectiveTree.parent?_zero]
  case parallel =>
    rw [hlength, hstores.parents, hstores.children]
    simp
  case entered =>
    intro id hpos hid
    obtain ⟨before, call, hentered⟩ := hconsistent.entered id hpos (hlength ▸ hid)
    exact ⟨before, call, entered_iff.2 hentered⟩
  case parent =>
    intro id hpos hid
    obtain ⟨parent, hlt, hparent, hcount, hother⟩ := hconsistent.parent id hpos (hlength ▸ hid)
    refine ⟨parent, hlt, ?_, ?_, ?_⟩
    · rw [hstores.parent?_eq, hparent]
    · rwa [hstores.childrenOf_eq]
    · intro other hne
      rw [hstores.childrenOf_eq]
      exact hother other hne
  case children =>
    intro ids hids
    rw [hstores.children, List.mem_map] at hids
    obtain ⟨id, -, rfl⟩ := hids
    rw [hlength]
    exact hconsistent.children id
  case index =>
    intro line id
    simp only [hstores.index, hconsistent.index, entered_iff]
  case nearest =>
    intro before d id hentered
    obtain ⟨hnode, hparent⟩ := hentered.getElem?
    refine ⟨hnode, _, hparent, (stores_run lineCount before).nearest_iff.2 ?_⟩
    exact (DirectiveTree.indexed_run lineCount before).nearest_parentFor d.line
  case attached =>
    intro before owner d id hentered
    exact hentered.getElem?
  case allowed =>
    intro call
    rw [hstores.allowed_iff, ← hconsistent.allowed]
    have hanswer := agree_run lineCount calls call
    constructor
    · rintro ⟨id, b, hok⟩
      obtain ⟨grown, hgrown⟩ := hanswer.exists_ok_iff.1 ⟨b, hok⟩
      exact ⟨grown, id, hgrown⟩
    · rintro ⟨grown, id, hok⟩
      obtain ⟨b, hb⟩ := hanswer.exists_ok_iff.2 ⟨grown, hok⟩
      exact ⟨id, b, hb⟩
  case unchanged =>
    intro call fault b hfault
    have hanswer := agree_run lineCount calls call
    rw [hfault] at hanswer
    exact hanswer.eq_of_error
  case computed => exact hstores

end Arena
end Offload
