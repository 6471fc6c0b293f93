import Offload.Proofs.Enclosure
import Offload.Proofs.Soundness

/-!
Sizes of loops. A loop sets a size inside a `kernels` construct that leaves it open. This is checked
while the tree grows, against the directives that are around the annotation at that time; they stay
the ancestors of the node in the finished tree.
-/
namespace Offload

open Outcome

/-! The check of a size. -/

/-- The clause by which a construct sets the size that the value sets for a loop. -/
def Clause.sizeClause? : Clause → Option ClauseKind
  | .gang g => if g.num.isSome then some .numGangs else none
  | .worker count => if count.isSome then some .numWorkers else none
  | .vector length => if length.isSome then some .vectorLength else none
  | _ => none

namespace ClauseContext

variable {ctx : ClauseContext} {kind constructClause : ClauseKind} {argument : Option Text}
  {clause : Clause}

/-- The nearest construct around is a `kernels` construct that does not set the size. -/
def LeavesOpen (ctx : ClauseContext) (constructClause : ClauseKind) : Prop :=
  ∃ construct, ctx.constructAbove? = some construct ∧ construct.kind = .kernels ∧
    construct.clauses.contains constructClause = false

theorem leavesOpen_of_checkSize {text : Text} (hloop : ctx.kind = .loop)
    (h : ctx.checkSize kind constructClause text = .ok ()) : ctx.LeavesOpen constructClause := by
  unfold checkSize at h
  simp only [hloop, if_true] at h
  split at h
  · simp at h
  · next hfault =>
    unfold sizeFault? at hfault
    split at hfault
    · simp at hfault
    · next construct hconstruct =>
      split at hfault
      · simp at hfault
      · next hkernels =>
        split at hfault
        · simp at hfault
        · next hopen => exact ⟨construct, hconstruct, not_not.1 hkernels, by simpa using hopen⟩

theorem leavesOpen_of_size {modifier : Text} {n : UInt32} (hloop : ctx.kind = .loop)
    (h : ctx.size kind constructClause modifier argument = .ok (some n)) :
    ctx.LeavesOpen constructClause := by
  cases argument with
  | none => simp [size] at h
  | some text =>
    obtain ⟨_, -, h⟩ := bind_eq_ok.1 h
    obtain ⟨_, -, h⟩ := bind_eq_ok.1 h
    obtain ⟨_, hcheck, -⟩ := bind_eq_ok.1 h
    exact leavesOpen_of_checkSize hloop hcheck

theorem leavesOpen_of_gang {g : Gang} (hloop : ctx.kind = .loop) (h : ctx.gang argument = .ok g)
    (hnum : g.num.isSome = true) : ctx.LeavesOpen .numGangs := by
  cases argument with
  | none =>
    obtain rfl := Except.ok.inj h
    simp at hnum
  | some text => exact leavesOpen_of_checkSize hloop ((gang_eq_ok h).2 hnum)

theorem leavesOpen_of_read (hloop : ctx.kind = .loop) (h : ctx.read kind argument = .ok clause)
    (hsize : clause.sizeClause? = some constructClause) : ctx.LeavesOpen constructClause := by
  have hfits := fits_of_read h
  cases hfits with
  | @gang g _ =>
    obtain ⟨g', hgang, hg⟩ := map_eq_ok.1 h
    obtain rfl := Clause.gang.inj hg
    obtain ⟨hnum, rfl⟩ : g'.num.isSome = true ∧ .numGangs = constructClause := by
      simpa [Clause.sizeClause?] using hsize
    exact leavesOpen_of_gang hloop hgang hnum
  | @worker count _ =>
    obtain ⟨count', hcount, hw⟩ := map_eq_ok.1 h
    obtain rfl := Clause.worker.inj hw
    obtain ⟨hsome, rfl⟩ : count'.isSome = true ∧ .numWorkers = constructClause := by
      simpa [Clause.sizeClause?] using hsize
    obtain ⟨n, rfl⟩ := Option.isSome_iff_exists.1 hsome
    exact leavesOpen_of_size hloop hcount
  | @vector length _ =>
    obtain ⟨length', hlength, hv⟩ := map_eq_ok.1 h
    obtain rfl := Clause.vector.inj hv
    obtain ⟨hsome, rfl⟩ : length'.isSome = true ∧ .vectorLength = constructClause := by
      simpa [Clause.sizeClause?] using hsize
    obtain ⟨n, rfl⟩ := Option.isSome_iff_exists.1 hsome
    exact leavesOpen_of_size hloop hlength
  | _ => simp [Clause.sizeClause?] at hsize

/-- A size in a set of clauses was checked, since no joined value holds a size. -/
theorem leavesOpen_of_readAll {tokens : List Text} {set : ClauseSet} (hloop : ctx.kind = .loop)
    (h : (ctx.readAll tokens).outcome = .ok set) (hget : set.get? kind = some clause)
    (hsize : clause.sizeClause? = some constructClause) : ctx.LeavesOpen constructClause := by
  refine forall_of_readAll
    (P := fun _ clause => ∀ c, clause.sizeClause? = some c → ctx.LeavesOpen c) ?_ ?_ h kind clause
    hget constructClause hsize
  · intro kind argument clause _ hread c hc
    exact leavesOpen_of_read hloop hread hc
  · intro kind a b m _ _ _ hm c hc
    rcases Clause.merge?_cases hm with ⟨_, _, -, -, rfl⟩ | ⟨_, _, -, -, rfl⟩ | ⟨_, _, -, -, rfl⟩ |
      ⟨_, _, -, -, rfl⟩ <;> simp [Clause.sizeClause?] at hc

end ClauseContext

/-! The directives around a node. -/

namespace DirectiveTree

variable {t : DirectiveTree} {id i : Nat} {d : Directive} {half : Option Directive}

/-- The directives around a node, from the nearest outwards. -/
def around (t : DirectiveTree) (id : Nat) : List Directive := (t.ancestors id).map t.get

theorem lt_size_of_mem_ancestors {a : Nat} (h : a ∈ t.ancestors id) : a < t.size := by
  obtain ⟨parent, hp, -⟩ := mem_ancestors_iff.1 h
  obtain ⟨i, e, rfl, he, -⟩ := exists_entry hp
  have hi := (List.getElem?_eq_some_iff.1 he).1
  have ha := lt_of_mem_ancestors h
  unfold size
  omega

/-- The nearest construct around a node, by its number and by itself. -/
theorem find?_around (t : DirectiveTree) (id : Nat) :
    (t.around id).find? (·.kind.isCompute) = (t.constructAbove? id).bind t.get? := by
  have hmap : (t.around id).find? (·.kind.isCompute) = (t.constructAbove? id).map t.get :=
    List.find?_map
  rw [hmap]
  cases h : t.constructAbove? id with
  | none => rfl
  | some a =>
    have ha := lt_size_of_mem_ancestors (List.mem_of_find?_eq_some h)
    rw [Option.map_some, Option.bind_some, get?_eq_get ha]

theorem getElem?_graft (h : i < t.entries.length) :
    (t.graft d half).entries[i]? = t.entries[i]? := by
  rw [entries_graft, List.getElem?_append_left h]

theorem parent?_graft (h : id ≤ t.entries.length) : (t.graft d half).parent? id = t.parent? id := by
  cases id with
  | zero => rfl
  | succ i => rw [parent?, parent?, getElem?_graft h]

theorem get_graft (h : id ≤ t.entries.length) : (t.graft d half).get id = t.get id := by
  have hroot : (t.graft d half).root = t.root := by rw [root, root, lineCount_graft]
  cases id with
  | zero => exact hroot
  | succ i => rw [get, get, hroot, get?_succ, get?_succ, getElem?_graft h]

theorem ancestors_graft (h : id ≤ t.entries.length) :
    (t.graft d half).ancestors id = t.ancestors id :=
  ancestors_congr fun _ hi => parent?_graft (Nat.le_trans hi h)

theorem around_graft (h : id ≤ t.entries.length) : (t.graft d half).around id = t.around id := by
  unfold around
  rw [ancestors_graft h]
  apply List.map_congr_left
  intro a ha
  have hlt := lt_of_mem_ancestors ha
  exact get_graft (by omega)

theorem around_of_parent? {parent : Nat} (h : t.parent? id = some parent) :
    t.around id = t.get parent :: t.around parent := by
  rw [around, ancestors_of_parent? h]
  rfl

theorem getElem?_graft_self :
    (t.graft d half).entries[t.entries.length]? = some ⟨d, t.parentFor d.line, false⟩ := by
  simp [scions]

/-- A new node stands amid the directives that its line selects. -/
theorem around_graft_self :
    (t.graft d half).around (t.entries.length + 1) = (t.ancestorsAt d.line).map t.get := by
  have hle := t.parentFor_le d.line
  rw [around_of_parent? (parent?_succ getElem?_graft_self), get_graft hle, around_graft hle]
  rfl

/-- The loop half stands amid the same ones and its construct. -/
theorem around_graft_half {loop : Directive} :
    (t.graft d (some loop)).around (t.entries.length + 2) =
      d :: (t.ancestorsAt d.line).map t.get := by
  have hloop : (t.graft d (some loop)).entries[t.entries.length + 1]? =
      some ⟨loop, t.entries.length + 1, true⟩ := by
    simp [scions]
  rw [around_of_parent? (parent?_succ hloop), get_succ getElem?_graft_self, around_graft_self]

/-! The construct of a node, as asked for in the finished tree. -/

theorem Grown.atLine?_eq (h : t.Grown) {e : TreeEntry} (he : t.entries[i]? = some e)
    (ha : e.attached = false) : t.atLine? e.directive.line = some (i + 1) := by
  cases hfound : t.atLine? e.directive.line with
  | none =>
    simp only [atLine?, Option.map_eq_none_iff, List.find?_eq_none] at hfound
    have hnot := hfound (e, i + 1) (mem_numbered.2 ⟨i, rfl, he⟩)
    simp [ha] at hnot
  | some id =>
    simp only [atLine?, Option.map_eq_some_iff] at hfound
    obtain ⟨⟨e', id⟩, hfound, rfl⟩ := hfound
    obtain ⟨j, rfl, hj⟩ := mem_numbered.1 (List.mem_of_find?_eq_some hfound)
    have hp := List.find?_some hfound
    simp only [Bool.and_eq_true, Bool.not_eq_true', beq_iff_eq] at hp
    have hij := h.eq_of_line_eq hj he hp.1 ha hp.2
    simp [hij]

/-- A directive belongs to the nearest construct above its node. For a loop half this is the other
half, to which it is attached. -/
theorem Grown.constructOf?_eq (h : t.Grown) {e : TreeEntry} (he : t.entries[i]? = some e)
    (hfused : e.attached = false → e.directive.fused = true → e.directive.kind.isCompute = true) :
    t.constructOf? e.directive = t.constructAbove? (i + 1) := by
  unfold constructOf?
  cases ha : e.attached with
  | false =>
    have hwhole : (e.directive.fused && !e.directive.kind.isCompute) = false := by
      cases hf : e.directive.fused with
      | false => rfl
      | true => simp [hfused ha hf]
    rw [hwhole, h.atLine?_eq he ha]
    rfl
  | true =>
    obtain ⟨j, owner, -, hparent, howner, hnew, hhalves⟩ := h.attached he ha
    have hhalf : (e.directive.fused && !e.directive.kind.isCompute) = true := by
      simp [hhalves.half_fused, hhalves.loop, DirectiveKind.isCompute]
    have hcompute : (t.get (j + 1)).kind.isCompute = true := by
      rw [get_succ howner]
      exact hhalves.compute
    have habove := ancestors_of_parent? (parent?_succ he)
    rw [hparent] at habove
    rw [hhalf, if_pos rfl, hhalves.line, h.atLine?_eq howner hnew, constructAbove?, habove]
    exact (List.find?_cons_of_pos (p := fun a => (t.get a).kind.isCompute) hcompute).symm

end DirectiveTree

/-! How the nodes of a tree were read. -/

theorem PragmaLine.clauses_of_directives {config : Config} {s : Source} {a : PragmaLine}
    {around : List Directive} {d : Directive} {half : Option Directive}
    (h : (a.directives config s around).outcome = .ok (d, half)) :
    (d.fused = true → d.kind.isCompute = true) ∧
      (∃ tokens, (readClauses s d around tokens).outcome = .ok d.clauses) ∧
      ∀ loop ∈ half,
        ∃ tokens, (readClauses s loop (d :: around) tokens).outcome = .ok loop.clauses := by
  simp only [directives, Logged.outcome_bind, Logged.outcome_lift, Logged.outcome_log, ok_bind] at h
  obtain ⟨p, hp, h⟩ := bind_eq_ok.1 h
  obtain ⟨found, -, h⟩ := bind_eq_ok.1 h
  have hcompute := (Pragma.kind_of_read (mapError_eq_ok.1 hp)).2
  split at h
  · simp only [Logged.outcome_bind, Logged.outcome_pure] at h
    obtain ⟨clauses, hclauses, h⟩ := bind_eq_ok.1 h
    obtain ⟨loopClauses, hloop, h⟩ := bind_eq_ok.1 h
    simp only [Except.ok.injEq, Prod.mk.injEq] at h
    obtain ⟨rfl, rfl⟩ := h
    refine ⟨hcompute, ⟨_, hclauses⟩, ?_⟩
    intro loop hmem
    obtain rfl := Option.some.inj hmem
    exact ⟨_, hloop⟩
  · simp only [Logged.outcome_bind, Logged.outcome_pure] at h
    obtain ⟨clauses, hclauses, h⟩ := bind_eq_ok.1 h
    simp only [Except.ok.injEq, Prod.mk.injEq] at h
    obtain ⟨rfl, rfl⟩ := h
    exact ⟨hcompute, ⟨_, hclauses⟩, by simp⟩

/-- A directive was read amid others before it was in the tree: when the annotations up to its own
had made the tree in which its number is the next one to be given. -/
inductive ReadAmid (config : Config) (s : Source) : Nat → Directive → List Directive → Prop
  | whole {earlier later : List PragmaLine} {a : PragmaLine} {t : DirectiveTree} {d : Directive}
      {half : Option Directive} {tokens : List Text}
      (scan : PragmaLine.scan config.framework s = earlier ++ a :: later)
      (tree : earlier.foldlM (fun t a => (a.addTo config s t).outcome) (.empty s.size) = .ok t)
      (directives :
        (a.directives config s ((t.ancestorsAt a.line).map t.get)).outcome = .ok (d, half))
      (clauses : (PragmaLine.readClauses s d ((t.ancestorsAt a.line).map t.get) tokens).outcome =
        .ok d.clauses) :
      ReadAmid config s t.size d ((t.ancestorsAt a.line).map t.get)
  | half {earlier later : List PragmaLine} {a : PragmaLine} {t : DirectiveTree} {d loop : Directive}
      {tokens : List Text}
      (scan : PragmaLine.scan config.framework s = earlier ++ a :: later)
      (tree : earlier.foldlM (fun t a => (a.addTo config s t).outcome) (.empty s.size) = .ok t)
      (directives :
        (a.directives config s ((t.ancestorsAt a.line).map t.get)).outcome = .ok (d, some loop))
      (clauses :
        (PragmaLine.readClauses s loop (d :: (t.ancestorsAt a.line).map t.get) tokens).outcome =
          .ok loop.clauses) :
      ReadAmid config s (t.size + 1) loop (d :: (t.ancestorsAt a.line).map t.get)

theorem ReadAmid.exists_readAll {config : Config} {s : Source} {id : Nat} {d : Directive}
    {around : List Directive} (h : ReadAmid config s id d around) :
    ∃ tokens, (PragmaLine.readClauses s d around tokens).outcome = .ok d.clauses := by
  cases h with
  | whole _ _ _ clauses => exact ⟨_, clauses⟩
  | half _ _ _ clauses => exact ⟨_, clauses⟩

/-- A growing tree whose nodes were read amid the directives that are around them now. -/
structure Recorded (config : Config) (s : Source) (rest : List PragmaLine) (t : DirectiveTree) :
    Prop extends Growing config s rest t where
  grew : ∃ earlier, PragmaLine.scan config.framework s = earlier ++ rest ∧
    earlier.foldlM (fun t a => (a.addTo config s t).outcome) (.empty s.size) = .ok t
  read : ∀ {i : Nat} {e : TreeEntry}, t.entries[i]? = some e →
    ReadAmid config s (i + 1) e.directive (t.around (i + 1))
  fused : ∀ {i : Nat} {e : TreeEntry}, t.entries[i]? = some e → e.attached = false →
    e.directive.fused = true → e.directive.kind.isCompute = true

namespace Recorded

variable {config : Config} {s : Source} {t : DirectiveTree}

theorem start (config : Config) (s : Source) :
    Recorded config s (PragmaLine.scan config.framework s) (.empty s.size) where
  toGrowing := .start config s
  grew := ⟨[], rfl, rfl⟩
  read := by simp [DirectiveTree.empty]
  fused := by simp [DirectiveTree.empty]

theorem step (a : PragmaLine) (rest : List PragmaLine) (t t' : DirectiveTree)
    (h : Recorded config s (a :: rest) t) (ht : (a.addTo config s t).outcome = .ok t') :
    Recorded config s rest t' := by
  have hgrowing := h.toGrowing.step a rest t t' ht
  obtain ⟨earlier, hscan, hfold⟩ := h.grew
  have hgrew : (earlier ++ [a]).foldlM (fun t a => (a.addTo config s t).outcome) (.empty s.size) =
      .ok t' := by
    rw [List.foldlM_append, hfold]
    simpa using ht
  rw [h.addTo_outcome, map_eq_ok] at ht
  obtain ⟨⟨d, half⟩, hd, rfl⟩ := ht
  have hline := (PragmaLine.contributes_of_directives hd).line
  obtain ⟨hfused, ⟨tokens, hclauses⟩, hloops⟩ := PragmaLine.clauses_of_directives hd
  refine ⟨hgrowing, ⟨earlier ++ [a], by simp [hscan], hgrew⟩, ?_, ?_⟩
  · intro i e he
    rcases DirectiveTree.entries_graft_cases he with he | ⟨rfl, rfl⟩ | ⟨rfl, loop, rfl, rfl⟩
    · have hi := (List.getElem?_eq_some_iff.1 he).1
      rw [DirectiveTree.around_graft hi]
      exact h.read he
    · rw [DirectiveTree.around_graft_self, hline]
      exact .whole hscan hfold hd hclauses
    · obtain ⟨loopTokens, hloop⟩ := hloops loop rfl
      rw [DirectiveTree.around_graft_half, hline]
      exact .half hscan hfold hd hloop
  · intro i e he ha
    rcases DirectiveTree.entries_graft_cases he with he | ⟨-, rfl⟩ | ⟨-, loop, -, rfl⟩
    · exact h.fused he ha
    · exact hfused
    · simp at ha

end Recorded

theorem recorded_of_growTree {config : Config} {s : Source} {t : DirectiveTree}
    (h : growTree config s = .ok t) : Recorded config s [] t :=
  foldlM_ok (Recorded config s) Recorded.step (.start config s) h

namespace DirectiveTree

/-- The directive belongs to a `kernels` construct that does not have the clause. -/
def InOpenKernels (t : DirectiveTree) (d : Directive) (constructClause : ClauseKind) : Prop :=
  ∃ k construct, t.constructOf? d = some k ∧ t.get? k = some construct ∧
    construct.kind = .kernels ∧ construct.clauses.contains constructClause = false

variable {config : Config} {s : Source} {t : DirectiveTree} {loop : Directive}

theorem inOpenKernels_of_readAmid {id : Nat} {around : List Directive} {kind c : ClauseKind}
    {clause : Clause} (h : ReadAmid config s id loop around)
    (haround : around.find? (·.kind.isCompute) = (t.constructOf? loop).bind t.get?)
    (hloop : loop.kind = .loop) (hget : loop.clauses.get? kind = some clause)
    (hsize : clause.sizeClause? = some c) : t.InOpenKernels loop c := by
  obtain ⟨tokens, hread⟩ := h.exists_readAll
  obtain ⟨construct, habove, hkernels, hopen⟩ :=
    ClauseContext.leavesOpen_of_readAll hloop hread hget hsize
  have hfound : (t.constructOf? loop).bind t.get? = some construct := haround.symm.trans habove
  obtain ⟨k, hk, hconstruct⟩ := Option.bind_eq_some_iff.1 hfound
  exact ⟨k, construct, hk, hconstruct, hkernels, hopen⟩

end DirectiveTree

namespace ClauseSet

variable {set : ClauseSet}

theorem get?_of_worker? {count : Option UInt32} (h : set.worker? = some count) :
    set.get? .worker = some (.worker count) := by
  unfold worker? at h
  split at h <;> simp_all

theorem get?_of_vector? {length : Option UInt32} (h : set.vector? = some length) :
    set.get? .vector = some (.vector length) := by
  unfold vector? at h
  split at h <;> simp_all

theorem get?_of_gang? {g : Gang} (h : set.gang? = some g) : set.get? .gang = some (.gang g) := by
  unfold gang? at h
  split at h <;> simp_all

end ClauseSet

/-- A loop of a finished tree sets a size only inside a `kernels` construct that leaves it open, and
the construct around it when its clauses were read is the one that the tree gives. -/
theorem sized_loop_in_kernels {config : Config} {s : Source} {tree : DirectiveTree}
    (h : (parseDirectives config s).outcome = .ok tree) {id : Nat} {loop : Directive}
    (hget : tree.get? id = some loop) (hloop : loop.kind = .loop) :
    (∀ n, loop.clauses.worker? = some (some n) → tree.InOpenKernels loop .numWorkers) ∧
      (∀ n, loop.clauses.vector? = some (some n) → tree.InOpenKernels loop .vectorLength) ∧
      (∀ g n, loop.clauses.gang? = some g → g.num = some n →
        tree.InOpenKernels loop .numGangs) ∧
      ∃ around, ReadAmid config s id loop around ∧
        around.find? (·.kind.isCompute) = (tree.constructOf? loop).bind tree.get? := by
  have hrecorded := recorded_of_growTree (exists_growTree_of_parseDirectives h).1
  cases id with
  | zero =>
    obtain rfl := Option.some.inj hget
    exact absurd hloop (by simp [DirectiveTree.root, Directive.root])
  | succ i =>
    rw [DirectiveTree.get?_succ, Option.map_eq_some_iff] at hget
    obtain ⟨e, he, rfl⟩ := hget
    have hread := hrecorded.read he
    have haround : (tree.around (i + 1)).find? (·.kind.isCompute) =
        (tree.constructOf? e.directive).bind tree.get? := by
      rw [hrecorded.grown.constructOf?_eq he (hrecorded.fused he)]
      exact tree.find?_around (i + 1)
    refine ⟨?_, ?_, ?_, _, hread, haround⟩
    · intro n hn
      exact DirectiveTree.inOpenKernels_of_readAmid hread haround hloop
        (ClauseSet.get?_of_worker? hn) rfl
    · intro n hn
      exact DirectiveTree.inOpenKernels_of_readAmid hread haround hloop
        (ClauseSet.get?_of_vector? hn) rfl
    · intro g n hg hn
      exact DirectiveTree.inOpenKernels_of_readAmid hread haround hloop
        (ClauseSet.get?_of_gang? hg) (by simp [Clause.sizeClause?, hn])

/-- A loop inside a block of `kernels`, and a loop fused with one. -/
def sizedSource : Text :=
  Text.unlines ["# acc kernels vector_length(8)", "#\x7b", "# acc loop worker(4)", "for i in x:",
    "    f(i)", "#\x7d", "# acc kernels loop gang(2)", "for j in y:", "    f(j)"]

theorem sizedSource_in_kernels :
    ∃ tree, (parseDirectives {} (.ofText Source.defaultTabWidth sizedSource)).outcome = .ok tree ∧
      tree.InOpenKernels (tree.get 2) .numWorkers ∧ tree.InOpenKernels (tree.get 4) .numGangs := by
  have hcheck : ((parseDirectives {}
      (.ofText Source.defaultTabWidth sizedSource)).outcome.toOption.any fun t =>
        t.size == 5 && (t.get 2).kind == .loop && (t.get 4).kind == .loop &&
        (t.get 2).clauses.worker? == some (some 4) &&
        (t.get 4).clauses.gang? == some { num := some (.literal 2) }) = true := by
    decide +kernel
  obtain ⟨tree, htree, hp⟩ := exists_of_any hcheck
  simp only [Bool.and_eq_true, beq_iff_eq] at hp
  obtain ⟨⟨⟨⟨hsize, hinner⟩, hhalf⟩, hworker⟩, hgang⟩ := hp
  have hget : ∀ id < 5, tree.get? id = some (tree.get id) := fun id hid =>
    DirectiveTree.get?_eq_get (hsize ▸ hid)
  refine ⟨tree, htree, ?_, ?_⟩
  · exact (sized_loop_in_kernels htree (hget 2 (by decide)) hinner).1 4 hworker
  · exact (sized_loop_in_kernels htree (hget 4 (by decide)) hhalf).2.2.1 _ _ hgang rfl

end Offload
