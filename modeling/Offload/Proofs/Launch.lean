import Offload.Proofs.Argument
import Offload.Proofs.Dispatch
import Offload.Proofs.Kernel
import Offload.Proofs.Supply

/-!
Launches against the kernels that they run. The entry launches each kernel once, by a name that no
other kernel has, with the variables that the kernel captures; whatever module or lock the generated
code refers to is there.
-/
namespace Offload

open Outcome

theorem Text.decimal_injective {m n : Nat} (h : decimal m = decimal n) : m = n := by
  rw [← digitsValue_decimal m, h, digitsValue_decimal]

namespace Identifier

theorem isIdentifier_takeWhile {c : Char} (hc : isStart c = true) (cs : Text) :
    isIdentifier (c :: cs.takeWhile isXidContinue) = true := by
  rw [isIdentifier, hc, Bool.true_and]
  exact List.all_takeWhile

/-- What is found is an identifier and no reserved word. -/
theorem name_of_mem_occurrencesFrom {afterDot : Bool} {t name : Text}
    (h : name ∈ occurrencesFrom afterDot t) :
    isIdentifier name = true ∧ isKeyword name = false := by
  fun_induction occurrencesFrom afterDot t with
  | case1 => simp at h
  | case6 afterDot c cs _ _ hstart word rest hplain hfree ih =>
    rcases List.mem_cons.1 h with rfl | h
    · rw [Bool.or_eq_true, not_or, Bool.not_eq_true, Bool.not_eq_true] at hfree
      exact ⟨isIdentifier_takeWhile hstart cs, hfree.2⟩
    · exact ih h
  | _ => rename_i ih; exact ih h

end Identifier

theorem NameSet.nodup (s : NameSet) : s.names.Nodup := by
  refine s.ordered.imp fun {a b} hbefore => ?_
  rintro rfl
  simp [Text.before_irrefl] at hbefore

namespace DirectiveTree

variable {t : DirectiveTree}

/-- The entry that was inserted for the line of an entry: itself, or the construct whose half it
is. -/
theorem Grown.exists_owner_line (h : t.Grown) {i : Nat} {e : TreeEntry}
    (he : t.entries[i]? = some e) : ∃ j owner, t.entries[j]? = some owner ∧
      owner.attached = false ∧ owner.directive.line = e.directive.line ∧
      (e.attached = false ∧ j = i ∧ owner = e ∨
        e.attached = true ∧ i = j + 1 ∧ owner.directive.kind.isCompute = true) := by
  cases hattached : e.attached with
  | false => exact ⟨i, e, he, hattached, rfl, .inl ⟨rfl, rfl, rfl⟩⟩
  | true =>
    obtain ⟨j, owner, hi, -, howner, hinserted, hhalves⟩ := h.attached he hattached
    exact ⟨j, owner, howner, hinserted, hhalves.line.symm, .inr ⟨rfl, hi, hhalves.compute⟩⟩

/-- A line has one loop directive at most: what stands beside a loop half is its construct. -/
theorem Grown.eq_of_loop_line (h : t.Grown) {i j : Nat} {e e' : TreeEntry}
    (he : t.entries[i]? = some e) (he' : t.entries[j]? = some e') (hloop : e.directive.kind = .loop)
    (hloop' : e'.directive.kind = .loop) (hline : e.directive.line = e'.directive.line) :
    i = j := by
  obtain ⟨k, owner, howner, hinserted, hk, hcases⟩ := h.exists_owner_line he
  obtain ⟨k', owner', howner', hinserted', hk', hcases'⟩ := h.exists_owner_line he'
  obtain rfl : k = k' := by
    apply h.eq_of_line_eq howner howner' hinserted hinserted'
    rw [hk, hk', hline]
  obtain rfl : owner = owner' := Option.some.inj (howner.symm.trans howner')
  have hnone : DirectiveKind.isCompute .loop = false := by decide
  rcases hcases with ⟨-, rfl, rfl⟩ | ⟨-, rfl, hcompute⟩ <;>
    rcases hcases' with ⟨-, rfl, rfl⟩ | ⟨-, rfl, hcompute'⟩
  · rfl
  · simp [hloop, hnone] at hcompute'
  · simp [hloop', hnone] at hcompute
  · rfl

theorem exists_entry_of_mem_breadthFirst {id : Nat} (h : id ∈ t.breadthFirst) :
    ∃ i e, id = i + 1 ∧ t.entries[i]? = some e ∧ t.get id = e.directive := by
  obtain ⟨hpos, hsize⟩ := mem_breadthFirst_iff.1 h
  obtain ⟨parent, hparent⟩ := exists_parent? hpos hsize
  obtain ⟨i, e, rfl, he, -⟩ := exists_entry hparent
  exact ⟨i, e, rfl, he, get_succ he⟩

/-- The loops of a tree, in the order in which they are generated. -/
def loops (t : DirectiveTree) (ids : List Nat) : List Directive :=
  (ids.map t.get).filter (·.kind == .loop)

theorem Grown.nodup_loop_lines (h : t.Grown) :
    ((t.loops t.breadthFirst).map Directive.line).Nodup := by
  rw [loops, List.filter_map, List.map_map]
  have hnodup : t.breadthFirst.Nodup := t.pairwise_precedes_breadthFirst.imp Precedes.ne
  refine List.Nodup.map_on ?_ (hnodup.filter _)
  intro a ha b hb hline
  obtain ⟨ha, hloop⟩ := List.mem_filter.1 ha
  obtain ⟨hb, hloop'⟩ := List.mem_filter.1 hb
  obtain ⟨i, e, rfl, he, hget⟩ := exists_entry_of_mem_breadthFirst ha
  obtain ⟨j, e', rfl, he', hget'⟩ := exists_entry_of_mem_breadthFirst hb
  simp only [Function.comp_apply, hget, hget', beq_iff_eq] at hloop hloop' hline
  rw [h.eq_of_loop_line he he' hloop hloop' hline]

theorem mem_toList_of_mem_loops {d : Directive} (h : d ∈ t.loops t.breadthFirst) :
    d ∈ t.toList ∧ d.kind = .loop := by
  obtain ⟨hmem, hkind⟩ := List.mem_filter.1 h
  obtain ⟨id, hid, rfl⟩ := List.mem_map.1 hmem
  obtain ⟨i, e, rfl, he, hget⟩ := exists_entry_of_mem_breadthFirst hid
  rw [hget] at hkind ⊢
  refine ⟨List.mem_cons_of_mem _ ?_, by simpa using hkind⟩
  exact List.mem_map_of_mem (List.mem_of_getElem? he)

end DirectiveTree

namespace Host

/-! The kernels of a unit. -/

def Change.launched? : Change → Option Kernel
  | moved _ kernel _ => some kernel
  | locked _ => none

def Part.change? : Part → Option Change
  | line _ => none
  | changed c => some c

/-- The kernels that changes add, in the order in which they are defined. -/
def kernelsOf (changes : List Change) : List Kernel := changes.filterMap Change.launched?

/-- The kernels that parts of the code launch, in the order of their lines. -/
def launchesOf (parts : List Part) : List Kernel := kernelsOf (parts.filterMap Part.change?)

section

variable {fallback gangs : Nat} {tree : DirectiveTree} {target : Target} {nest : LoopNest}
  {kernel : Kernel} {d : Directive} {ids : List Nat} {changes : List Change} {span : Span}

theorem filterMap_kernel? (changes : List Change) :
    changes.filterMap Change.kernel? = (kernelsOf changes).map Kernel.render := by
  rw [kernelsOf, List.map_filterMap]
  congr 1
  funext c
  cases c <;> rfl

theorem mem_kernelsOf :
    kernel ∈ kernelsOf changes ↔ ∃ nest gangs, .moved nest kernel gangs ∈ changes := by
  rw [kernelsOf, List.mem_filterMap]
  constructor
  · rintro ⟨c, hc, hkernel⟩
    cases c with
    | moved nest other gangs =>
      obtain rfl := Option.some.inj hkernel
      exact ⟨nest, gangs, hc⟩
    | locked region => cases hkernel
  · rintro ⟨nest, gangs, hmoved⟩
    exact ⟨_, hmoved, rfl⟩

theorem kind_of_change? (h : change? fallback d tree target = some (.moved nest kernel gangs)) :
    d.kind = .loop := by
  obtain ⟨region, hkind, -, -⟩ := exists_loop_of_change? h
  exact hkind

theorem line_of_change? (h : change? fallback d tree target = some (.moved nest kernel gangs)) :
    kernel.line = d.line := by
  obtain ⟨region, hmade⟩ := exists_made_of_change? h
  obtain ⟨body, -, hkernel⟩ := kernelOf_eq_ok.1 hmade.kernel
  rw [← hkernel]

/-- The kernel of a change is named for the line of its loop. -/
theorem sublist_of_change? (fallback : Nat) (d : Directive) (tree : DirectiveTree)
    (target : Target) :
    ((kernelsOf (change? fallback d tree target).toList).map Kernel.line).Sublist
      (([d].filter (·.kind == .loop)).map Directive.line) := by
  cases hchange : change? fallback d tree target with
  | none => exact List.nil_sublist _
  | some c =>
    cases c with
    | moved nest kernel gangs =>
      have hkind := kind_of_change? hchange
      have hline := line_of_change? hchange
      simp [kernelsOf, Change.launched?, hkind, hline]
    | locked region => exact List.nil_sublist _

theorem sublist_kernel_lines (fallback : Nat) (tree : DirectiveTree) (target : Target)
    (ids : List Nat) :
    ((kernelsOf (changesFrom fallback tree target ids)).map Kernel.line).Sublist
      ((tree.loops ids).map Directive.line) := by
  induction ids generalizing target with
  | nil => exact List.nil_sublist _
  | cons id ids ih =>
    rw [changesFrom]
    split
    · next next hnext =>
      have hfirst := sublist_of_change? fallback (tree.get id) tree target
      have hsplit : tree.loops (id :: ids) =
          [tree.get id].filter (·.kind == .loop) ++ tree.loops ids := by
        rw [DirectiveTree.loops, List.map_cons, ← List.singleton_append, List.filter_append]
        rfl
      rw [kernelsOf, List.filterMap_append, List.map_append, hsplit, List.map_append]
      exact hfirst.append (ih next)
    · exact List.nil_sublist _

theorem nodup_starts {body : PatchedBody} {s : Source} (h : body.Sound)
    (hpatches : body.patches = changes.map (Change.patch s)) :
    (changes.map fun c => c.span.start).Nodup := by
  have hapart := h.apart
  rw [hpatches, List.pairwise_map] at hapart
  refine List.pairwise_map.2 (hapart.imp_of_mem fun {c c'} hc hc' hcc => ?_)
  have hsolid := h.contains_start (hpatches ▸ List.mem_map_of_mem hc)
  have hsolid' := h.contains_start (hpatches ▸ List.mem_map_of_mem hc')
  intro hstart
  have hfree := hcc _ hsolid
  simp only [Change.span_patch] at hfree hsolid'
  rw [hstart, hsolid'] at hfree
  exact absurd hfree (by decide)

theorem find?_start_eq_some (h : (changes.map fun c => c.span.start).Nodup) {c : Change} {l : Nat} :
    changes.find? (·.span.start == l) = some c ↔ c ∈ changes ∧ c.span.start = l := by
  constructor
  · intro hfind
    exact ⟨List.mem_of_find?_eq_some hfind, by simpa using List.find?_some hfind⟩
  · rintro ⟨hc, rfl⟩
    cases hfind : changes.find? (·.span.start == c.span.start) with
    | none => simpa using List.find?_eq_none.1 hfind c hc
    | some other =>
      have hstart : other.span.start = c.span.start := by simpa using List.find?_some hfind
      rw [List.inj_on_of_nodup_map h (List.mem_of_find?_eq_some hfind) hc hstart]

/-- A body from patching shows each of its changes once. -/
theorem perm_changes_bodyParts {body : PatchedBody} {s : Source} (h : body.Sound)
    (hpatches : body.patches = changes.map (Change.patch s)) :
    ((bodyParts body.span changes).filterMap Part.change?).Perm changes := by
  have hstarts := nodup_starts h hpatches
  have hflat : (bodyParts body.span changes).filterMap Part.change? =
      (List.range' body.span.start body.span.length).flatMap fun l =>
        (changes.find? (·.span.start == l)).toList := by
    rw [bodyParts, List.filterMap_flatMap]
    congr 1
    funext l
    split
    · next c hfind => simp [hfind, Part.change?]
    · next hfind =>
      rw [hfind]
      split <;> simp [Part.change?]
  rw [hflat]
  refine (List.perm_ext_iff_of_nodup ?_ hstarts.of_map).2 fun c => ?_
  · refine List.nodup_flatMap.2 ⟨fun l _ => ?_, ?_⟩
    · cases changes.find? (·.span.start == l) <;> simp
    · have hlines : (List.range' body.span.start body.span.length).Nodup := List.nodup_range'
      refine hlines.imp fun {l l'} hne c hc hc' => hne ?_
      obtain ⟨-, hl⟩ := (find?_start_eq_some hstarts).1 (Option.mem_toList.1 hc)
      obtain ⟨-, hl'⟩ := (find?_start_eq_some hstarts).1 (Option.mem_toList.1 hc')
      exact hl.symm.trans hl'
  · simp only [List.mem_flatMap, Option.mem_toList, find?_start_eq_some hstarts]
    constructor
    · rintro ⟨l, -, hc, -⟩
      exact hc
    · intro hc
      have hmem : c.patch s ∈ body.patches := hpatches ▸ List.mem_map_of_mem hc
      have hsolid := h.solid _ hmem
      have hinside := Span.encloses_iff.1 (h.inside _ hmem)
      rw [Change.span_patch] at hsolid hinside
      refine ⟨c.span.start, List.mem_range'_1.2 ?_, hc, rfl⟩
      unfold Span.length
      omega

end

/-! The text of launches. -/

/-- The text opens with the head of a function. -/
def Defines (text name : Text) (parameters : List Text) : Prop :=
  ∃ rest : Text, text = "def " ++ name ++ "(" ++ Text.join ", " parameters ++ ")" ++ ":\n" ++ rest

/-- An expression for a function of which the first arguments are given. -/
inductive Applied (imports : List Text) (function : Text) : List Text → Text → Prop
  | bare : Applied imports function [] function
  | given {arguments : List Text} : arguments ≠ [] → "functools".toList ∈ imports →
    Applied imports function arguments
      ("functools.partial(" ++ function ++ ", " ++ Text.join ", " arguments ++ ")")

/-- An expression for the elements over which a nest runs. -/
inductive Enumerates (imports : List Text) : IterationSpace → Text → Prop
  | product {iterables : List Text} : "itertools".toList ∈ imports →
    Enumerates imports (.product iterables)
      ("itertools.product(" ++ Text.join ", " iterables ++ ")")
  | plain {space : IterationSpace} : space.isProduct = false → Enumerates imports space space.render

/-- A statement that joins values into the variable of a reduction. -/
structure Folds (imports : List Text) (margin : Text) (r : ReductionVar) (line : Text) : Prop where
  functools : "functools".toList ∈ imports
  operator : Text.startsWith "operator." r.operator.fold = true → "operator".toList ∈ imports
  statement : ∃ values : Text, line = margin ++
    (r.name ++ " = functools.reduce(" ++ r.operator.fold ++ ", " ++ values ++ ", " ++ r.name ++ ")")

/-- Where the list of results starts: it is kept if there are reductions. -/
inductive Collects (kernel : Kernel) (margin : Text) : Text → Prop
  | dropped : kernel.reductions = [] → Collects kernel margin (margin ++ "    list(")
  | kept : kernel.reductions ≠ [] →
    Collects kernel margin (margin ++ "    " ++ kernel.resultsName ++ " = list(")

/-- Lines that run a kernel on a pool: the block of the pool with a call in it that names the kernel
and gives the captured variables in order, and a statement for each reduction. The modules that the
lines refer to are imported. -/
inductive Launches (imports : List Text) (kernel : Kernel) : List Text → Prop
  | intro {margin start callable space : Text} {gangs : Nat} {folds : List Text} :
    "concurrent.futures".toList ∈ imports →
    Collects kernel margin start →
    Applied imports kernel.name kernel.captured callable →
    Enumerates imports (.ofHeaders kernel.headers) space →
    List.Forall₂ (Folds imports margin) kernel.reductions folds →
    Launches imports kernel
      ((margin ++ "with concurrent.futures.ThreadPoolExecutor(max_workers=" ++
          Text.decimal gangs ++ ") as " ++ poolName ++ ":") ::
        (start ++ (poolName ++ ".map(" ++ callable ++ ", " ++ space ++ ")") ++ ")") :: folds)

section

variable {imports : List Text} {kernel : Kernel}

theorem defines_render (k : Kernel) : Defines k.render k.name (k.captured ++ [indexName]) := by
  rw [k.render_eq, Kernel.opening, List.append_assoc, List.append_assoc, List.append_assoc]
  exact ⟨_, rfl⟩

theorem applied_callable (h : kernel.captured ≠ [] → "functools".toList ∈ imports) :
    Applied imports kernel.name kernel.captured kernel.callable := by
  unfold Kernel.callable
  split
  · next hnone =>
    rw [hnone]
    exact .bare
  · next hsome => exact .given hsome (h hsome)

theorem enumerates_render {space : IterationSpace}
    (h : space.isProduct = true → "itertools".toList ∈ imports) :
    Enumerates imports space space.render := by
  cases space with
  | single iterable => exact .plain rfl
  | product iterables => exact .product (h rfl)
  | generator pattern headers => exact .plain rfl

theorem Kernel.imports_subset_iff : kernel.imports ⊆ imports ↔
    "concurrent.futures".toList ∈ imports ∧
      (kernel.captured ≠ [] ∨ kernel.reductions ≠ [] → "functools".toList ∈ imports) ∧
      ((IterationSpace.ofHeaders kernel.headers).isProduct = true →
        "itertools".toList ∈ imports) ∧
      ((kernel.reductions.any fun r => Text.startsWith "operator." r.operator.fold) = true →
        "operator".toList ∈ imports) := by
  have hif : ∀ (c : Bool) (m : Text), (if c then [m] else []) ⊆ imports ↔
      (c = true → m ∈ imports) := by
    intro c m
    cases c <;> simp
  have hunless : ∀ (c : Bool) (m : Text), (if c then [] else [m]) ⊆ imports ↔
      (¬ c = true → m ∈ imports) := by
    intro c m
    cases c <;> simp
  rw [Kernel.imports, List.append_subset, List.append_subset, List.append_subset, hif, hif, hunless,
    List.cons_subset, Bool.and_eq_true, not_and_or, List.isEmpty_iff, List.isEmpty_iff, and_assoc,
    and_assoc]
  simp only [List.nil_subset, and_true]

/-- Each reduction has its statement. -/
theorem forall₂_foldStatement {reductions : List ReductionVar} (margin : Text)
    (h : ∀ r ∈ reductions, "functools".toList ∈ imports ∧
      (Text.startsWith "operator." r.operator.fold = true → "operator".toList ∈ imports))
    (first : Nat) :
    List.Forall₂ (Folds imports margin) reductions
      ((reductions.zipIdx first).map fun numbered =>
        margin ++ kernel.foldStatement numbered.2 numbered.1) := by
  induction reductions generalizing first with
  | nil => exact .nil
  | cons r reductions ih =>
    obtain ⟨hfunctools, hoperator⟩ := h r List.mem_cons_self
    rw [List.zipIdx_cons, List.map_cons]
    refine .cons ⟨hfunctools, hoperator, _, rfl⟩ (ih ?_ (first + 1))
    exact fun r hr => h r (List.mem_cons_of_mem _ hr)

theorem launches_launch (h : kernel.imports ⊆ imports) (margin : Text) (gangs : Nat) :
    Launches imports kernel (kernel.launch margin gangs) := by
  obtain ⟨hpool, hfunctools, hproduct, hoperator⟩ := Kernel.imports_subset_iff.1 h
  have hcallable : Applied imports kernel.name kernel.captured kernel.callable :=
    applied_callable fun hsome => hfunctools (.inl hsome)
  have hspace := enumerates_render hproduct
  have hneeded : ∀ r ∈ kernel.reductions, "functools".toList ∈ imports ∧
      (Text.startsWith "operator." r.operator.fold = true → "operator".toList ∈ imports) := by
    intro r hr
    refine ⟨hfunctools (.inr (List.ne_nil_of_mem hr)), fun hfold => ?_⟩
    exact hoperator (List.any_eq_true.2 ⟨r, hr, hfold⟩)
  have hfolds : List.Forall₂ (Folds imports margin) kernel.reductions
      (kernel.reductions.zipIdx.map fun numbered =>
        margin ++ kernel.foldStatement numbered.2 numbered.1) :=
    forall₂_foldStatement margin hneeded 0
  unfold Kernel.launch
  split
  · next hnone =>
    rw [List.isEmpty_iff] at hnone
    exact .intro hpool (.dropped hnone) hcallable hspace (hnone ▸ .nil)
  · next hsome =>
    rw [List.isEmpty_iff] at hsome
    exact .intro hpool (.kept hsome) hcallable hspace hfolds

end

/-! Whole units. -/

/-- What the generated code refers to is there, for a target with the given changes. -/
structure Resolved (tree : DirectiveTree) (changes : List Change) (target : Target) : Prop where
  /-- The kernels are functions of the captured variables and the index. -/
  defined : target.kernels = (kernelsOf changes).map Kernel.render ∧
    ∀ k ∈ kernelsOf changes, Defines k.render k.name (k.captured ++ [indexName])
  /-- Their names come from lines of loop directives, and no two are the same. -/
  named : ∀ k ∈ kernelsOf changes, ∃ d ∈ tree.toList, d.kind = .loop ∧
    k.name = "_acc_kernel_".toList ++ Text.decimal d.line
  distinct : ((kernelsOf changes).map Kernel.name).Nodup
  /-- The body of the entry launches each kernel once. -/
  launched : (launchesOf (bodyParts target.body.span changes)).Perm (kernelsOf changes)
  launches : ∀ nest k gangs, .changed (.moved nest k gangs) ∈ bodyParts target.body.span changes →
    Launches target.imports k (Part.lines target.source (.changed (.moved nest k gangs)))
  /-- Arguments are names, each given once. -/
  arguments : ∀ k ∈ kernelsOf changes, k.captured.Nodup ∧ ∀ v ∈ k.captured, isIdentifier v = true
  imports : target.imports.Nodup
  /-- Where the code takes the lock, the lock is there. -/
  locks : ∀ parts region, Code tree target.body.span changes parts →
    .changed (.locked region) ∈ parts →
      "threading".toList ∈ target.imports ∧ target.helpers.count lockDefinition = 1

section

variable {fallback : Nat} {tree : DirectiveTree} {start target : Target} {changes : List Change}
  {ids : List Nat} {k : Kernel}

theorem nodup_kernel_names (h : tree.Grown) (fallback : Nat) (start : Target) :
    ((kernelsOf (changesFrom fallback tree start tree.breadthFirst)).map Kernel.name).Nodup := by
  have hlines := h.nodup_loop_lines.sublist
    (sublist_kernel_lines fallback tree start tree.breadthFirst)
  refine List.pairwise_map.2 ((List.pairwise_map.1 hlines).imp fun {k k'} hne hname => hne ?_)
  exact Text.decimal_injective (List.append_cancel_left hname)

theorem exists_loop_of_mem_kernelsOf
    (h : k ∈ kernelsOf (changesFrom fallback tree start tree.breadthFirst)) :
    ∃ d ∈ tree.toList, d.kind = .loop ∧ k.line = d.line := by
  have hlines := sublist_kernel_lines fallback tree start tree.breadthFirst
  obtain ⟨d, hd, hline⟩ := List.mem_map.1 (hlines.subset (List.mem_map_of_mem h))
  obtain ⟨hmem, hkind⟩ := DirectiveTree.mem_toList_of_mem_loops hd
  exact ⟨d, hmem, hkind, hline.symm⟩

theorem nodup_capturedNames (visible : NameSet) (headers : List ForHeader)
    (reductions : List ReductionVar) (body : List Text) :
    (capturedNames visible headers reductions body).Nodup :=
  (NameSet.nodup _).filter _

theorem isIdentifier_of_mem_capturedNames {visible : NameSet} {headers : List ForHeader}
    {reductions : List ReductionVar} {body : List Text} {v : Text}
    (h : v ∈ capturedNames visible headers reductions body) : isIdentifier v = true := by
  have hmem : v ∈ referencedNames (Text.unlines body) := (List.mem_filter.1 h).1
  rw [referencedNames, NameSet.mem_ofList] at hmem
  exact (Identifier.name_of_mem_occurrencesFrom (List.mem_filter.1 hmem).1).1

theorem captured_of_mem_kernelsOf (h : k ∈ kernelsOf (changesFrom fallback tree start ids)) :
    k.captured.Nodup ∧ ∀ v ∈ k.captured, isIdentifier v = true := by
  obtain ⟨nest, gangs, hmoved⟩ := mem_kernelsOf.1 h
  obtain ⟨id, -, region, hmade⟩ := exists_made hmoved
  rw [hmade.captured]
  exact ⟨nodup_capturedNames _ _ _ _, fun v hv => isIdentifier_of_mem_capturedNames hv⟩

/-- Code that takes the lock belongs to a change that needs it. -/
theorem exists_needsLock {span region : Span} {parts : List Part}
    (hcode : Code tree span changes parts) (h : .changed (.locked region) ∈ parts) :
    ∃ c ∈ changes, c.NeedsLock tree := by
  cases hcode with
  | entry => exact ⟨_, mem_of_changed_mem_bodyParts h, trivial⟩
  | kernel hmoved => exact ⟨_, hmoved, List.ne_nil_of_mem (mem_of_mem_lockParts h)⟩

theorem resolved_of_run {config : Config} {f : FunctionContext} (hgrown : tree.Grown)
    (h : run (poolSize config.gangs) tree (.ofContext f config.tabWidth config.entry)
      tree.breadthFirst = .ok target) : Resolved tree (changesOf config f tree) target := by
  have hdiffers := differs_run h
  have hsupplies := supplies_run h
  have hsound : target.body.Sound := hdiffers.sound (.empty _)
  constructor
  case defined =>
    refine ⟨?_, fun k _ => defines_render k⟩
    rw [← filterMap_kernel?]
    exact hdiffers.kernels
  case named =>
    intro k hk
    obtain ⟨d, hd, hkind, hline⟩ := exists_loop_of_mem_kernelsOf hk
    exact ⟨d, hd, hkind, congrArg (fun line => "_acc_kernel_" ++ Text.decimal line) hline⟩
  case distinct => exact nodup_kernel_names hgrown _ _
  case launched => exact (perm_changes_bodyParts hsound hdiffers.patches).filterMap _
  case launches =>
    intro nest k gangs hpart
    have hmoved := mem_of_changed_mem_bodyParts hpart
    exact launches_launch (hsupplies.launched nest k gangs hmoved)
      (Text.margin (target.source.textAt nest.span.start)) gangs
  case arguments => exact fun k hk => captured_of_mem_kernelsOf hk
  case imports => exact hsupplies.nodup_imports List.nodup_nil
  case locks =>
    intro parts region hcode hpart
    obtain ⟨c, hc, hlock⟩ := exists_needsLock hcode hpart
    obtain ⟨hthreading, hhelper⟩ := hsupplies.locked c hc hlock
    have hnodup := hsupplies.nodup_helpers List.nodup_nil
    exact ⟨hthreading, List.count_eq_one_of_mem hnodup hhelper⟩

end

/-- Whenever a function is compiled, its code is known part by part, and all that the backend
refers to in it is there: kernels, their parameters, modules and the lock. -/
theorem names_resolve {config : Config} {f : FunctionContext} {unit : Text}
    (h : (compile config f).outcome = .ok unit) :
    ∃ tree target, (parse config f.source).outcome = .ok tree ∧
      ((backend config.gangs).dispatch tree
        (.ofContext f config.tabWidth config.entry)).outcome = .ok target ∧
      target.finalize f = unit ∧
      Composed tree (changesOf config f tree) (.ofContext f config.tabWidth config.entry) target ∧
      Resolved tree (changesOf config f tree) target := by
  obtain ⟨tree, target, htree, htarget, hunit⟩ := compile_eq_ok.1 h
  have hrun := htarget
  rw [outcome_dispatch] at hrun
  obtain ⟨hgrow, -⟩ := exists_growTree_of_parseDirectives (mapError_eq_ok.1 htree)
  exact ⟨tree, target, htree, htarget, hunit, composed_of_differs rfl rfl (differs_run hrun),
    resolved_of_run (growing_of_growTree hgrow).grown hrun⟩

/-- A nest with a captured variable and an atomic statement, and a loop with a reduction. -/
def tallies : FunctionContext where
  source := Text.unlines ["a = [0]", "# acc parallel loop collapse(2)", "for i in x:",
    "    for j in y:", "        # acc atomic", "        a[0] += j",
    "# acc parallel loop reduction(+:s)", "for k in x:", "    s += k"]

theorem exists_dispatch_tallies :
    ∃ tree target, (parse {} tallies.source).outcome = .ok tree ∧
      ((backend defaultGangs).dispatch tree
        (.ofContext tallies Source.defaultTabWidth Target.defaultEntry)).outcome = .ok target ∧
      (kernelsOf (changesOf {} tallies tree)).map Kernel.line = [1, 6] ∧
      (kernelsOf (changesOf {} tallies tree)).map Kernel.captured = [["a".toList], []] ∧
      ∃ c ∈ changesOf {} tallies tree, ∃ nest, c.nest? = some nest ∧
        .changed (.locked ⟨5, 6⟩) ∈ kernelParts tree nest := by
  have hcheck : ((parse {} tallies.source).outcome.toOption.any fun tree =>
      (((backend defaultGangs).dispatch tree (.ofContext tallies Source.defaultTabWidth
        Target.defaultEntry)).outcome.toOption.any fun _ => true) &&
        (kernelsOf (changesOf {} tallies tree)).map Kernel.line == [1, 6] &&
        (kernelsOf (changesOf {} tallies tree)).map Kernel.captured == [["a".toList], []] &&
        (changesOf {} tallies tree).any fun c => c.nest?.any fun nest =>
          (kernelParts tree nest).contains (.changed (.locked ⟨5, 6⟩))) = true := by
    decide +kernel
  obtain ⟨tree, htree, hfacts⟩ := exists_of_any hcheck
  simp only [Bool.and_eq_true, beq_iff_eq, List.any_eq_true, Option.any_eq_true,
    List.contains_iff_mem] at hfacts
  obtain ⟨⟨⟨⟨target, htarget, -⟩, hlines⟩, hcaptured⟩, hlock⟩ := hfacts
  exact ⟨tree, target, htree, eq_ok_of_toOption htarget, hlines, hcaptured, hlock⟩

/-- Both kernels are launched, and the lock that the first of them takes is defined once. -/
theorem tallies_resolved :
    ∃ tree target, (compile {} tallies).outcome = .ok (target.finalize tallies) ∧
      (parse {} tallies.source).outcome = .ok tree ∧
      (kernelsOf (changesOf {} tallies tree)).map Kernel.line = [1, 6] ∧
      (kernelsOf (changesOf {} tallies tree)).map Kernel.captured = [["a".toList], []] ∧
      Resolved tree (changesOf {} tallies tree) target ∧
      target.helpers.count lockDefinition = 1 := by
  obtain ⟨parsed, made, hparsed, hmade, hlines, hcaptured, c, hc, nest, hnest, hlock⟩ :=
    exists_dispatch_tallies
  have hcompile : (compile {} tallies).outcome = .ok (made.finalize tallies) :=
    compile_eq_ok.2 ⟨parsed, made, hparsed, hmade, rfl⟩
  obtain ⟨tree, target, htree, htarget, hunit, -, hresolved⟩ := names_resolve hcompile
  obtain rfl : parsed = tree := by
    rw [hparsed] at htree
    exact Except.ok.inj htree
  refine ⟨parsed, target, hunit ▸ hcompile, htree, hlines, hcaptured, hresolved, ?_⟩
  cases c with
  | moved moved kernel gangs =>
    obtain rfl := Option.some.inj hnest
    exact (hresolved.locks _ _ (.kernel hc) hlock).2
  | locked region => simp [Change.nest?] at hnest

end Host
end Offload
