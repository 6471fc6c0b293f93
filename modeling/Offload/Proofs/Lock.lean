import Offload.Compile
import Offload.Proofs.Change
import Offload.Proofs.Enclosure
import Offload.Proofs.Extent
import Offload.Proofs.Patch

/-!
Atomic regions and the lock. A unit is put together from lines of the source, launches of kernels
and regions under the lock, so for each line of an atomic region it can be said whether the lock
holds it.
-/
namespace Offload

namespace Host

open Outcome

/-- A part of generated code: a line of the source, or what a change writes. -/
inductive Part
  | line (line : Nat)
  | changed (c : Change)
deriving DecidableEq

namespace Part

def lines (s : Source) : Part → List Text
  | line l => [s.textAt l]
  | changed c => (c.patch s).lines

end Part

/-- The parts of the lines from `line` to `stop`, with each atomic region among them under the
lock. -/
def lockParts (atomics : List Span) (line stop : Nat) : List Part :=
  if line < stop then
    match _h : atomics.find? fun region => region.start == line && !region.isEmpty with
    | some region => .changed (.locked region) :: lockParts atomics region.stop stop
    | none => .line line :: lockParts atomics (line + 1) stop
  else []
termination_by stop - line
decreasing_by
  · have := List.find?_some _h
    simp only [Span.isEmpty, Span.length, Bool.and_eq_true, beq_iff_eq, Bool.not_eq_true',
      beq_eq_false_iff_ne] at this
    omega
  · omega

def kernelParts (tree : DirectiveTree) (nest : LoopNest) : List Part :=
  lockParts (atomicsIn tree nest.body) nest.body.start nest.body.stop

/-- The parts of a body of which changes have replaced lines. -/
def bodyParts (span : Span) (changes : List Change) : List Part :=
  (List.range' span.start span.length).flatMap fun l =>
    match changes.find? (·.span.start == l) with
    | some c => [.changed c]
    | none => if changes.any (·.span.contains l) then [] else [.line l]

/-! The walk over a loop body. -/

section

variable {atomics : List Span} {line stop l : Nat} {region : Span}

theorem lockAtomics_eq (s : Source) (atomics : List Span) (line stop : Nat) :
    lockAtomics s atomics line stop = (lockParts atomics line stop).flatMap (Part.lines s) := by
  fun_induction lockParts atomics line stop with
  | case1 line hlt region hfind ih =>
    rw [lockAtomics, if_pos hlt]
    split
    · next other hother =>
      obtain rfl : region = other := Option.some.inj (hfind.symm.trans hother)
      rw [ih]
      rfl
    · next hnone => simp [hnone] at hfind
  | case2 line hlt hfind ih =>
    rw [lockAtomics, if_pos hlt]
    split
    · next other hother => simp [hother] at hfind
    · rw [ih]
      rfl
  | case3 line hge =>
    rw [lockAtomics, if_neg hge]
    rfl

/-- The region that the walk takes at a line. -/
theorem of_find?_start
    (h : (atomics.find? fun region => region.start == line && !region.isEmpty) = some region) :
    region ∈ atomics ∧ region.start = line ∧ line < region.stop := by
  have hp := List.find?_some h
  simp only [Bool.and_eq_true, beq_iff_eq, Bool.not_eq_true'] at hp
  have hlt := Span.isEmpty_eq_false.1 hp.2
  exact ⟨List.mem_of_find?_eq_some h, hp.1, by omega⟩

/-- No atomic region starts on a line that the walk leaves as it is. -/
theorem start_ne_of_mem_lockParts (h : .line l ∈ lockParts atomics line stop)
    (hregion : region ∈ atomics) (hsolid : region.start < region.stop) : region.start ≠ l := by
  fun_induction lockParts atomics line stop with
  | case1 line hlt taken hfind ih =>
    simp only [List.mem_cons, reduceCtorEq, false_or] at h
    exact ih h
  | case2 line hlt hfind ih =>
    rcases List.mem_cons.1 h with hl | h
    · obtain rfl := Part.line.inj hl
      have hnone := List.find?_eq_none.1 hfind region hregion
      rintro hstart
      simp [hstart, Span.isEmpty_eq_false.2 hsolid] at hnone
    · exact ih h
  | case3 line hge => simp at h

theorem start_of_mem_lockParts (h : .changed (.locked region) ∈ lockParts atomics line stop) :
    line ≤ region.start := by
  fun_induction lockParts atomics line stop with
  | case1 line hlt taken hfind ih =>
    obtain ⟨-, hstart, hstop⟩ := of_find?_start hfind
    rcases List.mem_cons.1 h with heq | h
    · obtain rfl := Change.locked.inj (Part.changed.inj heq)
      omega
    · have := ih h
      omega
  | case2 line hlt hfind ih =>
    simp only [List.mem_cons, reduceCtorEq, false_or] at h
    have := ih h
    omega
  | case3 line hge => simp at h

/-- The walk leaves a line as it is exactly when none of the regions that it takes holds the
line. -/
theorem line_mem_lockParts_iff :
    .line l ∈ lockParts atomics line stop ↔ line ≤ l ∧ l < stop ∧
      ∀ r, .changed (.locked r) ∈ lockParts atomics line stop → r.contains l = false := by
  fun_induction lockParts atomics line stop with
  | case1 line hlt taken hfind ih =>
    obtain ⟨-, hstart, hstop⟩ := of_find?_start hfind
    simp only [List.mem_cons, reduceCtorEq, false_or, ih, Part.changed.injEq, Change.locked.injEq,
      forall_eq_or_imp, Span.contains_eq_false]
    constructor
    · rintro ⟨hle, hl, hfree⟩
      exact ⟨by omega, hl, .inr hle, hfree⟩
    · rintro ⟨hle, hl, htaken, hfree⟩
      exact ⟨by omega, hl, hfree⟩
  | case2 line hlt hfind ih =>
    simp only [List.mem_cons, reduceCtorEq, false_or, ih, Part.line.injEq]
    constructor
    · rintro (rfl | ⟨hle, hl, hfree⟩)
      · refine ⟨Nat.le_refl l, hlt, fun r hr => ?_⟩
        have := start_of_mem_lockParts hr
        exact Span.contains_eq_false.2 (.inl (by omega))
      · exact ⟨by omega, hl, hfree⟩
    · rintro ⟨hle, hl, hfree⟩
      by_cases heq : l = line
      · exact .inl heq
      · exact .inr ⟨by omega, hl, hfree⟩
  | case3 line hge =>
    simp only [List.not_mem_nil, false_iff, not_and]
    omega

/-- The walk leaves a line of an atomic region as it is when it has skipped the region: the region
starts inside another one, which ends before the line. -/
theorem exists_taken_of_line_mem (h : .line l ∈ lockParts atomics line stop)
    (hregion : region ∈ atomics) (hstart : line ≤ region.start) (hl : region.contains l = true) :
    ∃ taken, .changed (.locked taken) ∈ lockParts atomics line stop ∧
      taken.start ≤ region.start ∧ region.start < taken.stop ∧ taken.stop ≤ l := by
  rw [Span.contains_iff] at hl
  obtain ⟨-, hlt, hfree⟩ := line_mem_lockParts_iff.1 h
  have hstarts : .line region.start ∉ lockParts atomics line stop := fun hmem =>
    start_ne_of_mem_lockParts hmem hregion (by omega) rfl
  obtain ⟨taken, htaken, hcontains⟩ : ∃ taken,
      .changed (.locked taken) ∈ lockParts atomics line stop ∧
        taken.contains region.start = true := by
    rw [line_mem_lockParts_iff] at hstarts
    simpa [hstart, show region.start < stop by omega] using hstarts
  have hl' := Span.contains_eq_false.1 (hfree taken htaken)
  rw [Span.contains_iff] at hcontains
  exact ⟨taken, htaken, hcontains.1, hcontains.2, by omega⟩

end

/-! The body around the kernels. -/

section

variable {changes : List Change} {span : Span} {l : Nat}

theorem render_eq {s : Source} {body : PatchedBody}
    (h : body.patches = changes.map (Change.patch s)) :
    body.render s = (bodyParts body.span changes).flatMap (Part.lines s) := by
  unfold PatchedBody.render bodyParts
  rw [List.flatMap_assoc]
  congr 1
  funext line
  have hpatched : body.isPatched line = changes.any (·.span.contains line) := by
    rw [Bool.eq_iff_iff]
    simp [PatchedBody.isPatched, PatchedBody.covering?, h]
  have hfind : body.patches.find? (·.span.start == line) =
      (changes.find? (·.span.start == line)).map (Change.patch s) := by
    rw [h, List.find?_map]
    congr 2
    funext c
    rw [Function.comp_apply, Change.span_patch]
  rw [PatchedBody.renderLine, hfind, hpatched]
  cases changes.find? (·.span.start == line) with
  | some c => simp [Part.lines]
  | none => cases changes.any (·.span.contains line) <;> simp [Part.lines]

theorem line_mem_bodyParts_iff (hsolid : ∀ c ∈ changes, c.span.isEmpty = false) :
    .line l ∈ bodyParts span changes ↔
      span.contains l = true ∧ ∀ c ∈ changes, c.span.contains l = false := by
  simp only [bodyParts, List.mem_flatMap, List.mem_range'_1, Span.length, Span.contains_iff]
  constructor
  · rintro ⟨line, hline, hmem⟩
    split at hmem
    · simp at hmem
    · split at hmem
      · simp at hmem
      · next hfree =>
        simp only [List.mem_singleton, Part.line.injEq] at hmem
        subst hmem
        refine ⟨by omega, fun c hc => ?_⟩
        cases hcontains : c.span.contains l with
        | false => rfl
        | true => exact absurd (List.any_eq_true.2 ⟨c, hc, hcontains⟩) hfree
  · rintro ⟨hspan, hfree⟩
    refine ⟨l, by omega, ?_⟩
    -- A change that starts on the line would hold it.
    have hstart : changes.find? (·.span.start == l) = none := by
      rw [List.find?_eq_none]
      intro c hc heq
      have hlt := Span.isEmpty_eq_false.1 (hsolid c hc)
      have hout := Span.contains_eq_false.1 (hfree c hc)
      have := beq_iff_eq.1 heq
      omega
    have hany : changes.any (·.span.contains l) = false := by
      simpa using hfree
    simp [hstart, hany]

end

/-! Whole units. -/

/-- The changes that a compilation makes to the body of a function. -/
def changesOf (config : Config) (f : FunctionContext) (tree : DirectiveTree) : List Change :=
  changesFrom (poolSize config.gangs) tree (.ofContext f config.tabWidth config.entry)
    tree.breadthFirst

/-- The code of a target, part by part: the body of the entry and the bodies of the kernels. -/
structure Composed (tree : DirectiveTree) (changes : List Change) (start target : Target) :
    Prop where
  source : target.source = start.source
  span : target.body.span = start.body.span
  body : target.body.render target.source =
    (bodyParts target.body.span changes).flatMap (Part.lines target.source)
  kernels : target.kernels = changes.filterMap Change.kernel?
  runs : ∀ nest kernel gangs, .moved nest kernel gangs ∈ changes →
    functionBody (resultTuple kernel.reductions) (Text.unindent
      ((kernelParts tree nest).flatMap (Part.lines target.source))) = .ok kernel.body

inductive Code (tree : DirectiveTree) (span : Span) (changes : List Change) : List Part → Prop
  | entry : Code tree span changes (bodyParts span changes)
  | kernel {nest : LoopNest} {kernel : Kernel} {gangs : Nat} :
    .moved nest kernel gangs ∈ changes → Code tree span changes (kernelParts tree nest)

/-- The block of a lock reaches to a line of its region: no statement up to it stands so far left
that, one level deeper, it is level with the head of the block. -/
def Sheltered (s : Source) (region : Span) (l : Nat) : Prop :=
  ∀ m, region.start ≤ m → m ≤ l → s.has Line.startsStatement m = true →
    s.indentAt ((s.firstStatement? region).getD region.start) < s.indentAt m + 4

/-- A line stands in the code of a unit outside the block of a lock. -/
def Exposed (s : Source) (tree : DirectiveTree) (span : Span) (changes : List Change) (l : Nat) :
    Prop :=
  ∃ parts, Code tree span changes parts ∧ (.line l ∈ parts ∨
    ∃ r, .changed (.locked r) ∈ parts ∧ r.contains l = true ∧ ¬ Sheltered s r l)

/-- The ways in which a line of the region of a directive gets out of the lock. -/
inductive Escape (s : Source) (tree : DirectiveTree) (span : Span) (changes : List Change)
    (d : Directive) (region : Span) (l : Nat) : Prop
  /-- The directive stands in replaced lines, and the line behind them, in lines that are not. -/
  | behind {c : Change} (change : c ∈ changes) (directive : c.span.contains d.line = true)
    (inside : span.contains l = true) (kept : ∀ c ∈ changes, c.span.contains l = false)
  /-- The line has moved into a kernel without the directive. -/
  | apart {nest : LoopNest} {kernel : Kernel} {gangs : Nat}
    (change : .moved nest kernel gangs ∈ changes) (inside : nest.body.contains l = true)
    (directive : nest.body.contains d.line = false)
    (free : ∀ r, .changed (.locked r) ∈ kernelParts tree nest → r.contains l = false)
  /-- Both have moved, but the region starts in another one that ends before the line. -/
  | crossed {nest : LoopNest} {kernel : Kernel} {gangs : Nat} {taken : Span}
    (change : .moved nest kernel gangs ∈ changes) (inside : nest.body.contains l = true)
    (directive : nest.body.contains d.line = true)
    (other : .changed (.locked taken) ∈ kernelParts tree nest)
    (crossing : taken.start ≤ region.start ∧ region.start < taken.stop ∧ taken.stop ≤ l)
    (free : ∀ r, .changed (.locked r) ∈ kernelParts tree nest → r.contains l = false)
  /-- A lock holds the line, but its block has ended. -/
  | dedented {parts : List Part} {r : Span} (code : Code tree span changes parts)
    (lock : .changed (.locked r) ∈ parts) (inside : r.contains l = true)
    (ended : ¬ Sheltered s r l)

section

variable {config : Config} {f : FunctionContext} {tree : DirectiveTree} {target : Target}
  {changes : List Change} {d : Directive} {region : Span} {l : Nat}

theorem compile_eq_ok {unit : Text} :
    (compile config f).outcome = .ok unit ↔ ∃ tree target,
      (parse config f.source).outcome = .ok tree ∧
      ((backend config.gangs).dispatch tree
        (.ofContext f config.tabWidth config.entry)).outcome = .ok target ∧
      target.finalize f = unit := by
  have hcreate : config.backend.create config.gangs = backend config.gangs := by
    cases config.backend
    rfl
  simp only [compile, hcreate, Backend.emit, Logged.outcome_bind, Logged.outcome_mapError,
    Logged.outcome_pure]
  constructor
  · intro h
    obtain ⟨tree, htree, h⟩ := bind_eq_ok.1 h
    obtain ⟨target, htarget, h⟩ := bind_eq_ok.1 (mapError_eq_ok.1 h)
    exact ⟨tree, target, htree, htarget, Except.ok.inj h⟩
  · rintro ⟨tree, target, htree, htarget, rfl⟩
    exact bind_eq_ok.2 ⟨tree, htree, mapError_eq_ok.2 (bind_eq_ok.2 ⟨target, htarget, rfl⟩)⟩

theorem outcome_dispatch (gangs : Nat) (tree : DirectiveTree) (start : Target) :
    ((backend gangs).dispatch tree start).outcome =
      run (poolSize gangs) tree start tree.breadthFirst := by
  simp [Backend.dispatch, Backend.visit, backend, run]

theorem composed_of_differs {start : Target} (hpatches : start.body.patches = [])
    (hkernels : start.kernels = []) (h : Differs tree changes start target) :
    Composed tree changes start target where
  source := h.source
  span := h.span
  body := render_eq (by rw [h.patches, hpatches, h.source, List.nil_append])
  kernels := by rw [h.kernels, hkernels, List.nil_append]
  runs := by
    intro nest kernel gangs hmem
    rw [kernelParts, ← lockAtomics_eq, h.source]
    exact h.runs _ hmem

theorem mem_atomicsIn {body : Span} : region ∈ atomicsIn tree body ↔
    ∃ d ∈ tree.toList, d.kind = .atomic ∧ body.contains d.line = true ∧ d.region = some region := by
  simp [atomicsIn, and_assoc]

/-- What can hold of the code of a whole unit, given what holds of its changes. -/
theorem exposed_iff_escape {s : Source} {span : Span}
    (hsolid : ∀ c ∈ changes, c.span.isEmpty = false) (hd : d ∈ tree.toList)
    (hkind : d.kind = .atomic) (hregion : d.region = some region) (hbelow : d.line < region.start)
    (hlocked : .locked region ∈ changes ∨ ∃ c ∈ changes, c.span.contains d.line = true)
    (hl : region.contains l = true) :
    Exposed s tree span changes l ↔ Escape s tree span changes d region l := by
  constructor
  · rintro ⟨parts, hcode, hline | ⟨r, hlock, hr, hended⟩⟩
    · cases hcode with
      | entry =>
        obtain ⟨hspan, hkept⟩ := (line_mem_bodyParts_iff hsolid).1 hline
        rcases hlocked with hlocked | ⟨c, hc, hcontains⟩
        · have hout := hkept _ hlocked
          simp [Change.span, hl] at hout
        · exact .behind hc hcontains hspan hkept
      | kernel hmoved =>
        obtain ⟨hstart, hstop, hfree⟩ := line_mem_lockParts_iff.1 hline
        have hinside := Span.contains_iff.2 ⟨hstart, hstop⟩
        rename_i nest kernel gangs
        cases hdirective : nest.body.contains d.line with
        | false => exact .apart hmoved hinside hdirective hfree
        | true =>
          have hatomic : region ∈ atomicsIn tree nest.body :=
            mem_atomicsIn.2 ⟨d, hd, hkind, hdirective, hregion⟩
          have hbody := Span.contains_iff.1 hdirective
          obtain ⟨taken, htaken, hcrossing⟩ :=
            exists_taken_of_line_mem hline hatomic (by omega) hl
          exact .crossed hmoved hinside hdirective htaken hcrossing hfree
    · exact .dedented hcode hlock hr hended
  · intro h
    cases h with
    | behind _ _ hinside hkept =>
      exact ⟨_, .entry, .inl ((line_mem_bodyParts_iff hsolid).2 ⟨hinside, hkept⟩)⟩
    | apart hmoved hinside _ hfree | crossed hmoved hinside _ _ _ hfree =>
      have hbody := Span.contains_iff.1 hinside
      exact ⟨_, .kernel hmoved, .inl (line_mem_lockParts_iff.2 ⟨hbody.1, hbody.2, hfree⟩)⟩
    | dedented hcode hlock hinside hended => exact ⟨_, hcode, .inr ⟨_, hlock, hinside, hended⟩⟩

end

/-- The code of a unit is known part by part, and a line of an atomic region stands outside the
block of a lock exactly when it escapes in one of four ways. -/
theorem atomic_exposed_iff {config : Config} {f : FunctionContext} {unit : Text}
    (h : (compile config f).outcome = .ok unit) :
    ∃ tree target, (parse config f.source).outcome = .ok tree ∧
      ((backend config.gangs).dispatch tree
        (.ofContext f config.tabWidth config.entry)).outcome = .ok target ∧
      target.finalize f = unit ∧
      Composed tree (changesOf config f tree) (.ofContext f config.tabWidth config.entry) target ∧
      ∀ d ∈ tree.toList, d.kind = .atomic → ∀ region, d.region = some region →
        ∀ l, region.contains l = true →
          (Exposed target.source tree target.body.span (changesOf config f tree) l ↔
            Escape target.source tree target.body.span (changesOf config f tree) d region l) := by
  obtain ⟨tree, target, htree, htarget, hunit⟩ := compile_eq_ok.1 h
  have hrun := htarget
  rw [outcome_dispatch] at hrun
  have hdiffers := differs_run hrun
  refine ⟨tree, target, htree, htarget, hunit, composed_of_differs rfl rfl hdiffers, ?_⟩
  intro d hd hkind region hregion l hl
  -- The root is no atomic directive, so the node is an entry of the tree.
  obtain ⟨i, hi, rfl⟩ : ∃ i, ∃ h : i < tree.entries.length, tree.entries[i].directive = d := by
    rcases List.mem_cons.1 hd with rfl | hd
    · exact absurd hkind (by simp [DirectiveTree.root, Directive.root])
    · obtain ⟨e, he, rfl⟩ := List.mem_map.1 hd
      obtain ⟨i, hi, rfl⟩ := List.getElem_of_mem he
      exact ⟨i, hi, rfl⟩
  have hentry := List.getElem?_eq_getElem hi
  have hget := DirectiveTree.get_succ hentry
  obtain ⟨hgrow, -⟩ := exists_growTree_of_parseDirectives (mapError_eq_ok.1 htree)
  have hbelow := (growing_of_growTree hgrow).grown.region_below hentry hregion
  refine exposed_iff_escape hdiffers.solid hd hkind hregion hbelow ?_ hl
  rcases locked_or_isPatched hrun (DirectiveTree.mem_breadthFirst hi) (by rw [hget, hkind])
    (by rw [hget, hregion]) with hlocked | hpatched
  · exact .inl hlocked
  · right
    rw [hget, hdiffers.isPatched] at hpatched
    rcases hpatched with hpatched | hpatched
    · simp [PatchedBody.isPatched, PatchedBody.covering?, Target.ofContext] at hpatched
    · exact hpatched

theorem mem_of_changed_mem_bodyParts {c : Change} {span : Span} {changes : List Change}
    (h : .changed c ∈ bodyParts span changes) : c ∈ changes := by
  obtain ⟨l, -, h⟩ := List.mem_flatMap.1 h
  split at h
  · next other hfind =>
    simp only [List.mem_singleton, Part.changed.injEq] at h
    exact h ▸ List.mem_of_find?_eq_some hfind
  · split at h <;> simp at h

/-- An atomic directive between the heads of a collapsed nest, and one in the body of the nest. -/
def collapsedNest : FunctionContext where
  source := "# acc parallel loop collapse(2)\nfor i in x:\n    # acc atomic\n    for j in x:\n        a[0] += j\n        # acc atomic\n        a[1] += j"

/-- The nest that moves, with the second directive alone in its body. -/
def collapsedLoops : LoopNest where
  headers := [⟨"i", "x"⟩, ⟨"j", "x"⟩]
  span := ⟨1, 7⟩
  body := ⟨4, 7⟩

theorem exists_parse_collapsedNest :
    ∃ tree, (parse {} collapsedNest.source).outcome = .ok tree ∧
      tree.get 3 ∈ tree.toList ∧ (tree.get 3).kind = .atomic ∧
      (tree.get 3).region = some ⟨3, 7⟩ ∧ (tree.get 3).line = 2 ∧
      (changesOf {} collapsedNest tree).map Change.nest? = [some collapsedLoops] ∧
      kernelParts tree collapsedLoops = [.line 4, .line 5, .changed (.locked ⟨6, 7⟩)] := by
  have hcheck : ((parse {} collapsedNest.source).outcome.toOption.any fun t =>
      t.toList.contains (t.get 3) && (t.get 3).kind == .atomic &&
        (t.get 3).region == some ⟨3, 7⟩ && (t.get 3).line == 2 &&
        (changesOf {} collapsedNest t).map Change.nest? == [some collapsedLoops] &&
        kernelParts t collapsedLoops == [.line 4, .line 5, .changed (.locked ⟨6, 7⟩)]) = true := by
    decide +kernel
  obtain ⟨tree, htree, hfacts⟩ := exists_of_any hcheck
  simp only [Bool.and_eq_true, beq_iff_eq, List.contains_iff_mem, and_assoc] at hfacts
  exact ⟨tree, htree, hfacts⟩

/-- The region of the outer directive reaches over both statements, but only the second one runs
under a lock. -/
theorem collapsedNest_exposed :
    ∃ tree target, (parse {} collapsedNest.source).outcome = .ok tree ∧
      ((backend defaultGangs).dispatch tree (.ofContext collapsedNest
        Source.defaultTabWidth Target.defaultEntry)).outcome = .ok target ∧
      (tree.get 3).kind = .atomic ∧ (tree.get 3).region = some ⟨3, 7⟩ ∧
      Exposed target.source tree target.body.span (changesOf {} collapsedNest tree) 4 ∧
      ¬ Exposed target.source tree target.body.span (changesOf {} collapsedNest tree) 6 := by
  have hcompile : ((compile {} collapsedNest).outcome.toOption.any fun _ => true) = true := by
    decide +kernel
  obtain ⟨unit, hunit, -⟩ := exists_of_any hcompile
  obtain ⟨tree, target, htree, htarget, -, hcomposed, hiff⟩ := atomic_exposed_iff hunit
  obtain ⟨other, hother, hmem, hkind, hregion, hline, hmoved, hparts⟩ := exists_parse_collapsedNest
  obtain rfl : other = tree := by
    rw [hother] at htree
    exact Except.ok.inj htree
  refine ⟨other, target, htree, htarget, hkind, hregion, ?_⟩
  rw [hiff _ hmem hkind _ hregion 4 rfl, hiff _ hmem hkind _ hregion 6 rfl]
  -- The kernel is the only change.
  obtain ⟨kernel, gangs, hchanges⟩ : ∃ kernel gangs,
      changesOf {} collapsedNest other = [.moved collapsedLoops kernel gangs] := by
    obtain ⟨c, hc, hnest⟩ := List.map_eq_singleton_iff.1 hmoved
    cases c with
    | moved nest kernel gangs =>
      obtain rfl := Option.some.inj hnest
      exact ⟨kernel, gangs, hc⟩
    | locked region => simp [Change.nest?] at hnest
  have honly : ∀ {nest kernel' gangs'}, Change.moved nest kernel' gangs' ∈
      [Change.moved collapsedLoops kernel gangs] → nest = collapsedLoops := by
    simp +contextual
  rw [hchanges]
  constructor
  · refine .apart List.mem_cons_self rfl (by rw [hline]; rfl) fun r hr => ?_
    rw [hparts] at hr
    obtain rfl : r = ⟨6, 7⟩ := by simpa using hr
    rfl
  · intro hescape
    cases hescape with
    | behind _ _ _ hkept =>
      have hout : collapsedLoops.span.contains 6 = false := hkept _ List.mem_cons_self
      exact absurd hout (by decide)
    | apart hmem _ _ hfree | crossed hmem _ _ _ _ hfree =>
      obtain rfl := honly hmem
      rw [hparts] at hfree
      exact absurd (hfree ⟨6, 7⟩ (by simp)) (by decide)
    | @dedented parts r hcode hlock _ hended =>
      cases hcode with
      | entry => simpa using mem_of_changed_mem_bodyParts hlock
      | kernel hmem =>
        obtain rfl := honly hmem
        rw [hparts] at hlock
        obtain rfl : r = ⟨6, 7⟩ := by simpa using hlock
        refine hended fun m hstart hle _ => ?_
        obtain rfl : m = 6 := Nat.le_antisymm hle hstart
        rw [hcomposed.source]
        decide +kernel

end Host
end Offload
