import Offload.Backend.Host
import Offload.Proofs.Outcome
import Offload.Proofs.Patch
import Offload.Proofs.Tree

/-!
What generation does to a function, change by change. A change replaces lines of the body: a loop
nest by the launch of its kernel, or an atomic region by the same lines under the lock.
-/
namespace Offload.Host

open Outcome

inductive Change
  | moved (nest : LoopNest) (kernel : Kernel) (gangs : Nat)
  | locked (region : Span)
deriving DecidableEq

namespace Change

/-- The lines that are replaced. -/
def span : Change → Span
  | moved nest _ _ => nest.span
  | locked region => region

def patch (s : Source) : Change → Patch
  | moved nest kernel gangs =>
    ⟨nest.span, kernel.launch (Text.margin (s.textAt nest.span.start)) gangs⟩
  | locked region => ⟨region, lockedLines s region⟩

def nest? : Change → Option LoopNest
  | moved nest _ _ => some nest
  | locked _ => none

/-- The function that goes before the entry. -/
def kernel? : Change → Option Text
  | moved _ kernel _ => some kernel.render
  | locked _ => none

/-- The kernel of a moved nest runs the body of the nest, with the atomic regions that are annotated
in it under the lock. -/
def Runs (s : Source) (tree : DirectiveTree) : Change → Prop
  | moved nest kernel _ =>
    functionBody (resultTuple kernel.reductions) (Text.unindent
      (lockAtomics s (atomicsIn tree nest.body) nest.body.start nest.body.stop)) = .ok kernel.body
  | locked _ => True

@[simp] theorem span_patch (s : Source) (c : Change) : (c.patch s).span = c.span := by
  cases c <;> rfl

end Change

/-- The change that makes a kernel of a loop. -/
def move (fallback : Nat) (d construct : Directive) (region : Span) (tree : DirectiveTree)
    (target : Target) : Except Error Change := do
  let nest ← LoopNest.find target.source d region
  let reductions ← reductionsOf d
  let kernel ← kernelOf d target nest reductions (atomicsIn tree nest.body)
  return .moved nest kernel (gangsFor fallback d construct)

/-- The change that a loop asks for, given what has been changed before. -/
def loopChange? (fallback : Nat) (d : Directive) (tree : DirectiveTree) (target : Target) :
    Option Change :=
  match d.region with
  | none => none
  | some region =>
    if target.body.isPatched region.start then none
    else match parallelConstruct? tree d with
      | none => none
      | some construct =>
        if d.clauses.contains .seq then none
        else (move fallback d construct region tree target).toOption

def change? (fallback : Nat) (d : Directive) (tree : DirectiveTree) (target : Target) :
    Option Change :=
  match d.kind with
  | .loop => loopChange? fallback d tree target
  | .atomic => if target.body.isPatched d.line then none else d.region.map .locked
  | _ => none

/-- Generates the given nodes one after the other. -/
def run (fallback : Nat) (tree : DirectiveTree) (target : Target) (ids : List Nat) :
    Except Error Target :=
  ids.foldlM (fun target id => (generate fallback (tree.get id) tree target).outcome) target

/-- The changes that the given nodes ask for, one after the other. -/
def changesFrom (fallback : Nat) (tree : DirectiveTree) : Target → List Nat → List Change
  | _, [] => []
  | target, id :: ids =>
    match (generate fallback (tree.get id) tree target).outcome with
    | .ok next =>
      (change? fallback (tree.get id) tree target).toList ++ changesFrom fallback tree next ids
    | .error _ => []

/-- The second target is the first one with changes made to its body and their kernels added.
Imports, helpers and settings are left open. -/
structure Differs (tree : DirectiveTree) (changes : List Change) (target next : Target) : Prop where
  source : next.source = target.source
  parameters : next.parameters = target.parameters
  span : next.body.span = target.body.span
  patches : next.body.patches = target.body.patches ++ changes.map (Change.patch target.source)
  kernels : next.kernels = target.kernels ++ changes.filterMap Change.kernel?
  solid : ∀ c ∈ changes, c.span.isEmpty = false
  runs : ∀ c ∈ changes, c.Runs target.source tree
  sound : target.body.Sound → next.body.Sound

namespace Differs

variable {tree : DirectiveTree} {target next last : Target} {changes more : List Change}

theorem rfl : Differs tree [] target target := by
  constructor <;> simp

theorem trans (h : Differs tree changes target next) (h' : Differs tree more next last) :
    Differs tree (changes ++ more) target last where
  source := h'.source.trans h.source
  parameters := h'.parameters.trans h.parameters
  span := h'.span.trans h.span
  patches := by rw [h'.patches, h.patches, h.source, List.map_append, List.append_assoc]
  kernels := by rw [h'.kernels, h.kernels, List.filterMap_append, List.append_assoc]
  solid := by
    intro c hc
    rcases List.mem_append.1 hc with hc | hc
    · exact h.solid c hc
    · exact h'.solid c hc
  runs := by
    intro c hc
    rcases List.mem_append.1 hc with hc | hc
    · exact h.runs c hc
    · exact h.source ▸ h'.runs c hc
  sound := fun htarget => h'.sound (h.sound htarget)

theorem isPatched (h : Differs tree changes target next) {line : Nat} :
    next.body.isPatched line = true ↔
      target.body.isPatched line = true ∨ ∃ c ∈ changes, c.span.contains line = true := by
  simp [PatchedBody.isPatched, PatchedBody.covering?, h.patches]

end Differs

/-! What the single steps do to a target. -/

section

variable {tree : DirectiveTree} {target next : Target} {fallback : Nat} {d : Directive}

theorem differs_addImport (moduleName : Text) :
    Differs tree [] target (target.addImport moduleName) := by
  constructor <;> simp [Target.addImport]

theorem differs_addImports (imports : List Text) :
    Differs tree [] target (imports.foldl Target.addImport target) := by
  induction imports generalizing target with
  | nil => exact .rfl
  | cons moduleName imports ih => exact (differs_addImport moduleName).trans ih

theorem differs_requireLock : Differs tree [] target (requireLock target) := by
  constructor <;> simp [requireLock, Target.addImport, Target.addHelper]

/-- A patch covers some line. -/
theorem eq_of_patch {span : Span} {lines : List Text} (h : target.patch span lines = .ok next) :
    span.isEmpty = false ∧ target.body.patch span lines = .ok next.body ∧ next = { target with
      body := { target.body with patches := target.body.patches ++ [⟨span, lines⟩] } } := by
  obtain ⟨body, hbody, h⟩ := bind_eq_ok.1 h
  obtain rfl := Except.ok.inj h
  have hpatch := hbody
  simp only [PatchedBody.patch] at hbody
  split at hbody
  · simp at hbody
  · next hfree =>
    simp only [Bool.or_eq_true, not_or, Bool.not_eq_true] at hfree
    obtain rfl := Except.ok.inj hbody
    exact ⟨hfree.2, hpatch, rfl⟩

/-- A target in which nothing has changed takes one change: its kernel, and then its patch. -/
theorem differs_patch {ready : Target} {c : Change} (hready : Differs tree [] target ready)
    (hruns : c.Runs target.source tree)
    (h : Target.patch { ready with kernels := ready.kernels ++ c.kernel?.toList }
      (c.patch target.source).span (c.patch target.source).lines = .ok next) :
    Differs tree [c] target next := by
  obtain ⟨hsolid, hbody, rfl⟩ := eq_of_patch h
  constructor
  · exact hready.source
  · exact hready.parameters
  · exact hready.span
  · change ready.body.patches ++ [c.patch target.source] = _
    simp [hready.patches]
  · cases hc : c.kernel? <;> simp [hready.kernels, hc]
  · simpa using hsolid
  · simpa using hruns
  · exact fun htarget => (hready.sound htarget).of_patch hbody

theorem differs_placeKernel {kernel : Kernel} {nest : LoopNest} {gangs : Nat} {locked : Bool}
    (hruns : (Change.moved nest kernel gangs).Runs target.source tree)
    (h : placeKernel target kernel nest gangs locked = .ok next) :
    Differs tree [.moved nest kernel gangs] target next := by
  have himports : Differs tree [] target (kernel.imports.foldl Target.addImport target) :=
    differs_addImports kernel.imports
  simp only [placeKernel] at h
  generalize kernel.imports.foldl Target.addImport target = imported at h himports
  have hlock : Differs tree [] target (if locked then requireLock imported else imported) := by
    split
    · exact himports.trans differs_requireLock
    · exact himports
  exact differs_patch hlock hruns h

theorem runs_of_kernelOf {nest : LoopNest} {reductions : List ReductionVar} {kernel : Kernel}
    (gangs : Nat)
    (h : kernelOf d target nest reductions (atomicsIn tree nest.body) = .ok kernel) :
    (Change.moved nest kernel gangs).Runs target.source tree := by
  obtain ⟨body, hbody, h⟩ := bind_eq_ok.1 h
  obtain rfl := Except.ok.inj h
  exact mapError_eq_ok.1 hbody

/-- What generating a node can do to a target, by the change that the node asks for. -/
inductive StepTo (tree : DirectiveTree) (target : Target) : Option Change → Target → Prop
  | settings (controls : Controls) : StepTo tree target none { target with controls }
  | construct : StepTo tree target none (target.addImport "concurrent.futures")
  | moved {nest : LoopNest} {kernel : Kernel} {gangs : Nat} {next : Target} :
    (Change.moved nest kernel gangs).Runs target.source tree →
    placeKernel target kernel nest gangs (!(atomicsIn tree nest.body).isEmpty) = .ok next →
    StepTo tree target (some (.moved nest kernel gangs)) next
  | locked {region : Span} {next : Target} :
    (requireLock target).patch region (lockedLines target.source region) = .ok next →
    StepTo tree target (some (.locked region)) next

theorem StepTo.unchanged : StepTo tree target none target := .settings target.controls

theorem stepTo_moveLoop {construct : Directive} {region : Span}
    (h : (moveLoop fallback d construct region tree target).outcome = .ok next) :
    ∃ c, move fallback d construct region tree target = .ok c ∧
      StepTo tree target (some c) next := by
  simp only [moveLoop, Logged.outcome_bind, Logged.outcome_lift, Logged.outcome_log,
    Logged.outcome_pure, ok_bind] at h
  obtain ⟨nest, hnest, h⟩ := bind_eq_ok.1 h
  obtain ⟨reductions, hreductions, h⟩ := bind_eq_ok.1 h
  obtain ⟨kernel, hkernel, h⟩ := bind_eq_ok.1 h
  obtain ⟨placed, hplaced, h⟩ := bind_eq_ok.1 h
  obtain rfl := Except.ok.inj h
  refine ⟨.moved nest kernel (gangsFor fallback d construct), ?_,
    .moved (runs_of_kernelOf _ hkernel) hplaced⟩
  rw [move, hnest, ok_bind, hreductions, ok_bind, hkernel, ok_bind]
  rfl

theorem stepTo_expandLoop (h : (expandLoop fallback d tree target).outcome = .ok next) :
    StepTo tree target (loopChange? fallback d tree target) next := by
  unfold expandLoop at h
  split at h
  · simp at h
  · next region hregion =>
    split at h
    · next hpatched =>
      obtain rfl : target = next := by simpa using h
      simpa [loopChange?, hregion, hpatched] using StepTo.unchanged
    · next hfree =>
      split at h
      · next hconstruct =>
        obtain rfl : target = next := by simpa using h
        simpa [loopChange?, hregion, hfree, hconstruct] using StepTo.unchanged
      · next construct hconstruct =>
        split at h
        · next hseq =>
          obtain rfl : target = next := by simpa using h
          simpa [loopChange?, hregion, hfree, hconstruct, hseq] using StepTo.unchanged
        · next hseq =>
          obtain ⟨c, hc, hstep⟩ := stepTo_moveLoop h
          simpa [loopChange?, hregion, hfree, hconstruct, hseq, hc, Except.toOption] using hstep

theorem stepTo_expandAtomic (h : (expandAtomic d target).outcome = .ok next) :
    StepTo tree target (if target.body.isPatched d.line then none else d.region.map .locked)
      next := by
  unfold expandAtomic at h
  split at h
  · simp at h
  · next region hregion =>
    have hr := (Option.filter_eq_some_iff.1 hregion).1
    split at h
    · next hpatched =>
      obtain rfl : target = next := by simpa using h
      rw [if_pos hpatched]
      exact .unchanged
    · next hfree =>
      rw [if_neg hfree, hr]
      exact .locked h

theorem outcome_applySet (d : Directive) (target : Target) :
    (applySet d target).outcome =
      .ok { target with controls := target.controls.set d.clauses } := by
  simp only [applySet]
  split <;> split <;> rfl

theorem stepTo_generate (h : (generate fallback d tree target).outcome = .ok next) :
    StepTo tree target (change? fallback d tree target) next := by
  unfold generate at h
  unfold change?
  split at h
  case h_1 hkind | h_2 hkind =>
    rw [hkind]
    obtain rfl := Except.ok.inj h
    exact .unchanged
  case h_3 hkind | h_4 hkind =>
    rw [hkind]
    obtain rfl := Except.ok.inj h
    exact .construct
  case h_5 hkind =>
    rw [hkind]
    exact stepTo_expandLoop h
  case h_6 hkind =>
    rw [hkind]
    exact stepTo_expandAtomic h
  case h_7 hkind =>
    rw [outcome_applySet, Except.ok.injEq] at h
    rw [hkind, ← h]
    exact .settings _
  case h_8 =>
    obtain rfl : target = next := by simpa using h
    simpa [*] using StepTo.unchanged

theorem StepTo.differs {c : Option Change} (h : StepTo tree target c next) :
    Differs tree c.toList target next := by
  cases h with
  | settings => constructor <;> simp
  | construct => exact differs_addImport _
  | moved hruns hplaced => exact differs_placeKernel hruns hplaced
  | @locked region _ hpatched =>
    refine differs_patch (c := .locked region) differs_requireLock trivial ?_
    rw [Change.kernel?, Option.toList_none, List.append_nil]
    exact hpatched

theorem differs_moveLoop {construct : Directive} {region : Span}
    (h : (moveLoop fallback d construct region tree target).outcome = .ok next) :
    ∃ c, move fallback d construct region tree target = .ok c ∧ Differs tree [c] target next := by
  obtain ⟨c, hc, hstep⟩ := stepTo_moveLoop h
  exact ⟨c, hc, hstep.differs⟩

/-- A node changes a target by what it asks for. -/
theorem differs_generate (h : (generate fallback d tree target).outcome = .ok next) :
    Differs tree (change? fallback d tree target).toList target next :=
  (stepTo_generate h).differs

end

/-! Whole runs. -/

section

variable {fallback id : Nat} {tree : DirectiveTree} {target last : Target} {ids : List Nat}

/-- A run changes a target by what its nodes ask for. -/
theorem differs_run (h : run fallback tree target ids = .ok last) :
    Differs tree (changesFrom fallback tree target ids) target last := by
  induction ids generalizing target with
  | nil =>
    obtain rfl := Except.ok.inj h
    exact .rfl
  | cons id ids ih =>
    rw [run, List.foldlM_cons, bind_eq_ok] at h
    obtain ⟨next, hnext, hrest⟩ := h
    rw [changesFrom, hnext]
    exact (differs_generate hnext).trans (ih hrest)

/-- An atomic region goes under the lock unless the line of its directive has been replaced. -/
theorem locked_or_isPatched (h : run fallback tree target ids = .ok last)
    (hid : id ∈ ids) (hkind : (tree.get id).kind = .atomic) {region : Span}
    (hregion : (tree.get id).region = some region) :
    .locked region ∈ changesFrom fallback tree target ids ∨
      last.body.isPatched (tree.get id).line = true := by
  induction ids generalizing target with
  | nil => simp at hid
  | cons first ids ih =>
    have hdiffers := differs_run h
    rw [run, List.foldlM_cons, bind_eq_ok] at h
    obtain ⟨next, hnext, hrest⟩ := h
    have hchanges : changesFrom fallback tree target (first :: ids) =
        (change? fallback (tree.get first) tree target).toList ++
          changesFrom fallback tree next ids := by
      rw [changesFrom, hnext]
    rw [hchanges] at hdiffers ⊢
    rcases List.mem_cons.1 hid with rfl | hid
    · by_cases hp : target.body.isPatched (tree.get id).line = true
      · exact .inr (hdiffers.isPatched.2 (.inl hp))
      · left
        simp [change?, hkind, hregion, hp]
    · exact (ih hrest hid).imp_left (List.mem_append_right _)

/-- Every change of a run is asked for by one of its nodes. -/
theorem exists_change?_of_mem {c : Change} (h : c ∈ changesFrom fallback tree target ids) :
    ∃ id ∈ ids, ∃ before changes, Differs tree changes target before ∧
      change? fallback (tree.get id) tree before = some c := by
  induction ids generalizing target with
  | nil => simp [changesFrom] at h
  | cons id ids ih =>
    rw [changesFrom] at h
    split at h
    · next next hnext =>
      rcases List.mem_append.1 h with h | h
      · exact ⟨id, List.mem_cons_self, target, [], .rfl, Option.mem_toList.1 h⟩
      · obtain ⟨later, hlater, before, changes, hdiffers, hc⟩ := ih h
        exact ⟨later, List.mem_cons_of_mem _ hlater, before, _,
          (differs_generate hnext).trans hdiffers, hc⟩
    · simp at h

end

section

variable {fallback : Nat} {tree : DirectiveTree} {target : Target} {d : Directive} {c : Change}

theorem loopChange?_eq_some : loopChange? fallback d tree target = some c ↔
    ∃ region construct, d.region = some region ∧ target.body.isPatched region.start = false ∧
      parallelConstruct? tree d = some construct ∧ d.clauses.contains .seq = false ∧
      move fallback d construct region tree target = .ok c := by
  unfold loopChange?
  split
  · next hregion => simp [hregion]
  · next region hregion =>
    split
    · next hpatched => simp [hregion, hpatched]
    · next hfree =>
      split
      · next hconstruct => simp [hregion, hconstruct]
      · next construct hconstruct =>
        split
        · next hseq => simp [hregion, hconstruct, hseq]
        · next hseq =>
          cases hmove : move fallback d construct region tree target <;>
            simp [hregion, hconstruct, hseq, hfree, hmove, Except.toOption]

theorem change?_eq_some : change? fallback d tree target = some c ↔
    d.kind = .loop ∧ loopChange? fallback d tree target = some c ∨
      d.kind = .atomic ∧ target.body.isPatched d.line = false ∧
        ∃ region, d.region = some region ∧ c = .locked region := by
  unfold change?
  split
  · next hkind => simp [hkind]
  · next hkind =>
    split
    · next hpatched => simp [hkind, hpatched]
    · next hfree => simp [hkind, hfree, eq_comm]
  · next hloop hatomic =>
    constructor
    · simp
    · rintro (⟨hkind, -⟩ | ⟨hkind, -⟩)
      · exact absurd hkind hloop
      · exact absurd hkind hatomic

end

end Offload.Host
