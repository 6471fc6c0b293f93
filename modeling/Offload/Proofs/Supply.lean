import Offload.Proofs.Change

/-!
Imports and helpers. Whatever a change writes, the modules that it needs are imported, and the lock
is defined where it is taken; nothing is imported or defined twice.
-/
namespace Offload

theorem mem_pushNew {items : List Text} {item other : Text} :
    other ∈ pushNew items item ↔ other ∈ items ∨ other = item := by
  unfold pushNew
  split
  · next hmem =>
    rw [List.contains_iff_mem] at hmem
    constructor
    · exact .inl
    · rintro (hother | rfl)
      · exact hother
      · exact hmem
  · simp

theorem subset_pushNew (items : List Text) (item : Text) : items ⊆ pushNew items item :=
  fun _ h => mem_pushNew.2 (.inl h)

theorem nodup_pushNew {items : List Text} (h : items.Nodup) (item : Text) :
    (pushNew items item).Nodup := by
  unfold pushNew
  split
  · exact h
  · next hnew =>
    rw [List.contains_iff_mem] at hnew
    exact List.nodup_append.2 ⟨h, by simp, by grind⟩

namespace Host

open Outcome

/-! What changes need. -/

/-- The change takes the lock: for a region of the body, or in a kernel. -/
def Change.NeedsLock (tree : DirectiveTree) : Change → Prop
  | moved nest _ _ => atomicsIn tree nest.body ≠ []
  | locked _ => True

/-- From the first target to the second, imports and helpers only grow, none of them comes twice,
and those that the changes need are there. -/
structure Supplies (tree : DirectiveTree) (changes : List Change) (target next : Target) :
    Prop where
  imports : target.imports ⊆ next.imports
  helpers : target.helpers ⊆ next.helpers
  nodup_imports : target.imports.Nodup → next.imports.Nodup
  nodup_helpers : target.helpers.Nodup → next.helpers.Nodup
  launched : ∀ nest kernel gangs, .moved nest kernel gangs ∈ changes →
    kernel.imports ⊆ next.imports
  locked : ∀ c ∈ changes, c.NeedsLock tree →
    "threading".toList ∈ next.imports ∧ lockDefinition ∈ next.helpers

namespace Supplies

variable {tree : DirectiveTree} {target next last : Target} {changes more : List Change}

theorem of_eq (himports : next.imports = target.imports)
    (hhelpers : next.helpers = target.helpers) : Supplies tree [] target next := by
  constructor <;> simp [himports, hhelpers]

theorem trans (h : Supplies tree changes target next) (h' : Supplies tree more next last) :
    Supplies tree (changes ++ more) target last where
  imports := List.Subset.trans h.imports h'.imports
  helpers := List.Subset.trans h.helpers h'.helpers
  nodup_imports := fun hn => h'.nodup_imports (h.nodup_imports hn)
  nodup_helpers := fun hn => h'.nodup_helpers (h.nodup_helpers hn)
  launched := by
    intro nest kernel gangs hmoved
    rcases List.mem_append.1 hmoved with hmoved | hmoved
    · exact List.Subset.trans (h.launched nest kernel gangs hmoved) h'.imports
    · exact h'.launched nest kernel gangs hmoved
  locked := by
    intro c hc hlock
    rcases List.mem_append.1 hc with hc | hc
    · obtain ⟨himport, hhelper⟩ := h.locked c hc hlock
      exact ⟨h'.imports himport, h'.helpers hhelper⟩
    · exact h'.locked c hc hlock

/-- A change is supplied by a target that has what it needs. -/
theorem of_change {c : Change} (h : Supplies tree [] target next)
    (hlaunched : ∀ nest kernel gangs, c = .moved nest kernel gangs → kernel.imports ⊆ next.imports)
    (hlocked : c.NeedsLock tree →
      "threading".toList ∈ next.imports ∧ lockDefinition ∈ next.helpers) :
    Supplies tree [c] target next where
  imports := h.imports
  helpers := h.helpers
  nodup_imports := h.nodup_imports
  nodup_helpers := h.nodup_helpers
  launched := by
    intro nest kernel gangs hmoved
    exact hlaunched nest kernel gangs (List.mem_singleton.1 hmoved).symm
  locked := by
    intro other hother
    obtain rfl := List.mem_singleton.1 hother
    exact hlocked

end Supplies

section

variable {tree : DirectiveTree} {target next last : Target} {fallback : Nat} {ids : List Nat}

theorem supplies_addImport (moduleName : Text) :
    Supplies tree [] target (target.addImport moduleName) where
  imports := subset_pushNew target.imports moduleName
  helpers := List.Subset.refl _
  nodup_imports := fun hn => nodup_pushNew hn moduleName
  nodup_helpers := id
  launched := by simp
  locked := by simp

theorem supplies_addImports (imports : List Text) :
    Supplies tree [] target (imports.foldl Target.addImport target) := by
  induction imports generalizing target with
  | nil => exact .of_eq rfl rfl
  | cons moduleName imports ih => exact (supplies_addImport moduleName).trans ih

theorem mem_imports_addImports {imports : List Text} {moduleName : Text} :
    moduleName ∈ (imports.foldl Target.addImport target).imports ↔
      moduleName ∈ target.imports ∨ moduleName ∈ imports := by
  induction imports generalizing target with
  | nil => simp
  | cons first imports ih =>
    rw [List.foldl_cons, ih, Target.addImport, mem_pushNew, List.mem_cons, or_assoc]

theorem supplies_requireLock : Supplies tree [] target (requireLock target) where
  imports := subset_pushNew target.imports _
  helpers := subset_pushNew target.helpers _
  nodup_imports := fun hn => nodup_pushNew hn _
  nodup_helpers := fun hn => nodup_pushNew hn _
  launched := by simp
  locked := by simp

theorem mem_requireLock (target : Target) :
    "threading".toList ∈ (requireLock target).imports ∧
      lockDefinition ∈ (requireLock target).helpers :=
  ⟨mem_pushNew.2 (.inr rfl), mem_pushNew.2 (.inr rfl)⟩

theorem supplies_placeKernel {kernel : Kernel} {nest : LoopNest} {gangs : Nat}
    (h : placeKernel target kernel nest gangs (!(atomicsIn tree nest.body).isEmpty) = .ok next) :
    Supplies tree [.moved nest kernel gangs] target next := by
  have himports : Supplies tree [] target (kernel.imports.foldl Target.addImport target) :=
    supplies_addImports kernel.imports
  have hkernel : kernel.imports ⊆ (kernel.imports.foldl Target.addImport target).imports :=
    fun _ hmem => mem_imports_addImports.2 (.inr hmem)
  simp only [placeKernel] at h
  generalize kernel.imports.foldl Target.addImport target = imported at h himports hkernel
  have hlock : Supplies tree [] imported
      (if !(atomicsIn tree nest.body).isEmpty then requireLock imported else imported) := by
    split
    · exact supplies_requireLock
    · exact .of_eq rfl rfl
  have hmem : atomicsIn tree nest.body ≠ [] →
      (if !(atomicsIn tree nest.body).isEmpty then requireLock imported else imported) =
        requireLock imported := by
    intro hatomics
    rw [if_pos (by simpa using hatomics)]
  generalize (if !(atomicsIn tree nest.body).isEmpty then requireLock imported else imported) =
    ready at h hlock hmem
  obtain ⟨-, -, rfl⟩ := eq_of_patch h
  refine .of_change ((himports.trans hlock).trans (.of_eq rfl rfl)) ?_ ?_
  · intro nest' kernel' gangs' heq
    obtain ⟨rfl, rfl, rfl⟩ := Change.moved.inj heq
    exact List.Subset.trans hkernel hlock.imports
  · intro hatomics
    obtain rfl := hmem hatomics
    exact mem_requireLock imported

theorem supplies_locked {region : Span}
    (h : (requireLock target).patch region (lockedLines target.source region) = .ok next) :
    Supplies tree [.locked region] target next := by
  obtain ⟨-, -, rfl⟩ := eq_of_patch h
  refine .of_change (supplies_requireLock.trans (.of_eq rfl rfl)) nofun ?_
  intro
  exact mem_requireLock target

theorem StepTo.supplies {c : Option Change} (h : StepTo tree target c next) :
    Supplies tree c.toList target next := by
  cases h with
  | settings => exact .of_eq rfl rfl
  | construct => exact supplies_addImport _
  | moved _ hplaced => exact supplies_placeKernel hplaced
  | locked hpatched => exact supplies_locked hpatched

/-- A run supplies what the changes of its nodes need. -/
theorem supplies_run (h : run fallback tree target ids = .ok last) :
    Supplies tree (changesFrom fallback tree target ids) target last := by
  induction ids generalizing target with
  | nil =>
    obtain rfl := Except.ok.inj h
    exact .of_eq rfl rfl
  | cons id ids ih =>
    rw [run, List.foldlM_cons, bind_eq_ok] at h
    obtain ⟨next, hnext, hrest⟩ := h
    rw [changesFrom, hnext]
    exact (stepTo_generate hnext).supplies.trans (ih hrest)

end

end Host
end Offload
