import Offload.Text.Order

/-!
Finite sets of names, kept as strictly ascending lists, so that equal sets are equal values.
-/
namespace Offload

structure NameSet where
  names : List Text
  ordered : names.Pairwise fun a b => a.before b
deriving DecidableEq

namespace NameSet

instance : Membership Text NameSet := ⟨fun s name => name ∈ s.names⟩

instance (name : Text) (s : NameSet) : Decidable (name ∈ s) :=
  inferInstanceAs (Decidable (name ∈ s.names))

def empty : NameSet := ⟨[], .nil⟩

def insertName (name : Text) : List Text → List Text
  | [] => [name]
  | other :: others =>
    if name.before other then name :: other :: others
    else if name = other then other :: others
    else other :: insertName name others

theorem mem_insertName {name other : Text} {names : List Text} :
    other ∈ insertName name names ↔ other = name ∨ other ∈ names := by
  induction names with
  | nil => simp [insertName]
  | cons head tail ih =>
    simp only [insertName]
    split
    · simp
    · split
      · next h => subst h; simp
      · simp [ih]; grind

theorem pairwise_insertName {name : Text} {names : List Text}
    (h : names.Pairwise fun a b => a.before b) :
    (insertName name names).Pairwise fun a b => a.before b := by
  induction names with
  | nil => simp [insertName]
  | cons head tail ih =>
    rw [List.pairwise_cons] at h
    simp only [insertName]
    split
    · next less =>
      refine List.pairwise_cons.2 ⟨fun other mem => ?_, List.pairwise_cons.2 h⟩
      rcases List.mem_cons.1 mem with rfl | mem
      · exact less
      · exact Text.before_trans less (h.1 other mem)
    · split
      · exact List.pairwise_cons.2 h
      · next notLess different =>
        refine List.pairwise_cons.2 ⟨fun other mem => ?_, ih h.2⟩
        rcases mem_insertName.1 mem with rfl | mem
        · exact ((Text.before_trichotomy _ head).resolve_left notLess).resolve_left different
        · exact h.1 other mem

def insert (s : NameSet) (name : Text) : NameSet :=
  ⟨insertName name s.names, pairwise_insertName s.ordered⟩

def ofList (names : List Text) : NameSet := names.foldl insert empty

def union (s : NameSet) (names : List Text) : NameSet := names.foldl insert s

@[simp] theorem mem_insert {s : NameSet} {name other : Text} :
    other ∈ s.insert name ↔ other = name ∨ other ∈ s := mem_insertName

@[simp] theorem mem_union {s : NameSet} {names : List Text} {name : Text} :
    name ∈ s.union names ↔ name ∈ s ∨ name ∈ names := by
  induction names generalizing s with
  | nil => simp [union]
  | cons head tail ih =>
    have step : s.union (head :: tail) = (s.insert head).union tail := rfl
    simp only [step, ih, mem_insert, List.mem_cons]
    grind

@[simp] theorem mem_ofList {names : List Text} {name : Text} :
    name ∈ ofList names ↔ name ∈ names := by
  have none : name ∉ empty := List.not_mem_nil
  change name ∈ empty.union names ↔ _
  simp [none]

theorem eq_of_mem_iff {xs ys : List Text} (hx : xs.Pairwise fun a b => a.before b)
    (hy : ys.Pairwise fun a b => a.before b) (h : ∀ name, name ∈ xs ↔ name ∈ ys) : xs = ys := by
  induction xs generalizing ys with
  | nil =>
    have none name (mem : name ∈ ys) : False := List.not_mem_nil ((h name).2 mem)
    exact (List.eq_nil_iff_forall_not_mem.2 none).symm
  | cons x xs ih =>
    cases ys with
    | nil => exact absurd ((h x).1 List.mem_cons_self) List.not_mem_nil
    | cons y ys =>
      rw [List.pairwise_cons] at hx hy
      have distinct {name : Text} {names : List Text} (later : ∀ other ∈ names, name.before other) :
          name ∉ names := fun mem => by
        have := later name mem
        simp [Text.before_irrefl] at this
      have head : x = y := by
        rcases List.mem_cons.1 ((h x).1 List.mem_cons_self) with rfl | memY
        · rfl
        · rcases List.mem_cons.1 ((h y).2 List.mem_cons_self) with rfl | memX
          · rfl
          · have := Text.before_trans (hx.1 y memX) (hy.1 x memY)
            simp [Text.before_irrefl] at this
      subst head
      refine congrArg (x :: ·) (ih hx.2 hy.2 fun name => ⟨fun mem => ?_, fun mem => ?_⟩)
      · rcases List.mem_cons.1 ((h name).1 (List.mem_cons_of_mem x mem)) with rfl | mem'
        · exact absurd mem (distinct hx.1)
        · exact mem'
      · rcases List.mem_cons.1 ((h name).2 (List.mem_cons_of_mem x mem)) with rfl | mem'
        · exact absurd mem (distinct hy.1)
        · exact mem'

@[ext] theorem ext {s t : NameSet} (h : ∀ name, name ∈ s ↔ name ∈ t) : s = t := by
  obtain ⟨xs, hx⟩ := s
  obtain ⟨ys, hy⟩ := t
  obtain rfl := eq_of_mem_iff hx hy h
  rfl

end NameSet
end Offload
