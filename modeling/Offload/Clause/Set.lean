import Offload.Clause.Value

/-!
The clauses of one directive: at most one value for each kind, listed in the order of the kinds.
-/
namespace Offload

structure ClauseSet where
  get? : ClauseKind → Option Clause

namespace ClauseSet

@[ext] theorem ext {s t : ClauseSet} (h : ∀ kind, s.get? kind = t.get? kind) : s = t := by
  cases s; cases t; exact congrArg ClauseSet.mk (funext h)

def empty : ClauseSet := ⟨fun _ => none⟩

instance : EmptyCollection ClauseSet := ⟨empty⟩

def insert (s : ClauseSet) (kind : ClauseKind) (clause : Clause) : ClauseSet :=
  ⟨fun other => if other = kind then some clause else s.get? other⟩

def contains (s : ClauseSet) (kind : ClauseKind) : Bool := (s.get? kind).isSome

def toList (s : ClauseSet) : List (ClauseKind × Clause) :=
  ClauseKind.all.filterMap fun kind => (s.get? kind).map (kind, ·)

/-- Later pairs win over earlier ones. -/
def ofList (pairs : List (ClauseKind × Clause)) : ClauseSet :=
  pairs.foldl (fun s (kind, clause) => s.insert kind clause) empty

def size (s : ClauseSet) : Nat := s.toList.length

def isEmpty (s : ClauseSet) : Bool := s.toList.isEmpty

def render (s : ClauseSet) : Text :=
  Text.join " " (s.toList.map fun (kind, clause) => clause.render kind)

@[simp] theorem get?_empty (kind : ClauseKind) : (∅ : ClauseSet).get? kind = none := rfl

@[simp] theorem get?_insert (s : ClauseSet) (kind other : ClauseKind) (clause : Clause) :
    (s.insert kind clause).get? other = if other = kind then some clause else s.get? other := rfl

theorem mem_all (kind : ClauseKind) : kind ∈ ClauseKind.all := by
  cases kind <;> decide

instance : DecidableEq ClauseSet := fun s t =>
  decidable_of_iff (∀ kind ∈ ClauseKind.all, s.get? kind = t.get? kind)
    ⟨fun h => ext fun kind => h kind (mem_all kind), fun h _ _ => h ▸ rfl⟩

theorem mem_toList {s : ClauseSet} {kind : ClauseKind} {clause : Clause} :
    (kind, clause) ∈ s.toList ↔ s.get? kind = some clause := by
  simp [toList, mem_all]

/-! Values by kind; a value of another sort counts as absent. -/

def collapse? (s : ClauseSet) : Option (UInt32 × List AssociatedLoop) :=
  match s.get? .collapse with
  | some (.collapse count loops) => some (count, loops)
  | _ => none

def tile? (s : ClauseSet) : Option (List SizeExpr × List AssociatedLoop) :=
  match s.get? .tile with
  | some (.tile sizes loops) => some (sizes, loops)
  | _ => none

def gang? (s : ClauseSet) : Option Gang :=
  match s.get? .gang with
  | some (.gang gang) => some gang
  | _ => none

def worker? (s : ClauseSet) : Option (Option UInt32) :=
  match s.get? .worker with
  | some (.worker count) => some count
  | _ => none

def vector? (s : ClauseSet) : Option (Option UInt32) :=
  match s.get? .vector with
  | some (.vector length) => some length
  | _ => none

def reductions (s : ClauseSet) : List Reduction :=
  match s.get? .reduction with
  | some (.reduction reductions) => reductions
  | _ => []

def int? (s : ClauseSet) (kind : ClauseKind) : Option IntExpr :=
  match s.get? kind with
  | some (.int value) => some value
  | _ => none

def vars? (s : ClauseSet) (kind : ClauseKind) : Option VarList :=
  match s.get? kind with
  | some (.vars list) => some list
  | _ => none

end ClauseSet
end Offload
