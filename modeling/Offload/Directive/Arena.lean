import Offload.Directive.Tree

/-!
The store of a tree of directives: nodes, parents and children in parallel lists, which are indexed
by the numbers of the nodes, and the lines of the inserted nodes in an ordered index. A call changes
the store in place and hands it back also when it fails.
-/
namespace Offload

/-- Numbers of nodes under their lines, in the order of the lines. -/
structure LineIndex where
  entries : List (Nat × Nat)
  ordered : entries.Pairwise fun a b => a.1 < b.1
deriving DecidableEq

namespace LineIndex

def empty : LineIndex := ⟨[], .nil⟩

def get? (x : LineIndex) (line : Nat) : Option Nat := x.entries.lookup line

/-- A node takes the place of the one under its line. -/
def insertEntry (line id : Nat) : List (Nat × Nat) → List (Nat × Nat)
  | [] => [(line, id)]
  | other :: others =>
    if line < other.1 then (line, id) :: other :: others
    else if line = other.1 then (line, id) :: others
    else other :: insertEntry line id others

theorem of_mem_insertEntry {line id : Nat} {e : Nat × Nat} {entries : List (Nat × Nat)}
    (h : e ∈ insertEntry line id entries) : e = (line, id) ∨ e ∈ entries := by
  induction entries with
  | nil => simpa [insertEntry] using h
  | cons other others ih =>
    simp only [insertEntry] at h
    split at h
    · simpa using h
    · split at h
      · rcases List.mem_cons.1 h with h | h
        · exact .inl h
        · exact .inr (List.mem_cons_of_mem other h)
      · rcases List.mem_cons.1 h with rfl | h
        · exact .inr List.mem_cons_self
        · exact (ih h).imp_right (List.mem_cons_of_mem other)

theorem pairwise_insertEntry {line id : Nat} {entries : List (Nat × Nat)}
    (h : entries.Pairwise fun a b => a.1 < b.1) :
    (insertEntry line id entries).Pairwise fun a b => a.1 < b.1 := by
  induction entries with
  | nil => simp [insertEntry]
  | cons other others ih =>
    rw [List.pairwise_cons] at h
    simp only [insertEntry]
    split
    · next less =>
      refine List.pairwise_cons.2 ⟨fun e mem => ?_, List.pairwise_cons.2 h⟩
      rcases List.mem_cons.1 mem with rfl | mem
      · exact less
      · exact Nat.lt_trans less (h.1 e mem)
    · split
      · next same => exact List.pairwise_cons.2 ⟨fun e mem => same ▸ h.1 e mem, h.2⟩
      · next notLess different =>
        refine List.pairwise_cons.2 ⟨fun e mem => ?_, ih h.2⟩
        rcases of_mem_insertEntry mem with rfl | mem
        · exact Nat.lt_of_le_of_ne (Nat.le_of_not_lt notLess) (Ne.symm different)
        · exact h.1 e mem

def insert (x : LineIndex) (line id : Nat) : LineIndex :=
  ⟨insertEntry line id x.entries, pairwise_insertEntry x.ordered⟩

/-- The nodes of the lines above a line, the nearest first. -/
def above (x : LineIndex) (line : Nat) : List Nat :=
  ((x.entries.filter fun e => e.1 < line).map Prod.snd).reverse

end LineIndex

structure Arena where
  nodes : List Directive
  /-- Only the root has no parent. -/
  parents : List (Option Nat)
  children : List (List Nat)
  /-- The inserted nodes; attached ones are not indexed. -/
  index : LineIndex
  lineCount : Nat
deriving DecidableEq

namespace Arena

def empty (lineCount : Nat) : Arena :=
  { nodes := [.root lineCount], parents := [none], children := [[]], index := .empty, lineCount }

def atLine? (a : Arena) (line : Nat) : Option Nat := a.index.get? line

def parent? (a : Arena) (id : Nat) : Option Nat := a.parents[id]?.join

def childrenOf (a : Arena) (id : Nat) : List Nat := a.children[id]?.getD []

/-- The parent that a directive on the given line gets. -/
def parentFor (a : Arena) (line : Nat) : Nat :=
  let holds := fun (d : Directive) => d.kind.holdsChildren && d.governs line
  ((a.index.above line).find? fun id => a.nodes[id]?.any holds).getD 0

/-- Appends a node under a parent and gives its number. -/
def push (parent : Nat) (d : Directive) : EStateM InternalFault Arena Nat := do
  let id := (← get).nodes.length
  modify fun a => { a with nodes := a.nodes ++ [d] }
  modify fun a => { a with parents := a.parents ++ [some parent] }
  modify fun a => { a with children := (a.children ++ [[]]).modify parent (· ++ [id]) }
  return id

/-- Inserts a directive, which needs a line of its own. -/
def insert (d : Directive) : EStateM InternalFault Arena Nat := do
  let a ← get
  if d.isRoot then throw .secondRoot
  else if a.lineCount ≤ d.line then throw (.lineOutside d.line a.lineCount)
  else match a.atLine? d.line with
    | some id => throw (.lineTaken d.line id)
    | none =>
      let id ← push (a.parentFor d.line) d
      modify fun a => { a with index := a.index.insert d.line id }
      return id

/-- Attaches the loop half of a fused annotation to its compute half, with which it shares line and
region. -/
def attach (owner : Nat) (d : Directive) : EStateM InternalFault Arena Nat := do
  match (← get).nodes[owner]? with
  | none => throw (.noNode owner)
  | some compute =>
    if compute.kind.isCompute ∧ compute.line = d.line ∧ compute.region = d.region then
      push owner d
    else throw (.strangeHalf d.line compute)

end Arena
end Offload
