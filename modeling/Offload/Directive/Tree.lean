import Offload.Error

/-!
Trees of directives. Nodes are numbered in the order of insertion, with the root as number 0. A
directive goes under the nearest compute construct above it that governs its line, or under the
root; the loop half of a fused annotation is attached to its compute half. Children and the nodes of
lines are computed from the entries; `Arena` keeps them in step instead.
-/
namespace Offload

structure TreeEntry where
  directive : Directive
  /-- The number of the parent. -/
  parent : Nat
  /-- The loop half of a fused annotation, which does not count for its line. -/
  attached : Bool
deriving DecidableEq

/-- A tree without its root, which the number of lines determines. -/
structure DirectiveTree where
  lineCount : Nat
  /-- The entry at index `i` is node `i + 1`. -/
  entries : List TreeEntry
  parent_le : ∀ (i : Nat) (e : TreeEntry), entries[i]? = some e → e.parent ≤ i

namespace DirectiveTree

def empty (lineCount : Nat) : DirectiveTree := ⟨lineCount, [], by simp⟩

def root (t : DirectiveTree) : Directive := .root t.lineCount

/-- The number of nodes with the root. -/
def size (t : DirectiveTree) : Nat := t.entries.length + 1

def isEmpty (t : DirectiveTree) : Bool := t.entries.isEmpty

def get? (t : DirectiveTree) : Nat → Option Directive
  | 0 => some t.root
  | i + 1 => t.entries[i]?.map TreeEntry.directive

/-- The node of a number; numbers that are not in use give the root. -/
def get (t : DirectiveTree) (id : Nat) : Directive := (t.get? id).getD t.root

/-- All nodes by number. -/
def toList (t : DirectiveTree) : List Directive := t.root :: t.entries.map TreeEntry.directive

/-- The entries with their numbers. -/
def numbered (t : DirectiveTree) : List (TreeEntry × Nat) := t.entries.zipIdx 1

/-- The inserted node of a line. -/
def atLine? (t : DirectiveTree) (line : Nat) : Option Nat :=
  (t.numbered.find? fun (e, _) => !e.attached && e.directive.line == line).map (·.2)

def parent? (t : DirectiveTree) : Nat → Option Nat
  | 0 => none
  | i + 1 => t.entries[i]?.map TreeEntry.parent

theorem parent?_lt {t : DirectiveTree} {id parent : Nat} (h : t.parent? id = some parent) :
    parent < id := by
  cases id with
  | zero => simp [parent?] at h
  | succ i =>
    simp only [parent?, Option.map_eq_some_iff] at h
    obtain ⟨e, he, rfl⟩ := h
    exact Nat.lt_succ_of_le (t.parent_le i e he)

/-- The children of a node in the order of insertion. -/
def children (t : DirectiveTree) (id : Nat) : List Nat :=
  (t.numbered.filter fun (e, _) => e.parent == id).map (·.2)

/-- The entry of the greatest line. -/
def lastByLine? : List (TreeEntry × Nat) → Option (TreeEntry × Nat)
  | [] => none
  | first :: rest =>
    match lastByLine? rest with
    | some other =>
      if other.1.directive.line < first.1.directive.line then some first else some other
    | none => some first

theorem mem_of_lastByLine? {entries : List (TreeEntry × Nat)} {last : TreeEntry × Nat}
    (h : lastByLine? entries = some last) : last ∈ entries := by
  induction entries with
  | nil => simp [lastByLine?] at h
  | cons first rest ih =>
    simp only [lastByLine?] at h
    split at h
    · next other ho =>
      split at h
      · simp_all
      · obtain rfl := Option.some.inj h
        exact List.mem_cons_of_mem _ (ih ho)
    · simp_all

/-- The inserted nodes above a line that can be its parent. -/
def candidates (t : DirectiveTree) (line : Nat) : List (TreeEntry × Nat) :=
  t.numbered.filter fun (e, _) =>
    !e.attached && e.directive.line < line && e.directive.kind.holdsChildren &&
      e.directive.governs line

/-- The parent that a directive on the given line gets. -/
def parentFor (t : DirectiveTree) (line : Nat) : Nat :=
  match lastByLine? (t.candidates line) with
  | some (_, id) => id
  | none => 0

theorem parentFor_le (t : DirectiveTree) (line : Nat) : t.parentFor line ≤ t.entries.length := by
  unfold parentFor
  split
  · next e id h =>
    have mem := (List.mem_filter.1 (mem_of_lastByLine? h)).1
    have := List.snd_lt_add_of_mem_zipIdx mem
    simp only at this
    omega
  · omega

/-- The ancestors of a node, from the nearest to the root. -/
def ancestors (t : DirectiveTree) (id : Nat) : List Nat :=
  match _h : t.parent? id with
  | some parent => parent :: t.ancestors parent
  | none => []
termination_by id
decreasing_by exact parent?_lt _h

/-- The ancestors that a directive on the given line gets. -/
def ancestorsAt (t : DirectiveTree) (line : Nat) : List Nat :=
  let parent := t.parentFor line
  parent :: t.ancestors parent

theorem parent_le_push {entries : List TreeEntry}
    (h : ∀ (i : Nat) (e : TreeEntry), entries[i]? = some e → e.parent ≤ i) (new : TreeEntry)
    (hnew : new.parent ≤ entries.length) :
    ∀ (i : Nat) (e : TreeEntry), (entries ++ [new])[i]? = some e → e.parent ≤ i := by
  intro i e he
  rcases Nat.lt_trichotomy i entries.length with hi | hi | hi
  · exact h i e (by rwa [List.getElem?_append_left hi] at he)
  · subst hi
    simp only [List.getElem?_concat_length, Option.some.injEq] at he
    subst he
    exact hnew
  · rw [List.getElem?_eq_none (by simp; omega)] at he
    simp at he

/-- Appends a node and gives its number. -/
def push (t : DirectiveTree) (new : TreeEntry) (h : new.parent ≤ t.entries.length) :
    DirectiveTree × Nat :=
  (⟨t.lineCount, t.entries ++ [new], parent_le_push t.parent_le new h⟩, t.entries.length + 1)

/-- Appends a directive under the parent that its line selects. -/
def put (t : DirectiveTree) (d : Directive) : DirectiveTree × Nat :=
  t.push ⟨d, t.parentFor d.line, false⟩ (t.parentFor_le d.line)

/-- Inserts a directive, which needs a line of its own. -/
def insert (t : DirectiveTree) (d : Directive) : Except InternalFault (DirectiveTree × Nat) :=
  if d.isRoot then .error .secondRoot
  else if t.lineCount ≤ d.line then .error (.lineOutside d.line t.lineCount)
  else match t.atLine? d.line with
    | some id => .error (.lineTaken d.line id)
    | none => .ok (t.put d)

/-- Attaches the loop half of a fused annotation to its compute half, with which it shares line and
region. -/
def attach (t : DirectiveTree) (owner : Nat) (d : Directive) :
    Except InternalFault (DirectiveTree × Nat) :=
  if h : owner ≤ t.entries.length then
    let compute := t.get owner
    if compute.kind.isCompute ∧ compute.line = d.line ∧ compute.region = d.region then
      .ok (t.push ⟨d, owner, true⟩ h)
    else .error (.strangeHalf d.line compute)
  else .error (.noNode owner)

/-- The nodes of a level and of those below it, as far as `depth` levels. -/
def levels (t : DirectiveTree) : Nat → List Nat → List Nat
  | 0, _ => []
  | depth + 1, level => level ++ t.levels depth (level.flatMap t.children)

/-- All nodes but the root, level by level. -/
def breadthFirst (t : DirectiveTree) : List Nat := t.levels t.entries.length (t.children 0)

/-- The nearest compute construct around a node. -/
def constructAbove? (t : DirectiveTree) (id : Nat) : Option Nat :=
  (t.ancestors id).find? fun a => (t.get a).kind.isCompute

/-- The compute construct that a directive belongs to; a loop half belongs to the construct on its
own line. -/
def constructOf? (t : DirectiveTree) (d : Directive) : Option Nat :=
  if d.fused && !d.kind.isCompute then t.atLine? d.line
  else match t.atLine? d.line with
    | some id => t.constructAbove? id
    | none => (t.ancestorsAt d.line).find? fun a => (t.get a).kind.isCompute

/-- What is wrong with a node and its place. -/
def fault? (t : DirectiveTree) (e : TreeEntry) (id : Nat) : Option InternalFault :=
  let d := e.directive
  let parent := t.get e.parent
  let place :=
    if d.fused && parent.fused && parent.line == d.line then
      if parent.region = d.region then none else some (.halvesDisagree d.line)
    else if !parent.isRoot && !parent.governs d.line then
      some (.outsideParent d.line parent.line)
    else none
  let region :=
    if d.region.isNone && !d.fused && !(t.children id).isEmpty then
      some (.childrenWithoutRegion d.line)
    else none
  let escape := (t.ancestors id).findSome? fun a =>
    let ancestor := t.get a
    let shared := ancestor.fused && ancestor.line == d.line
    if shared || ancestor.isRoot || ancestor.governs d.line then none
    else some (.escapesAncestor d.line ancestor.line)
  place <|> region <|> escape

/-- Every node lies within the nodes above it. -/
def validate (t : DirectiveTree) : Except InternalFault Unit :=
  match t.numbered.findSome? fun (e, id) => t.fault? e id with
  | some fault => .error fault
  | none => .ok ()

end DirectiveTree

/-- A directive with all that is nested in it. -/
inductive Outline
  | node (directive : Directive) (children : List Outline)

namespace Outline

mutual

/-- One line for each directive, two spaces deeper than the directive around it. -/
def lines (indent : Text) : Outline → List Text
  | .node directive children => (indent ++ directive.render) :: linesOfAll (indent ++ "  ") children

def linesOfAll (indent : Text) : List Outline → List Text
  | [] => []
  | first :: rest => lines indent first ++ linesOfAll indent rest

end

def render (o : Outline) : Text := Text.join "\n" (o.lines [])

end Outline

namespace DirectiveTree

theorem of_mem_children {t : DirectiveTree} {id child : Nat} (h : child ∈ t.children id) :
    id < child ∧ child ≤ t.entries.length := by
  simp only [children, List.mem_map, List.mem_filter, beq_iff_eq] at h
  obtain ⟨⟨e, i⟩, ⟨mem, rfl⟩, rfl⟩ := h
  have bound := List.snd_lt_add_of_mem_zipIdx mem
  obtain ⟨low, found⟩ := List.mk_mem_zipIdx_iff_le_and_getElem?_sub.1 mem
  have := t.parent_le _ e found
  simp only at bound ⊢
  omega

/-- The outline of a node. -/
def outlineOf (t : DirectiveTree) (id : Nat) : Outline :=
  .node (t.get id) ((t.children id).attach.map fun ⟨child, _h⟩ => t.outlineOf child)
termination_by t.entries.length + 1 - id
decreasing_by
  have := of_mem_children _h
  omega

def outline (t : DirectiveTree) : Outline := t.outlineOf 0

end DirectiveTree
end Offload
