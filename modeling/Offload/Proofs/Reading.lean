import Offload.Clause.Reader
import Offload.Proofs.Nest
import Offload.Proofs.Outcome

/-!
Clauses read twice. Where the loops below and the construct above are alike, a directive reads its
clauses alike: what is accepted once is accepted again, with the same values up to the loops that
`collapse` and `tile` speak of.
-/
namespace Offload

open Outcome

/-- Two clauses that differ at most in the loops they speak of. -/
inductive Clause.Alike : Clause → Clause → Prop
  | refl (c : Clause) : Alike c c
  | collapse (count : UInt32) (loops loops' : List AssociatedLoop) :
    Alike (.collapse count loops) (.collapse count loops')
  | tile (sizes : List SizeExpr) (loops loops' : List AssociatedLoop) :
    Alike (.tile sizes loops) (.tile sizes loops')

theorem Clause.Alike.merge? {a a' b b' : Clause} (ha : Alike a a') (hb : Alike b b') :
    Option.Rel Alike (a.merge? b) (a'.merge? b') := by
  cases ha with
  | collapse => exact .none
  | tile => exact .none
  | refl =>
    cases hb with
    | collapse => cases a <;> exact .none
    | tile => cases a <;> exact .none
    | refl =>
      cases Clause.merge? a b with
      | none => exact .none
      | some c => exact .some (.refl c)

/-- Two sets with clauses of the same kinds that are alike. -/
def ClauseSet.Alike (set set' : ClauseSet) : Prop :=
  ∀ kind, Option.Rel Clause.Alike (set.get? kind) (set'.get? kind)

namespace ClauseSet.Alike

variable {set set' : ClauseSet}

theorem empty : Alike ∅ ∅ := fun _ => .none

theorem contains (h : Alike set set') (kind : ClauseKind) :
    set'.contains kind = set.contains kind := by
  have hkind := h kind
  unfold ClauseSet.contains
  generalize set.get? kind = c at hkind ⊢
  generalize set'.get? kind = c' at hkind ⊢
  cases hkind <;> rfl

theorem insert (h : Alike set set') (kind : ClauseKind) {c c' : Clause} (hc : c.Alike c') :
    Alike (set.insert kind c) (set'.insert kind c') := by
  intro other
  rw [get?_insert, get?_insert]
  split
  · exact .some hc
  · exact h other

end ClauseSet.Alike

/-- Two constructs of one kind with clauses of the same kinds. -/
def Directive.SameClauses (d d' : Directive) : Prop :=
  d'.kind = d.kind ∧ ∀ clause, d'.clauses.contains clause = d.clauses.contains clause

namespace ClauseContext

/-- Two places where clauses are read alike. -/
structure Alike (ctx ctx' : ClauseContext) : Prop where
  kind : ctx'.kind = ctx.kind
  loops : Option.Rel (fun span span' => NestedLoop.counts (NestedLoop.nestIn ctx'.source span') =
    NestedLoop.counts (NestedLoop.nestIn ctx.source span)) ctx.region ctx'.region
  construct : Option.Rel Directive.SameClauses ctx.constructAbove? ctx'.constructAbove?

variable {ctx ctx' : ClauseContext}

theorem follows_located {α : Type} {R : α → α → Prop} {x : Except SyntaxFault α}
    (hR : ∀ a, R a a) (ctx ctx' : ClauseContext) :
    Follows R (ctx.located x) (ctx'.located x) :=
  ((Follows.refl x).mapError _ _).mono fun a _ h => h ▸ hR a

theorem Alike.checkSize (h : Alike ctx ctx') (clause constructClause : ClauseKind)
    (argument : Text) :
    Follows Eq (ctx.checkSize clause constructClause argument)
      (ctx'.checkSize clause constructClause argument) := by
  have hfault : ∀ written, ctx.sizeFault? clause constructClause written = none →
      ctx'.sizeFault? clause constructClause written = none := by
    intro written hnone
    have hconstruct := h.construct
    unfold sizeFault? at hnone ⊢
    generalize ctx.constructAbove? = d at hconstruct hnone
    generalize ctx'.constructAbove? = d' at hconstruct ⊢
    cases hconstruct with
    | none => simp at hnone
    | some hsame =>
      simp only at hnone ⊢
      split at hnone
      · simp at hnone
      · next hkind =>
        split at hnone
        · simp at hnone
        · next hclause => rw [if_neg (by rwa [hsame.1]), if_neg (by rwa [hsame.2])]
  simp only [ClauseContext.checkSize, h.kind]
  by_cases hloop : ctx.kind = .loop
  · simp only [hloop, if_true]
    cases hf : ctx.sizeFault? clause constructClause
        (clause.keyword ++ "(" ++ Text.trim argument ++ ")") with
    | some fault => exact .error _ _
    | none =>
      rw [hfault _ hf]
      exact .ok rfl
  · simp only [hloop, if_false]
    exact .ok rfl

theorem Alike.checkSizeAllowed (h : Alike ctx ctx') (clause : ClauseKind) (argument : Text) :
    Follows Eq (ctx.checkSizeAllowed clause argument) (ctx'.checkSizeAllowed clause argument) := by
  unfold ClauseContext.checkSizeAllowed
  rw [h.kind]
  split
  · exact .ok rfl
  · exact follows_located (fun _ => rfl) ctx ctx'

theorem Alike.size (h : Alike ctx ctx') (clause constructClause : ClauseKind) (modifier : Text)
    (argument : Option Text) :
    Follows Eq (ctx.size clause constructClause modifier argument)
      (ctx'.size clause constructClause modifier argument) := by
  cases argument with
  | none => exact .ok rfl
  | some argument =>
    refine .bind (h.checkSizeAllowed clause argument) fun _ _ _ =>
      .bind (follows_located (R := Eq) (fun _ => rfl) ctx ctx') fun value value' hv => ?_
    subst hv
    exact .bind (h.checkSize clause constructClause argument) fun _ _ _ => .ok rfl

theorem Alike.gang (h : Alike ctx ctx') (argument : Option Text) :
    Follows Eq (ctx.gang argument) (ctx'.gang argument) := by
  cases argument with
  | none => exact .ok rfl
  | some argument =>
    refine .bind (h.checkSizeAllowed .gang argument) fun _ _ _ =>
      .bind (follows_located (R := Eq) (fun _ => rfl) ctx ctx') fun gang gang' hg => ?_
    subst hg
    split
    · exact .bind (h.checkSize .gang .numGangs argument) fun _ _ _ => .ok rfl
    · exact .ok rfl

/-- The loops below are found again. -/
theorem Alike.associateLoops {α : Type} {R : α → α → Prop} (h : Alike ctx ctx')
    (clause : ClauseKind) (count : Nat) {f : List AssociatedLoop → Except Error α}
    (hf : ∀ loops loops', Follows R (f loops) (f loops')) :
    Follows R
      (ctx.located (ctx.loopSpan clause) >>= fun span =>
        associateLoops ctx.source span count ctx.line >>= f)
      (ctx'.located (ctx'.loopSpan clause) >>= fun span =>
        associateLoops ctx'.source span count ctx'.line >>= f) := by
  have hloops := h.loops
  unfold loopSpan
  generalize ctx.region = span? at hloops ⊢
  generalize ctx'.region = span?' at hloops ⊢
  cases hloops with
  | none => exact .error _ _
  | some hcounts =>
    simp only [located, mapError_ok, ok_bind]
    refine Follows.bind (R := fun _ _ => True) ?_ fun loops loops' _ => hf loops loops'
    intro loops hok
    have hcount := (exists_associateLoops_iff _ _ count ctx.line).1 ⟨loops, hok⟩
    rw [← hcounts] at hcount
    obtain ⟨loops', hok'⟩ := (exists_associateLoops_iff _ _ count ctx'.line).2 hcount
    exact ⟨loops', hok', trivial⟩

theorem Alike.collapse (h : Alike ctx ctx') (argument : Option Text) :
    Follows Clause.Alike (ctx.collapse argument) (ctx'.collapse argument) := by
  unfold ClauseContext.collapse
  refine .bind (follows_located (R := Eq) (fun _ => rfl) ctx ctx') fun text text' ht => ?_
  subst ht
  refine .bind (follows_located (R := Eq) (fun _ => rfl) ctx ctx') fun count count' hc => ?_
  subst hc
  exact h.associateLoops .collapse count.toNat fun loops loops' =>
    .ok (.collapse count loops loops')

theorem Alike.tile (h : Alike ctx ctx') (argument : Option Text) :
    Follows Clause.Alike (ctx.tile argument) (ctx'.tile argument) := by
  unfold ClauseContext.tile
  refine .bind (follows_located (R := Eq) (fun _ => rfl) ctx ctx') fun text text' ht => ?_
  subst ht
  refine .bind (follows_located (R := Eq) (fun _ => rfl) ctx ctx') fun sizes sizes' hs => ?_
  subst hs
  split
  · exact .error _ _
  · exact h.associateLoops .tile sizes.length fun loops loops' => .ok (.tile sizes loops loops')

theorem Alike.read (h : Alike ctx ctx') (clause : ClauseKind) (argument : Option Text) :
    Follows Clause.Alike (ctx.read clause argument) (ctx'.read clause argument) := by
  have hsame : ∀ a : Clause, a.Alike a := .refl
  unfold ClauseContext.read
  split
  case h_1 => exact h.collapse argument
  case h_2 => exact h.tile argument
  case h_3 => exact (h.gang argument).map fun _ _ hg => hg ▸ .refl _
  case h_4 | h_5 => exact (h.size _ _ _ argument).map fun _ _ hg => hg ▸ .refl _
  case h_15 =>
    rw [h.kind]
    split
    · exact follows_located hsame ctx ctx'
    · exact .ok (.refl _)
  case h_6 | h_7 => exact .ok (.refl _)
  all_goals exact follows_located hsame ctx ctx'

theorem Alike.readWritten (h : Alike ctx ctx') (w : WrittenClause) :
    Follows (fun p p' => p.1 = p'.1 ∧ p.2.Alike p'.2) (ctx.readWritten w) (ctx'.readWritten w) := by
  refine Follows.bind (R := Eq) ?_ fun kind kind' hkind => ?_
  · unfold resolve
    rw [h.kind]
    split
    · exact .ok rfl
    · exact .error _ _
  · subst hkind
    exact .bind (h.read kind w.argument) fun clause clause' hc => .ok ⟨rfl, hc⟩

theorem follows_add {set set' : ClauseSet} (hset : set.Alike set') (kind : ClauseKind)
    {c c' : Clause} (hc : c.Alike c') :
    Follows ClauseSet.Alike (ctx.add set kind c) (ctx'.add set' kind c') := by
  have hkind := hset kind
  unfold add
  generalize set.get? kind = earlier at hkind ⊢
  generalize set'.get? kind = earlier' at hkind ⊢
  cases hkind with
  | none => exact .ok (hset.insert kind hc)
  | some hearlier =>
    have hmerge := hearlier.merge? hc
    by_cases hrepeat : kind.isRepeatable = true
    · simp only [hrepeat, if_true]
      generalize Clause.merge? _ c = merged at hmerge ⊢
      generalize Clause.merge? _ c' = merged' at hmerge ⊢
      cases hmerge with
      | none => exact .error _ _
      | some hmerged => exact .ok (hset.insert kind hmerged)
    · simp only [hrepeat]
      exact .error _ _

theorem Alike.check (h : Alike ctx ctx') {set set' : ClauseSet} (hset : set.Alike set') :
    Follows ClauseSet.Alike (ctx.check set) (ctx'.check set') := by
  have hcontains : set'.contains = set.contains := funext hset.contains
  unfold ClauseContext.check conflict? lack?
  rw [h.kind, hcontains]
  split
  · exact .error _ _
  · exact .ok hset

/-- What reads once reads again. -/
theorem Alike.readAll (h : Alike ctx ctx') (tokens : List Text) :
    Follows ClauseSet.Alike (ctx.readAll tokens).outcome (ctx'.readAll tokens).outcome := by
  simp only [ClauseContext.readAll, Logged.outcome_bind, Logged.outcome_foldlM,
    Logged.outcome_lift]
  refine Follows.bind ?_ fun set set' hset => h.check hset
  have hfold := Follows.foldlM (m := id) (fun _ => ClauseSet.Alike)
    (f := fun set w => (ctx.readAndAdd set w).outcome)
    (g := fun set w => (ctx'.readAndAdd set w).outcome) ?_ (WrittenClause.group tokens)
    ClauseSet.Alike.empty
  · rwa [List.map_id] at hfold
  · intro w rest set set' hset
    simp only [readAndAdd, readLogged, Logged.outcome_bind, Logged.outcome_lift,
      Logged.outcome_log, Logged.outcome_pure]
    refine Follows.bind (R := fun p p' => p.1 = p'.1 ∧ p.2.Alike p'.2)
      (.bind (h.readWritten w) fun p p' hp => .ok hp) ?_
    rintro ⟨kind, clause⟩ ⟨_, clause'⟩ ⟨rfl, hc⟩
    exact follows_add hset kind hc

end ClauseContext
end Offload
