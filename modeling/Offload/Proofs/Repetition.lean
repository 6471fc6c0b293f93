import Offload.Proofs.Roundtrip

/-!
Clauses that are repeated on a directive. Lists of one sort are joined, in the order in which they
are written; any other repetition is refused. The kinds that may be repeated are given by a table
of their own, in which `self` is missing: on `update` it has a list of variables and cannot be
repeated.
-/
namespace Offload

open Outcome

theorem Outcome.exists_of_mapM {ε α β : Type} {f : α → Except ε β} {as : List α} {bs : List β}
    {a : α} (h : as.mapM f = .ok bs) (ha : a ∈ as) : ∃ b, f a = .ok b := by
  induction as generalizing bs with
  | nil => simp at ha
  | cons first as ih =>
    rw [List.mapM_cons] at h
    obtain ⟨b, hb, h⟩ := bind_eq_ok.1 h
    obtain ⟨rest, hrest, -⟩ := bind_eq_ok.1 h
    rcases List.mem_cons.1 ha with rfl | ha
    · exact ⟨b, hb⟩
    · exact ih hrest ha

/-! Lists of one sort. -/

inductive ListSort
  | vars
  | deviceTypes
  | queues
  | reductions
deriving DecidableEq

/-- The sort of list that a value is. -/
def Clause.listSort? : Clause → Option ListSort
  | .vars _ => some .vars
  | .deviceTypes _ => some .deviceTypes
  | .wait _ => some .queues
  | .reduction _ => some .reductions
  | _ => none

/-- Both values are lists, of the same sort. -/
def Clause.SameList (a b : Clause) : Prop :=
  ∃ sort, a.listSort? = some sort ∧ b.listSort? = some sort

/-- The sort of list that the clauses of a kind have on a directive. -/
def ClauseKind.listSort? (directive : DirectiveKind) : ClauseKind → Option ListSort
  | .wait => some .queues
  | .deviceType => some .deviceTypes
  | .reduction => some .reductions
  | .self => if directive = .update then some .vars else none
  | .copy | .copyIn | .copyOut | .create | .noCreate | .present | .devicePointer | .attach
  | .detach | .delete | .deviceResident | .link | .useDevice | .host | .device | .privateCopy
  | .firstPrivate => some .vars
  | _ => none

theorem Clause.exists_merge?_iff {a b : Clause} : (∃ m, a.merge? b = some m) ↔ a.SameList b := by
  constructor
  · rintro ⟨m, hm⟩
    rcases merge?_cases hm with ⟨u, v, rfl, rfl, -⟩ | ⟨u, v, rfl, rfl, -⟩ | ⟨u, v, rfl, rfl, -⟩ |
      ⟨u, v, rfl, rfl, -⟩ <;> exact ⟨_, rfl, rfl⟩
  · rintro ⟨sort, ha, hb⟩
    cases a <;> simp only [listSort?, Option.some.injEq, reduceCtorEq] at ha <;> subst ha <;>
      cases b <;> simp [listSort?] at hb <;> exact ⟨_, rfl⟩

theorem Clause.Fits.listSort? {directive : DirectiveKind} {kind : ClauseKind} {value : Clause}
    (h : value.Fits directive kind) : value.listSort? = kind.listSort? directive := by
  cases h with
  | size hform | number _ hform | vars hform | flag hform =>
    cases kind <;> simp [ClauseKind.sharedForm?] at hform <;> rfl
  | selfVars hupdate => simp [Clause.listSort?, ClauseKind.listSort?, hupdate]
  | selfCondition _ hother | unconditional hother =>
    simp [Clause.listSort?, ClauseKind.listSort?, hother]
  | _ => rfl

/-- Of the kinds with a list, only `self` on `update` may not be repeated. -/
theorem ClauseKind.isSome_listSort?_iff {directive : DirectiveKind} {kind : ClauseKind} :
    (kind.listSort? directive).isSome = true ↔
      kind.isRepeatable = true ∨ kind = .self ∧ directive = .update := by
  cases kind <;> simp [listSort?, isRepeatable]

theorem Clause.Fits.sameList_iff {directive : DirectiveKind} {kind : ClauseKind} {a b : Clause}
    (ha : a.Fits directive kind) (hb : b.Fits directive kind) :
    a.SameList b ↔ kind.isRepeatable = true ∨ kind = .self ∧ directive = .update := by
  rw [Clause.SameList, ha.listSort?, hb.listSort?, ← ClauseKind.isSome_listSort?_iff,
    Option.isSome_iff_exists]
  simp only [and_self]

namespace ClauseKind

variable {directive : DirectiveKind} {kind : ClauseKind} {values : List Clause}

/-- Clauses of a kind that may be repeated can always stand together. -/
theorem exists_collect? (hr : kind.isRepeatable = true)
    (hfits : ∀ value ∈ values, value.Fits directive kind) :
    ∃ result, kind.collect? values = some result := by
  induction values using List.reverseRecOn with
  | nil => exact ⟨none, rfl⟩
  | append_singleton front last ih =>
    obtain ⟨hfront, hlast⟩ := List.forall_mem_append.1 hfits
    obtain ⟨earlier, hearlier⟩ := ih hfront
    have hlast := hlast last List.mem_cons_self
    cases earlier with
    | none => exact ⟨some last, collect?_concat.2 ⟨none, last, hearlier, rfl, rfl⟩⟩
    | some value =>
      have hvalue : value.Fits directive kind :=
        collect?_induction hfront (fun a b m ha hb hm => ha.merge hb hr hm) hearlier
      obtain ⟨joined, hjoined⟩ :=
        Clause.exists_merge?_iff.2 ((hvalue.sameList_iff hlast).2 (.inl hr))
      refine ⟨some joined, collect?_concat.2 ⟨some value, joined, hearlier, ?_, rfl⟩⟩
      rw [extend?, if_pos hr, hjoined]

theorem collect?_eq_none_iff (hfits : ∀ value ∈ values, value.Fits directive kind) :
    kind.collect? values = none ↔ kind.isRepeatable = false ∧ 2 ≤ values.length := by
  cases hr : kind.isRepeatable with
  | true =>
    obtain ⟨result, hresult⟩ := exists_collect? hr hfits
    simp [hresult]
  | false =>
    rcases values with _ | ⟨first, _ | ⟨second, rest⟩⟩
    · simp [collect?]
    · simp [collect?, extend?]
    · simp [collect?, extend?, hr]

end ClauseKind

/-- What lists of variables are joined to. -/
theorem Clause.Concat.eq_vars {lists : List VarList} {clause : Clause}
    (h : Concat (lists.map .vars) clause) (hne : lists ≠ []) :
    clause = .vars ⟨lists.any VarList.readonly, lists.flatMap VarList.vars⟩ := by
  obtain ⟨first, rest, rfl⟩ := List.exists_cons_of_ne_nil hne
  generalize hvalues : (first :: rest).map Clause.vars = values at h
  cases h with
  | vars lists =>
    have hinj : Function.Injective Clause.vars := fun a b => Clause.vars.inj
    rw [List.map_injective_iff.2 hinj hvalues]
  | reduction lists | wait lists | deviceTypes lists =>
    cases lists <;> simp at hvalues

/-! Clauses with their values. -/

/-- The values of a kind, in the order in which they are written. -/
def ClauseKind.valuesIn (kind : ClauseKind) (pairs : List (ClauseKind × Clause)) : List Clause :=
  (pairs.filter (·.1 == kind)).map Prod.snd

namespace ClauseContext

variable {ctx : ClauseContext} {ws : List WrittenClause} {pairs : List (ClauseKind × Clause)}
  {tokens : List Text}

/-- The values of a kind are read from the clauses of that kind. -/
theorem mapM_writtenIn (h : ws.mapM ctx.readWritten = .ok pairs) (kind : ClauseKind) :
    (kind.writtenIn ws).mapM (fun w => ctx.read kind w.argument) = .ok (kind.valuesIn pairs) := by
  induction ws generalizing pairs with
  | nil =>
    obtain rfl := Except.ok.inj h
    rfl
  | cons w ws ih =>
    rw [List.mapM_cons] at h
    obtain ⟨⟨found, value⟩, hfound, h⟩ := bind_eq_ok.1 h
    obtain ⟨rest, hrest, h⟩ := bind_eq_ok.1 h
    obtain rfl := Except.ok.inj h
    obtain ⟨hresolve, hread⟩ := readWritten_eq_ok_iff.1 hfound
    have hkeyword := (resolve_eq_ok_iff.1 hresolve).1
    by_cases hkind : found = kind
    · subst hkind
      have hmore := ih hrest
      simp only [ClauseKind.writtenIn, ClauseKind.valuesIn] at hmore ⊢
      rw [List.filter_cons_of_pos (by simp [hkeyword]), List.filter_cons_of_pos (by simp),
        List.mapM_cons, hread, ok_bind, hmore]
      rfl
    · have hne : w.keyword ≠ kind.keyword := by
        rw [hkeyword, ne_eq, ClauseKind.keyword_inj]
        exact hkind
      have hmore := ih hrest
      simp only [ClauseKind.writtenIn, ClauseKind.valuesIn] at hmore ⊢
      rw [List.filter_cons_of_neg (by simp [hne]), List.filter_cons_of_neg (by simp [hkind]), hmore]

theorem fits_of_mem_valuesIn (h : ws.mapM ctx.readWritten = .ok pairs) {kind : ClauseKind}
    {value : Clause} (hvalue : value ∈ kind.valuesIn pairs) : value.Fits ctx.kind kind := by
  obtain ⟨w, -, hread⟩ := exists_of_mem_mapM (mapM_writtenIn h kind) hvalue
  exact fits_of_read hread

/-- Clauses that can be read make the set in which each kind has what its values make together. -/
theorem gathers_iff (h : ws.mapM ctx.readWritten = .ok pairs) {set : ClauseSet} :
    Gathers ctx ws set ↔ ∀ kind, kind.collect? (kind.valuesIn pairs) = some (set.get? kind) := by
  constructor
  · intro hset kind
    obtain ⟨values, hvalues, hcollect⟩ := hset.values kind
    rw [mapM_writtenIn h kind] at hvalues
    obtain rfl := Except.ok.inj hvalues
    exact hcollect
  · intro hset
    refine ⟨fun w hw => ?_, fun kind => ⟨_, mapM_writtenIn h kind, hset kind⟩⟩
    obtain ⟨⟨kind, value⟩, hread⟩ := exists_of_mapM h hw
    exact ⟨kind, (readWritten_eq_ok_iff.1 hread).1⟩

theorem readAll_outcome (ctx : ClauseContext) (tokens : List Text) :
    (ctx.readAll tokens).outcome =
      (WrittenClause.group tokens).foldlM (fun set w => (ctx.readAndAdd set w).outcome) ∅ >>=
        ctx.check := by
  simp only [readAll, Logged.outcome_bind, Logged.outcome_foldlM, Logged.outcome_lift]

theorem add_eq_error {set : ClauseSet} {kind : ClauseKind} {clause : Clause} {e : Error}
    (h : ctx.add set kind clause = .error e) :
    e = .clause ctx.line (.duplicate kind ctx.kind) := by
  unfold add at h
  cases hget : set.get? kind with
  | none => simp [hget] at h
  | some earlier =>
    simp only [hget] at h
    split at h
    · simp at h
    · exact (Except.error.inj h).symm

/-- Clauses that can be read fail to make a set only because one is repeated. -/
theorem foldlM_fails_with_duplicate (h : ws.mapM ctx.readWritten = .ok pairs) {e : Error}
    (he : ws.foldlM (fun set w => (ctx.readAndAdd set w).outcome) ∅ = .error e) :
    ∃ kind, e = .clause ctx.line (.duplicate kind ctx.kind) := by
  obtain ⟨before, w, behind, set, hws, -, hfails⟩ := exists_of_foldlM_error he
  obtain ⟨⟨kind, value⟩, hread⟩ := exists_of_mapM h (a := w) (by rw [hws]; simp)
  rw [readAndAdd_outcome, hread, ok_bind] at hfails
  exact ⟨kind, add_eq_error hfails⟩

/-- The checks of the whole set find no duplicates. -/
theorem category_of_check {set : ClauseSet} {line : Nat} {fault : ClauseFault}
    (h : ctx.check set = .error (.clause line fault)) : fault.category ≠ .duplicate := by
  unfold check at h
  split at h
  · next found hfound =>
    obtain ⟨-, rfl⟩ := Error.clause.inj (Except.error.inj h)
    rw [Option.orElse_eq_orElse, Option.orElse_eq_or, Option.or_eq_some_iff] at hfound
    rcases hfound with hconflict | ⟨-, hlack⟩
    · obtain ⟨⟨first, excluded⟩, -, hpair⟩ := List.exists_of_findSome?_eq_some hconflict
      dsimp only at hpair
      split at hpair
      · obtain ⟨other, -, rfl⟩ := Option.map_eq_some_iff.1 hpair
        simp [ClauseFault.category]
      · simp at hpair
    · unfold lack? at hlack
      split at hlack
      · simp at hlack
      · split at hlack
        · simp at hlack
        · rw [← Option.some.inj hlack]
          simp [ClauseFault.category]
  · simp at h

/-- Reading fails because of a repeated clause. -/
def FailsAsDuplicate (ctx : ClauseContext) (tokens : List Text) : Prop :=
  ∃ line fault, (ctx.readAll tokens).outcome = .error (.clause line fault) ∧
    fault.category = .duplicate

theorem failsAsDuplicate_iff (h : (WrittenClause.group tokens).mapM ctx.readWritten = .ok pairs) :
    FailsAsDuplicate ctx tokens ↔
      ∃ kind : ClauseKind, kind.isRepeatable = false ∧ 2 ≤ (kind.valuesIn pairs).length := by
  have hfits : ∀ kind : ClauseKind, ∀ value ∈ kind.valuesIn pairs, value.Fits ctx.kind kind :=
    fun kind value hvalue => fits_of_mem_valuesIn h hvalue
  unfold FailsAsDuplicate
  rw [readAll_outcome]
  constructor
  · rintro ⟨line, fault, hfails, hcategory⟩
    by_contra hnone
    -- Then each kind's values can stand together, and reading comes to the checks.
    have hcollect : ∀ kind : ClauseKind, ∃ result,
        kind.collect? (kind.valuesIn pairs) = some result := by
      intro kind
      rw [← Option.isSome_iff_exists, Option.isSome_iff_ne_none, Ne,
        ClauseKind.collect?_eq_none_iff (hfits kind)]
      exact fun hboth => hnone ⟨kind, hboth⟩
    choose result hresult using hcollect
    have hgathers : Gathers ctx (WrittenClause.group tokens) ⟨result⟩ := (gathers_iff h).2 hresult
    rw [foldlM_readAndAdd_eq_ok_iff.2 hgathers, ok_bind] at hfails
    exact category_of_check hfails hcategory
  · rintro ⟨kind, hboth⟩
    cases hfold : (WrittenClause.group tokens).foldlM
        (fun set w => (ctx.readAndAdd set w).outcome) ∅ with
    | ok set =>
      have hset := (gathers_iff h).1 (foldlM_readAndAdd_eq_ok_iff.1 hfold) kind
      rw [(ClauseKind.collect?_eq_none_iff (hfits kind)).2 hboth] at hset
      simp at hset
    | error e =>
      obtain ⟨other, rfl⟩ := foldlM_fails_with_duplicate h hfold
      exact ⟨_, _, rfl, rfl⟩

/-- What the values of one kind make together. -/
inductive Joined : List Clause → Option Clause → Prop
  | none : Joined [] none
  | single (value : Clause) : Joined [value] (some value)
  | list {values : List Clause} {clause : Clause} : 2 ≤ values.length →
    Clause.Concat values clause → Joined values (some clause)

theorem joined_of_collect? {kind : ClauseKind} {values : List Clause} {result : Option Clause}
    (hfits : ∀ value ∈ values, value.Fits ctx.kind kind)
    (h : kind.collect? values = some result) : Joined values result := by
  rcases values with _ | ⟨first, _ | ⟨second, rest⟩⟩
  · obtain rfl := Option.some.inj h
    exact .none
  · obtain rfl := Option.some.inj h
    exact .single first
  · have hlength : 2 ≤ (first :: second :: rest).length := by simp
    have hsome := (ClauseKind.collect?_isSome_iff h).2 (by simp)
    obtain ⟨clause, rfl⟩ := Option.isSome_iff_exists.1 hsome
    cases hr : kind.isRepeatable with
    | true => exact .list hlength (Clause.concat_of_collect? hr hfits h)
    | false =>
      rw [(ClauseKind.collect?_eq_none_iff hfits).2 ⟨hr, hlength⟩] at h
      simp at h

theorem Joined.exists_concat {values : List Clause} {result : Option Clause}
    (h : Joined values result) (hlength : 2 ≤ values.length) :
    ∃ clause, result = some clause ∧ Clause.Concat values clause := by
  cases h with
  | none => simp at hlength
  | single => simp at hlength
  | list _ hconcat => exact ⟨_, rfl, hconcat⟩

/-- Clauses that can all be read are refused as duplicates exactly if two of one kind are not lists
of one sort, or if `self`, which has a list there, is repeated on `update`. All others are joined. -/
theorem duplicate_iff_unlike_or_self
    (h : (WrittenClause.group tokens).mapM ctx.readWritten = .ok pairs) :
    (FailsAsDuplicate ctx tokens ↔
      (∃ kind a b, [a, b].Sublist (ClauseKind.valuesIn kind pairs) ∧ ¬ a.SameList b) ∨
        ctx.kind = .update ∧ 2 ≤ (ClauseKind.self.valuesIn pairs).length) ∧
    (ctx.kind = .update →
      ∀ value ∈ ClauseKind.self.valuesIn pairs, value.listSort? = some .vars) ∧
    (FailsAsDuplicate ctx tokens ∨
      ∃ set, (ctx.readAll tokens).outcome = ctx.check set ∧
        ∀ kind, Joined (kind.valuesIn pairs) (set.get? kind)) := by
  have hfits : ∀ {kind : ClauseKind}, ∀ value ∈ kind.valuesIn pairs, value.Fits ctx.kind kind :=
    fun value hvalue => fits_of_mem_valuesIn h hvalue
  refine ⟨?_, ?_, ?_⟩
  · rw [failsAsDuplicate_iff h]
    constructor
    · rintro ⟨kind, hr, hlength⟩
      rcases hvalues : kind.valuesIn pairs with _ | ⟨a, _ | ⟨b, rest⟩⟩
      · simp [hvalues] at hlength
      · simp [hvalues] at hlength
      · have hsub : [a, b].Sublist (kind.valuesIn pairs) := by simp [hvalues]
        have hsame := (hfits a (hsub.subset (by simp))).sameList_iff (hfits b (hsub.subset (by simp)))
        by_cases hlists : a.SameList b
        · rcases hsame.1 hlists with hr' | ⟨rfl, hupdate⟩
          · simp [hr] at hr'
          · exact .inr ⟨hupdate, by simp [hvalues]⟩
        · exact .inl ⟨kind, a, b, hsub, hlists⟩
    · rintro (⟨kind, a, b, hsub, hlists⟩ | ⟨-, hlength⟩)
      · have hsame := (hfits a (hsub.subset (by simp))).sameList_iff (hfits b (hsub.subset (by simp)))
        rw [hsame, not_or] at hlists
        exact ⟨kind, by simpa using hlists.1, hsub.length_le⟩
      · exact ⟨.self, rfl, hlength⟩
  · intro hupdate value hvalue
    rw [(hfits value hvalue).listSort?, hupdate]
    rfl
  · cases hfold : (WrittenClause.group tokens).foldlM
        (fun set w => (ctx.readAndAdd set w).outcome) ∅ with
    | ok set =>
      right
      refine ⟨set, by rw [readAll_outcome, hfold, ok_bind], fun kind => ?_⟩
      exact joined_of_collect? hfits ((gathers_iff h).1 (foldlM_readAndAdd_eq_ok_iff.1 hfold) kind)
    | error e =>
      left
      obtain ⟨kind, rfl⟩ := foldlM_fails_with_duplicate h hfold
      exact ⟨_, _, by rw [readAll_outcome, hfold]; rfl, rfl⟩

/-- An `update` on its own. -/
def updateContext : ClauseContext where
  kind := .update
  line := 0
  region := none
  source := .ofText Source.defaultTabWidth ""
  ancestors := []

/-- Two lists of `self` are refused where two lists of `host` become one. -/
theorem selfLists_refused_hostLists_joined :
    FailsAsDuplicate updateContext ["self(a)", "self(b)"] ∧
      ∃ set, (updateContext.readAll ["host(a)", "host(b)"]).outcome = updateContext.check set ∧
        set.get? .host = some (.vars ⟨false, ["a", "b"]⟩) := by
  have hself : (WrittenClause.group ["self(a)", "self(b)"]).mapM updateContext.readWritten =
      .ok [(.self, .vars ⟨false, ["a"]⟩), (.self, .vars ⟨false, ["b"]⟩)] :=
    eq_ok_of_toOption (by decide +kernel)
  have hhost : (WrittenClause.group ["host(a)", "host(b)"]).mapM updateContext.readWritten =
      .ok [(.host, .vars ⟨false, ["a"]⟩), (.host, .vars ⟨false, ["b"]⟩)] :=
    eq_ok_of_toOption (by decide +kernel)
  constructor
  · exact (duplicate_iff_unlike_or_self hself).1.2 (.inr ⟨rfl, by decide⟩)
  · obtain ⟨-, -, hjoined⟩ := duplicate_iff_unlike_or_self hhost
    rcases hjoined with ⟨line, fault, hfails, -⟩ | ⟨set, hset, hvalues⟩
    · have hok : (updateContext.readAll ["host(a)", "host(b)"]).outcome.toOption.isSome = true := by
        decide +kernel
      rw [hfails] at hok
      simp [Except.toOption] at hok
    · refine ⟨set, hset, ?_⟩
      obtain ⟨clause, hget, hconcat⟩ := (hvalues .host).exists_concat (by decide)
      have hlists : Clause.Concat (List.map .vars [⟨false, ["a"]⟩, ⟨false, ["b"]⟩]) clause := hconcat
      rw [hget, hlists.eq_vars (by simp)]
      rfl

end ClauseContext

end Offload
