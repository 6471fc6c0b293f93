import Offload.Clause.Reader
import Offload.Proofs.Outcome
import Mathlib.Data.List.DropRight

/-!
Clauses that have been read. Every value has the form that its kind prescribes, which joining
repeated clauses keeps, and the whole set holds no two clauses that exclude each other and does not
lack what its directive needs.
-/
namespace Offload

open Outcome

/-! Items of arguments. -/

namespace Text

theorem stripWhile_stripWhile (p : Char → Bool) (t : Text) :
    stripWhile p (stripWhile p t) = stripWhile p t := by
  have hfront : (dropEndWhile p (t.dropWhile p)).dropWhile p = dropEndWhile p (t.dropWhile p) := by
    obtain ⟨rest, hrest⟩ := List.rdropWhile_prefix p (l := t.dropWhile p)
    change dropEndWhile p (t.dropWhile p) ++ rest = t.dropWhile p at hrest
    have hself := List.dropWhile_eq_self_iff.1 (List.dropWhile_idempotent p t)
    generalize t.dropWhile p = u at hrest hself ⊢
    generalize dropEndWhile p u = front at hrest ⊢
    subst hrest
    cases front with
    | nil => rfl
    | cons c cs =>
      have hc : ¬ p c = true := hself (by simp)
      exact List.dropWhile_cons_of_neg hc
  rw [stripWhile, stripWhile, hfront]
  exact List.rdropWhile_idempotent p (t.dropWhile p)

theorem trim_trim (t : Text) : trim (trim t) = trim t := stripWhile_stripWhile isBlank t

end Text

/-- A list of names or expressions: there is one, and none is empty or has blanks around it. -/
structure Itemized (items : List Text) : Prop where
  some_item : items ≠ []
  trimmed : ∀ item ∈ items, item ≠ [] ∧ Text.trim item = item

theorem Itemized.append {items more : List Text} (h : Itemized items) (h' : Itemized more) :
    Itemized (items ++ more) where
  some_item := by simp [h.some_item]
  trimmed := by
    intro item hitem
    rcases List.mem_append.1 hitem with hitem | hitem
    · exact h.trimmed item hitem
    · exact h'.trimmed item hitem

theorem itemized_argumentItems {t : Text} (h : argumentItems t ≠ []) :
    Itemized (argumentItems t) where
  some_item := h
  trimmed := by
    intro item hitem
    obtain ⟨hpiece, hne⟩ := List.mem_filter.1 hitem
    obtain ⟨piece, -, rfl⟩ := List.mem_map.1 hpiece
    exact ⟨by simpa using hne, Text.trim_trim piece⟩

/-! Single arguments. -/

/-- A number of gangs and a chunk size that are not the numeral zero. -/
structure Gang.Positive (g : Gang) : Prop where
  num : ∀ n, g.num = some n → n ≠ .literal 0
  static : ∀ s, g.static = some s → s ≠ .fixed (.literal 0)

namespace Argument

variable {clause : ClauseKind} {t : Text}

theorem itemized_of_names {vars : List Text} (h : names clause t = .ok vars) : Itemized vars := by
  unfold names at h
  split at h
  · simp at h
  · next items hitems =>
    obtain rfl := Except.ok.inj h
    exact itemized_argumentItems hitems

theorem positive_ne_zero {e : IntExpr} (h : positive clause t = .ok e) : e ≠ .literal 0 := by
  simp only [positive] at h
  split at h
  · simp at h
  · next hzero =>
    obtain rfl := Except.ok.inj h
    intro hliteral
    exact hzero (by rw [hliteral]; rfl)

theorem one_le_count {n : UInt32} (h : count clause t = .ok n) : 1 ≤ n.toNat := by
  simp only [count] at h
  split at h
  · next value _ =>
    split at h
    · simp at h
    · next hzero =>
      obtain rfl := Except.ok.inj h
      have hne : value.toNat ≠ 0 := fun hn => hzero (UInt32.toNat_inj.1 hn)
      omega
  · simp at h

theorem size_ne_zero {s : SizeExpr} (h : size clause t = .ok s) : s ≠ .fixed (.literal 0) := by
  unfold size at h
  split at h
  · obtain rfl := Except.ok.inj h
    simp
  · obtain ⟨e, he, rfl⟩ := map_eq_ok.1 h
    simpa using positive_ne_zero he

theorem itemized_of_reduction {r : Reduction} (h : reduction t = .ok r) : Itemized r.vars := by
  unfold reduction at h
  split at h
  · simp at h
  · split at h
    · simp at h
    · split at h
      · simp at h
      · next items hitems =>
        obtain rfl := Except.ok.inj h
        exact itemized_argumentItems hitems

theorem positive_gangItem {g g' : Gang} {item : Text} (hg : g.Positive)
    (h : gangItem g item = .ok g') : g'.Positive := by
  unfold gangItem at h
  -- Whatever name and value the item has, at most one of the two fields is set.
  split at h
  all_goals
    split at h
    · split at h
      · simp at h
      · obtain ⟨n, hn, rfl⟩ := map_eq_ok.1 h
        exact ⟨by simpa using positive_ne_zero hn, hg.static⟩
    · split at h
      · split at h
        · simp at h
        · obtain ⟨s, hs, rfl⟩ := map_eq_ok.1 h
          exact ⟨hg.num, by simpa using size_ne_zero hs⟩
      · simp at h

theorem positive_of_gang {g : Gang} (h : gang t = .ok g) : g.Positive :=
  foldlM_ok (fun _ g => g.Positive) (fun _ _ _ _ hg h => positive_gangItem hg h)
    (by constructor <;> simp) h

end Argument

theorem length_of_associateLoops {s : Source} {span : Span} {count line : Nat}
    {loops : List AssociatedLoop} (h : associateLoops s span count line = .ok loops) :
    loops.length = count := by
  simp only [associateLoops] at h
  split at h
  · next hcount =>
    rw [← hcount]
    exact length_of_mapM h
  · simp at h

/-! Forms of values. -/

/-- Forms of values that several kinds have in common. -/
inductive SharedForm
  /-- The size of a construct, which is not zero. -/
  | size
  | number
  | vars
  | flag

def ClauseKind.sharedForm? : ClauseKind → Option SharedForm
  | .numGangs | .numWorkers | .vectorLength => some .size
  | .defaultAsync | .deviceNum => some .number
  | .copy | .copyIn | .copyOut | .create | .noCreate | .present | .devicePointer | .attach
  | .detach | .delete | .deviceResident | .link | .useDevice | .host | .device | .privateCopy
  | .firstPrivate => some .vars
  | .seq | .auto | .independent | .read | .write | .update | .capture | .noHost | .ifPresent
  | .finalize => some .flag
  | _ => none

/-- The values that a clause of a kind has on a directive. -/
inductive Clause.Fits (directive : DirectiveKind) : ClauseKind → Clause → Prop
  | async (queue : Option IntExpr) : Fits directive .async (.async queue)
  | wait (queues : List IntExpr) : Fits directive .wait (.wait queues)
  | size {kind : ClauseKind} {e : IntExpr} : kind.sharedForm? = some .size → e ≠ .literal 0 →
    Fits directive kind (.int e)
  | number {kind : ClauseKind} (e : IntExpr) : kind.sharedForm? = some .number →
    Fits directive kind (.int e)
  | deviceTypes {types : List Text} : Itemized types →
    Fits directive .deviceType (.deviceTypes types)
  | condition (text : Text) : Fits directive .ifCondition (.condition text)
  | selfVars {vars : List Text} : directive = .update → Itemized vars →
    Fits directive .self (.vars { vars })
  | selfCondition (text : Text) : directive ≠ .update → Fits directive .self (.condition text)
  | unconditional : directive ≠ .update → Fits directive .self .unconditional
  | reduction {reductions : List Reduction} : reductions ≠ [] →
    (∀ r ∈ reductions, Itemized r.vars) → Fits directive .reduction (.reduction reductions)
  | vars {kind : ClauseKind} {list : VarList} : kind.sharedForm? = some .vars →
    Itemized list.vars → (list.readonly = true → kind = .copyIn) → Fits directive kind (.vars list)
  | default (rule : DefaultRule) : Fits directive .default (.default rule)
  | collapse {count : UInt32} {loops : List AssociatedLoop} : 1 ≤ count.toNat →
    loops.length = count.toNat → Fits directive .collapse (.collapse count loops)
  | tile {sizes : List SizeExpr} {loops : List AssociatedLoop} : sizes ≠ [] →
    (∀ s ∈ sizes, s ≠ .fixed (.literal 0)) → loops.length = sizes.length →
    Fits directive .tile (.tile sizes loops)
  | gang {g : Gang} : g.Positive → Fits directive .gang (.gang g)
  | worker {count : Option UInt32} : (∀ n, count = some n → 1 ≤ n.toNat) →
    Fits directive .worker (.worker count)
  | vector {length : Option UInt32} : (∀ n, length = some n → 1 ≤ n.toNat) →
    Fits directive .vector (.vector length)
  | bind (name : Text) : Fits directive .bind (.bind name)
  | flag {kind : ClauseKind} : kind.sharedForm? = some .flag → Fits directive kind .flag

/-- The values that can be joined are lists of one sort. -/
theorem Clause.merge?_cases {a b m : Clause} (h : a.merge? b = some m) :
    (∃ u v, a = .vars u ∧ b = .vars v ∧ m = .vars ⟨u.readonly || v.readonly, u.vars ++ v.vars⟩) ∨
      (∃ u v, a = .reduction u ∧ b = .reduction v ∧ m = .reduction (u ++ v)) ∨
      (∃ u v, a = .wait u ∧ b = .wait v ∧ m = .wait (u ++ v)) ∨
      (∃ u v, a = .deviceTypes u ∧ b = .deviceTypes v ∧ m = .deviceTypes (u ++ v)) := by
  unfold merge? at h
  split at h
  · exact .inl ⟨_, _, rfl, rfl, (Option.some.inj h).symm⟩
  · exact .inr (.inl ⟨_, _, rfl, rfl, (Option.some.inj h).symm⟩)
  · exact .inr (.inr (.inl ⟨_, _, rfl, rfl, (Option.some.inj h).symm⟩))
  · exact .inr (.inr (.inr ⟨_, _, rfl, rfl, (Option.some.inj h).symm⟩))
  · simp at h

/-- Joining two values of a kind gives one of that kind. -/
theorem Clause.Fits.merge {directive : DirectiveKind} {kind : ClauseKind} {a b m : Clause}
    (ha : a.Fits directive kind) (hb : b.Fits directive kind) (hr : kind.isRepeatable = true)
    (h : a.merge? b = some m) : m.Fits directive kind := by
  rcases merge?_cases h with ⟨u, v, rfl, rfl, rfl⟩ | ⟨u, v, rfl, rfl, rfl⟩ | ⟨u, v, rfl, rfl, rfl⟩ |
    ⟨u, v, rfl, rfl, rfl⟩
  · cases ha with
    | selfVars => simp [ClauseKind.isRepeatable] at hr
    | vars hkind hu hureadonly =>
      cases hb with
      | selfVars => simp [ClauseKind.isRepeatable] at hr
      | vars _ hv hvreadonly =>
        refine .vars hkind (hu.append hv) fun hreadonly => ?_
        exact (Bool.or_eq_true_iff.1 hreadonly).elim hureadonly hvreadonly
  · cases ha with
    | reduction hu huvars =>
      cases hb with
      | reduction hv hvvars =>
        exact .reduction (by simp [hu]) (List.forall_mem_append.2 ⟨huvars, hvvars⟩)
  · cases ha with
    | wait => exact .wait (u ++ v)
  · cases ha with
    | deviceTypes hu =>
      cases hb with
      | deviceTypes hv => exact .deviceTypes (hu.append hv)

/-! Reading one clause. -/

namespace ClauseContext

variable {ctx : ClauseContext} {kind : ClauseKind} {argument : Option Text} {clause : Clause}

theorem located_eq_ok {α : Type} {x : Except SyntaxFault α} {a : α} :
    ctx.located x = .ok a ↔ x = .ok a := mapError_eq_ok

theorem fits_of_vars (h : vars kind argument = .ok clause) :
    ∃ vars, clause = .vars { vars } ∧ Itemized vars := by
  obtain ⟨text, -, h⟩ := bind_eq_ok.1 h
  obtain ⟨vars, hvars, h⟩ := bind_eq_ok.1 h
  exact ⟨vars, (Except.ok.inj h).symm, Argument.itemized_of_names hvars⟩

theorem one_le_of_size {constructClause : ClauseKind} {modifier : Text} {count : Option UInt32}
    (h : ctx.size kind constructClause modifier argument = .ok count) :
    ∀ n, count = some n → 1 ≤ n.toNat := by
  rintro n rfl
  cases argument with
  | none => simp [size] at h
  | some text =>
    obtain ⟨_, -, h⟩ := bind_eq_ok.1 h
    obtain ⟨value, hvalue, h⟩ := bind_eq_ok.1 h
    obtain ⟨_, -, h⟩ := bind_eq_ok.1 h
    obtain rfl := Option.some.inj (Except.ok.inj h)
    exact Argument.one_le_count (located_eq_ok.1 hvalue)

/-- The size check behind a `gang` leaves the value as it is. -/
theorem gang_eq_ok {text : Text} {g : Gang} (h : ctx.gang (some text) = .ok g) :
    Argument.gang text = .ok g ∧
      (g.num.isSome = true → ctx.checkSize .gang .numGangs text = .ok ()) := by
  obtain ⟨_, -, h⟩ := bind_eq_ok.1 h
  obtain ⟨value, hvalue, h⟩ := bind_eq_ok.1 h
  by_cases hnum : value.num.isSome = true
  · rw [if_pos hnum] at h
    obtain ⟨_, hcheck, h⟩ := bind_eq_ok.1 h
    obtain rfl := Except.ok.inj h
    exact ⟨located_eq_ok.1 hvalue, fun _ => hcheck⟩
  · rw [if_neg hnum] at h
    obtain rfl := Except.ok.inj h
    exact ⟨located_eq_ok.1 hvalue, fun hsome => absurd hsome hnum⟩

theorem positive_of_gang {g : Gang} (h : ctx.gang argument = .ok g) : g.Positive := by
  cases argument with
  | none =>
    obtain rfl := Except.ok.inj h
    constructor <;> simp
  | some text => exact Argument.positive_of_gang (gang_eq_ok h).1

theorem fits_of_collapse {directive : DirectiveKind} (h : ctx.collapse argument = .ok clause) :
    clause.Fits directive .collapse := by
  obtain ⟨text, -, h⟩ := bind_eq_ok.1 h
  obtain ⟨count, hcount, h⟩ := bind_eq_ok.1 h
  obtain ⟨span, -, h⟩ := bind_eq_ok.1 h
  obtain ⟨loops, hloops, h⟩ := bind_eq_ok.1 h
  obtain rfl := Except.ok.inj h
  exact .collapse (Argument.one_le_count (located_eq_ok.1 hcount)) (length_of_associateLoops hloops)

theorem fits_of_tile {directive : DirectiveKind} (h : ctx.tile argument = .ok clause) :
    clause.Fits directive .tile := by
  obtain ⟨text, -, h⟩ := bind_eq_ok.1 h
  obtain ⟨sizes, hsizes, h⟩ := bind_eq_ok.1 h
  have hpositive : ∀ s ∈ sizes, s ≠ .fixed (.literal 0) := by
    intro s hs
    obtain ⟨item, -, hitem⟩ := exists_of_mem_mapM (located_eq_ok.1 hsizes) hs
    exact Argument.size_ne_zero hitem
  by_cases hempty : sizes.isEmpty = true
  · rw [if_pos hempty] at h
    simp at h
  · rw [if_neg hempty] at h
    obtain ⟨span, -, h⟩ := bind_eq_ok.1 h
    obtain ⟨loops, hloops, h⟩ := bind_eq_ok.1 h
    obtain rfl := Except.ok.inj h
    exact .tile (by simpa using hempty) hpositive (length_of_associateLoops hloops)

/-- A value that has been read has the form of its kind. -/
theorem fits_of_read (h : ctx.read kind argument = .ok clause) : clause.Fits ctx.kind kind := by
  unfold read at h
  split at h
  case h_1 => exact fits_of_collapse h
  case h_2 => exact fits_of_tile h
  case h_3 =>
    obtain ⟨g, hg, rfl⟩ := map_eq_ok.1 h
    exact .gang (positive_of_gang hg)
  case h_4 =>
    obtain ⟨count, hcount, rfl⟩ := map_eq_ok.1 h
    exact .worker (one_le_of_size hcount)
  case h_5 =>
    obtain ⟨length, hlength, rfl⟩ := map_eq_ok.1 h
    exact .vector (one_le_of_size hlength)
  case h_6 =>
    obtain rfl := Except.ok.inj h
    exact .async _
  case h_7 =>
    obtain rfl := Except.ok.inj h
    exact .wait _
  case h_8 | h_9 | h_10 =>
    obtain ⟨text, -, h⟩ := bind_eq_ok.1 (located_eq_ok.1 h)
    obtain ⟨e, he, h⟩ := bind_eq_ok.1 h
    obtain rfl := Except.ok.inj h
    exact .size rfl (Argument.positive_ne_zero he)
  case h_11 | h_12 =>
    obtain ⟨text, -, h⟩ := bind_eq_ok.1 (located_eq_ok.1 h)
    obtain rfl := Except.ok.inj h
    exact .number _ rfl
  case h_13 =>
    obtain ⟨text, -, h⟩ := bind_eq_ok.1 (located_eq_ok.1 h)
    obtain ⟨types, htypes, h⟩ := bind_eq_ok.1 h
    obtain rfl := Except.ok.inj h
    exact .deviceTypes (Argument.itemized_of_names htypes)
  case h_14 =>
    obtain ⟨text, -, h⟩ := bind_eq_ok.1 (located_eq_ok.1 h)
    obtain rfl := Except.ok.inj h
    exact .condition text
  case h_15 =>
    split at h
    · next hupdate =>
      obtain ⟨vars, rfl, hvars⟩ := fits_of_vars (located_eq_ok.1 h)
      exact .selfVars hupdate hvars
    · next hother =>
      obtain rfl := Except.ok.inj h
      unfold selfCondition
      split
      · exact .selfCondition _ hother
      · exact .unconditional hother
  case h_16 =>
    obtain ⟨text, -, h⟩ := bind_eq_ok.1 (located_eq_ok.1 h)
    obtain ⟨r, hr, h⟩ := bind_eq_ok.1 h
    obtain rfl := Except.ok.inj h
    exact .reduction (by simp) (by simpa using Argument.itemized_of_reduction hr)
  case h_17 =>
    obtain ⟨rule, -, rfl⟩ := map_eq_ok.1 (located_eq_ok.1 h)
    exact .default rule
  case h_18 =>
    obtain ⟨name, -, rfl⟩ := map_eq_ok.1 (located_eq_ok.1 h)
    exact .bind name
  case h_19 =>
    obtain ⟨text, -, h⟩ := bind_eq_ok.1 (located_eq_ok.1 h)
    obtain ⟨vars, hvars, h⟩ := bind_eq_ok.1 h
    obtain rfl := Except.ok.inj h
    exact .vars rfl (Argument.itemized_of_names hvars) fun _ => rfl
  case h_36 | h_37 | h_38 | h_39 | h_40 | h_41 | h_42 | h_43 | h_44 | h_45 =>
    obtain ⟨_, -, h⟩ := bind_eq_ok.1 (located_eq_ok.1 h)
    obtain rfl := Except.ok.inj h
    exact .flag rfl
  all_goals
    -- The kinds that are left name variables, none of them with a modifier.
    obtain ⟨vars, rfl, hvars⟩ := fits_of_vars (located_eq_ok.1 h)
    exact .vars rfl hvars nofun

/-! Reading all clauses. -/

theorem readAndAdd_outcome (ctx : ClauseContext) (set : ClauseSet) (w : WrittenClause) :
    (ctx.readAndAdd set w).outcome =
      ctx.readWritten w >>= fun (kind, clause) => ctx.add set kind clause := by
  simp [readAndAdd, readLogged]

theorem readWritten_eq_ok {w : WrittenClause} (h : ctx.readWritten w = .ok (kind, clause)) :
    ctx.kind.accepts kind = true ∧ ctx.read kind w.argument = .ok clause := by
  obtain ⟨resolved, hresolved, h⟩ := bind_eq_ok.1 h
  obtain ⟨value, hvalue, h⟩ := bind_eq_ok.1 h
  obtain ⟨rfl, rfl⟩ := Prod.mk.inj (Except.ok.inj h)
  unfold resolve at hresolved
  split at hresolved
  · next found hfound =>
    obtain rfl := Except.ok.inj hresolved
    exact ⟨(Option.filter_eq_some_iff.1 hfound).2, hvalue⟩
  · simp at hresolved

/-- A clause goes into a set as it is, or joined to the earlier one of its kind. -/
theorem add_eq_ok {set set' : ClauseSet} (h : ctx.add set kind clause = .ok set') :
    set.get? kind = none ∧ set' = set.insert kind clause ∨
      ∃ earlier merged, set.get? kind = some earlier ∧ kind.isRepeatable = true ∧
        earlier.merge? clause = some merged ∧ set' = set.insert kind merged := by
  unfold add at h
  split at h
  · next hnone => exact .inl ⟨hnone, (Except.ok.inj h).symm⟩
  · next earlier hearlier =>
    split at h
    · next merged hmerged =>
      by_cases hr : kind.isRepeatable = true
      · rw [if_pos hr] at hmerged
        exact .inr ⟨earlier, merged, hearlier, hr, hmerged, (Except.ok.inj h).symm⟩
      · rw [if_neg hr] at hmerged
        simp at hmerged
    · simp at h

theorem readAll_eq_ok {tokens : List Text} {set : ClauseSet} :
    (ctx.readAll tokens).outcome = .ok set ↔
      (WrittenClause.group tokens).foldlM (fun set w => (ctx.readAndAdd set w).outcome) ∅ =
        .ok set ∧ conflict? ctx.kind set = none ∧ lack? ctx.kind set = none := by
  have hcheck : ∀ read, ctx.check read = .ok set ↔
      read = set ∧ conflict? ctx.kind set = none ∧ lack? ctx.kind set = none := by
    intro read
    rw [check]
    split
    · next fault hfault =>
      simp only [reduceCtorEq, false_iff, not_and]
      rintro rfl hconflict hlack
      simp [hconflict, hlack] at hfault
    · next hfree =>
      rw [Option.orElse_eq_orElse, Option.orElse_eq_or, Option.or_eq_none_iff] at hfree
      rw [Except.ok.injEq]
      constructor
      · rintro rfl
        exact ⟨rfl, hfree⟩
      · exact fun h => h.1
  simp only [readAll, Logged.outcome_bind, Logged.outcome_foldlM, Logged.outcome_lift, bind_eq_ok,
    hcheck]
  constructor
  · rintro ⟨read, hread, rfl, hfree⟩
    exact ⟨hread, hfree⟩
  · rintro ⟨hread, hfree⟩
    exact ⟨set, hread, rfl, hfree⟩

/-- What holds of every value that is read, and is kept when values are joined, holds of every value
of the set. -/
theorem forall_of_readAll {P : ClauseKind → Clause → Prop} {tokens : List Text} {set : ClauseSet}
    (hread : ∀ kind argument clause, ctx.kind.accepts kind = true →
      ctx.read kind argument = .ok clause → P kind clause)
    (hmerge : ∀ kind a b m, kind.isRepeatable = true → P kind a → P kind b →
      a.merge? b = some m → P kind m)
    (h : (ctx.readAll tokens).outcome = .ok set) :
    ∀ kind clause, set.get? kind = some clause → P kind clause := by
  refine foldlM_ok (fun _ set => ∀ kind clause, set.get? kind = some clause → P kind clause) ?_
    (by simp) (readAll_eq_ok.1 h).1
  intro w _ before after hbefore hstep
  rw [readAndAdd_outcome] at hstep
  obtain ⟨⟨kind, clause⟩, hw, hadd⟩ := bind_eq_ok.1 hstep
  obtain ⟨haccepts, hclause⟩ := readWritten_eq_ok hw
  have hnew := hread kind w.argument clause haccepts hclause
  -- One value of the set is new; the others are those of before.
  obtain ⟨stored, hstored, rfl⟩ : ∃ stored, P kind stored ∧ after = before.insert kind stored := by
    rcases add_eq_ok hadd with ⟨-, rfl⟩ | ⟨earlier, merged, hearlier, hr, hmerged, rfl⟩
    · exact ⟨clause, hnew, rfl⟩
    · exact ⟨merged, hmerge kind earlier clause merged hr (hbefore kind earlier hearlier) hnew
        hmerged, rfl⟩
  intro other value hvalue
  rw [ClauseSet.get?_insert] at hvalue
  split at hvalue
  · next hother =>
    obtain rfl := Option.some.inj hvalue
    rw [hother]
    exact hstored
  · exact hbefore other value hvalue

/-! The whole set. -/

theorem contains_eq_false_of_conflict? {directive : DirectiveKind} {set : ClauseSet}
    {first other : ClauseKind} {excluded : List ClauseKind} (h : conflict? directive set = none)
    (hmem : (first, excluded) ∈ directive.exclusions) (hfirst : set.contains first = true)
    (hother : other ∈ excluded) : set.contains other = false := by
  have hpair := List.findSome?_eq_none_iff.1 h _ hmem
  simp only [hfirst, if_true, Option.map_eq_none_iff, List.find?_eq_none] at hpair
  simpa using hpair other hother

theorem exists_of_lack? {directive : DirectiveKind} {set : ClauseSet}
    (h : lack? directive set = none) (hneeds : directive.requiredClauses ≠ []) :
    ∃ kind ∈ directive.requiredClauses, set.contains kind = true := by
  unfold lack? at h
  split at h
  · next hnone => exact absurd hnone hneeds
  · split at h
    · next hany => exact List.any_eq_true.1 hany
    · simp at h

end ClauseContext

namespace ClauseSet

/-- No two clauses exclude each other: `seq` stands without the levels of parallelism and the other
ways to schedule a loop, a routine has one level, and an atomic directive one form. -/
structure Exclusive (directive : DirectiveKind) (set : ClauseSet) : Prop where
  seq : directive = .loop → set.contains .seq = true →
    ∀ kind ∈ [ClauseKind.gang, .worker, .vector, .auto, .independent], set.contains kind = false
  auto : directive = .loop → set.contains .auto = true → set.contains .independent = false
  level : directive = .routine → ∀ a ∈ [ClauseKind.seq, .gang, .worker, .vector],
    ∀ b ∈ [ClauseKind.seq, .gang, .worker, .vector],
    set.contains a = true → set.contains b = true → a = b
  form : directive = .atomic → ∀ a ∈ [ClauseKind.read, .write, .update, .capture],
    ∀ b ∈ [ClauseKind.read, .write, .update, .capture],
    set.contains a = true → set.contains b = true → a = b

/-- Directives that act on data or settings say on which. -/
structure Complete (directive : DirectiveKind) (set : ClauseSet) : Prop where
  update : directive = .update →
    set.contains .self = true ∨ set.contains .host = true ∨ set.contains .device = true
  settings : directive = .set → set.contains .defaultAsync = true ∨
    set.contains .deviceNum = true ∨ set.contains .deviceType = true
  enterData : directive = .enterData →
    set.contains .copyIn = true ∨ set.contains .create = true ∨ set.contains .attach = true
  exitData : directive = .exitData →
    set.contains .copyOut = true ∨ set.contains .delete = true ∨ set.contains .detach = true

/-- A clause that is present can be had by its sort. -/
structure Typed (directive : DirectiveKind) (set : ClauseSet) : Prop where
  collapse : set.contains .collapse = true → set.collapse?.isSome = true
  tile : set.contains .tile = true → set.tile?.isSome = true
  gang : set.contains .gang = true → set.gang?.isSome = true
  worker : set.contains .worker = true → set.worker?.isSome = true
  vector : set.contains .vector = true → set.vector?.isSome = true
  reductions : set.contains .reduction = true → set.reductions ≠ []
  int : ∀ kind, kind.sharedForm? = some .size ∨ kind.sharedForm? = some .number →
    set.contains kind = true → (set.int? kind).isSome = true
  vars : ∀ kind, kind.sharedForm? = some .vars ∨ kind = .self ∧ directive = .update →
    set.contains kind = true → (set.vars? kind).isSome = true

/-- What holds of the clauses of a directive. -/
structure Sound (directive : DirectiveKind) (set : ClauseSet) : Prop where
  accepted : ∀ kind, set.contains kind = true → directive.accepts kind = true
  fits : ∀ kind clause, set.get? kind = some clause → clause.Fits directive kind
  typed : set.Typed directive
  exclusive : set.Exclusive directive
  complete : set.Complete directive

variable {directive : DirectiveKind} {set : ClauseSet}

theorem contains_iff {kind : ClauseKind} :
    set.contains kind = true ↔ ∃ clause, set.get? kind = some clause := Option.isSome_iff_exists

theorem typed_of_fits
    (h : ∀ kind clause, set.get? kind = some clause → clause.Fits directive kind) :
    set.Typed directive := by
  constructor
  case int =>
    intro kind hkind hin
    obtain ⟨clause, hget⟩ := contains_iff.1 hin
    cases h _ _ hget with
    | size | number => simp [int?, hget]
    | vars hvars | flag hvars => simp [hvars] at hkind
    | _ => simp [ClauseKind.sharedForm?] at hkind
  case vars =>
    intro kind hkind hin
    obtain ⟨clause, hget⟩ := contains_iff.1 hin
    cases h _ _ hget with
    | vars | selfVars => simp [vars?, hget]
    | size hform | number _ hform | flag hform =>
      rcases hkind with hkind | ⟨rfl, -⟩
      · simp [hform] at hkind
      · simp [ClauseKind.sharedForm?] at hform
    | selfCondition _ hother | unconditional hother =>
      simp [ClauseKind.sharedForm?, hother] at hkind
    | _ => simp [ClauseKind.sharedForm?] at hkind
  all_goals
    -- The kind has a form of its own, so the value can be of no other.
    intro hin
    obtain ⟨clause, hget⟩ := contains_iff.1 hin
    cases h _ _ hget with
    | size hform | number _ hform | vars hform | flag hform => cases hform
    | _ => simp_all [collapse?, tile?, gang?, worker?, vector?, reductions]

/-- Of kinds that exclude each other pair by pair, one is present at most. -/
theorem eq_of_pairwise {kinds : List ClauseKind} {a b : ClauseKind}
    (h : kinds.Pairwise fun a b => set.contains a = true → set.contains b = false)
    (ha : a ∈ kinds) (hb : b ∈ kinds) (hina : set.contains a = true)
    (hinb : set.contains b = true) : a = b := by
  obtain ⟨i, hi, rfl⟩ := List.getElem_of_mem ha
  obtain ⟨j, hj, rfl⟩ := List.getElem_of_mem hb
  rw [List.pairwise_iff_getElem] at h
  rcases Nat.lt_trichotomy i j with hij | rfl | hij
  · have hout := h i j hi hj hij hina
    simp [hinb] at hout
  · rfl
  · have hout := h j i hj hi hij hinb
    simp [hina] at hout

theorem exclusive_of_conflict? (h : ClauseContext.conflict? directive set = none) :
    set.Exclusive directive := by
  constructor
  case seq =>
    rintro rfl hseq kind hkind
    exact ClauseContext.contains_eq_false_of_conflict? h List.mem_cons_self hseq hkind
  case auto =>
    rintro rfl hauto
    have hmem : (ClauseKind.auto, [ClauseKind.independent]) ∈ DirectiveKind.loop.exclusions := by
      decide
    exact ClauseContext.contains_eq_false_of_conflict? h hmem hauto List.mem_cons_self
  case level =>
    rintro rfl a ha b hb
    refine eq_of_pairwise (.cons ?_ (.cons ?_ (.cons ?_ (List.pairwise_singleton ..)))) ha hb
    all_goals
      intro other hother hin
      exact ClauseContext.contains_eq_false_of_conflict? h (by decide) hin hother
  case form =>
    rintro rfl a ha b hb
    refine eq_of_pairwise (.cons ?_ (.cons ?_ (.cons ?_ (List.pairwise_singleton ..)))) ha hb
    all_goals
      intro other hother hin
      exact ClauseContext.contains_eq_false_of_conflict? h (by decide) hin hother

theorem complete_of_lack? (h : ClauseContext.lack? directive set = none) :
    set.Complete directive := by
  constructor
  all_goals
    rintro rfl
    obtain ⟨kind, hkind, hin⟩ := ClauseContext.exists_of_lack? h (by decide)
    simp only [DirectiveKind.requiredClauses, List.mem_cons, List.not_mem_nil, or_false] at hkind
    rcases hkind with rfl | rfl | rfl
    · exact .inl hin
    · exact .inr (.inl hin)
    · exact .inr (.inr hin)

end ClauseSet

/-- Clauses that are read without an error are sound, whatever the directive and the tokens. -/
theorem sound_of_readAll {ctx : ClauseContext} {tokens : List Text} {set : ClauseSet}
    (h : (ctx.readAll tokens).outcome = .ok set) : set.Sound ctx.kind := by
  have hvalues := ClauseContext.forall_of_readAll
    (P := fun kind clause => ctx.kind.accepts kind = true ∧ clause.Fits ctx.kind kind)
    (fun _ _ _ haccepts hread => ⟨haccepts, ClauseContext.fits_of_read hread⟩)
    (fun _ _ _ _ hr ha hb hm => ⟨ha.1, ha.2.merge hb.2 hr hm⟩) h
  have hfits := fun kind clause hget => (hvalues kind clause hget).2
  obtain ⟨-, hconflict, hlack⟩ := ClauseContext.readAll_eq_ok.1 h
  constructor
  · intro kind hin
    obtain ⟨clause, hget⟩ := ClauseSet.contains_iff.1 hin
    exact (hvalues kind clause hget).1
  · exact hfits
  · exact ClauseSet.typed_of_fits hfits
  · exact ClauseSet.exclusive_of_conflict? hconflict
  · exact ClauseSet.complete_of_lack? hlack

/-- A loop nest inside a `kernels` construct. -/
def nestContext : ClauseContext where
  kind := .loop
  line := 1
  region := some ⟨2, 5⟩
  source := .ofText Source.defaultTabWidth
    (Text.unlines ["# acc kernels", "# acc loop", "for i in x:", " for j in y:", "  f(i)"])
  ancestors := [{ kind := .kernels, line := 0 }]

def nestTokens : List Text :=
  ["collapse(2)", "gang(4, static:*)", "worker", "(num: 8)", "private( a , b)", "private(c)",
    "reduction(+: s)"]

/-- All sorts of values at once: the clauses are read, and so they are sound. -/
theorem nestTokens_sound :
    ∃ set, (nestContext.readAll nestTokens).outcome = .ok set ∧ set.Sound .loop ∧
      set.get? .worker = some (.worker (some 8)) ∧
      set.get? .privateCopy = some (.vars { vars := ["a", "b", "c"] }) := by
  have hcheck : ((nestContext.readAll nestTokens).outcome.toOption.any fun set =>
      set.get? .worker == some (.worker (some 8)) &&
        set.get? .privateCopy == some (.vars { vars := ["a", "b", "c"] })) = true := by
    decide +kernel
  obtain ⟨set, hset, hvalues⟩ := exists_of_any hcheck
  rw [Bool.and_eq_true, beq_iff_eq, beq_iff_eq] at hvalues
  exact ⟨set, hset, sound_of_readAll hset, hvalues⟩

end Offload
