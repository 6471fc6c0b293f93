import Offload.Proofs.Detached

/-!
The clauses of a directive, kind by kind. Which set a list of clauses makes, and whether it makes one
at all, depends on the clauses of each kind alone. So clauses of different kinds can change places.
-/
namespace Offload

open Outcome

theorem Outcome.mapM_concat_eq_ok {ε α β : Type} {f : α → Except ε β} {as : List α} {a : α}
    {bs : List β} :
    (as ++ [a]).mapM f = .ok bs ↔
      ∃ front b, as.mapM f = .ok front ∧ f a = .ok b ∧ bs = front ++ [b] := by
  rw [List.mapM_append, List.mapM_cons, List.mapM_nil]
  constructor
  · intro h
    obtain ⟨front, hfront, h⟩ := bind_eq_ok.1 h
    obtain ⟨last, hlast, h⟩ := bind_eq_ok.1 h
    obtain ⟨b, hb, hlast⟩ := bind_eq_ok.1 hlast
    obtain rfl := Except.ok.inj hlast
    exact ⟨front, b, hfront, hb, (Except.ok.inj h).symm⟩
  · rintro ⟨front, b, hfront, hb, rfl⟩
    rw [hfront, hb]
    rfl

/-! Clauses of one kind. -/

namespace ClauseKind

theorem ofKeyword?_keyword (kind : ClauseKind) : ofKeyword? kind.keyword = some kind := by
  cases kind <;> decide

theorem ofKeyword?_eq_some_iff {word : Text} {kind : ClauseKind} :
    ofKeyword? word = some kind ↔ word = kind.keyword := by
  constructor
  · intro h
    have hword := List.find?_some h
    exact (beq_iff_eq.1 hword).symm
  · rintro rfl
    exact ofKeyword?_keyword kind

theorem keyword_inj {kind other : ClauseKind} : kind.keyword = other.keyword ↔ kind = other := by
  constructor
  · intro h
    have hkind := ofKeyword?_keyword kind
    rw [h, ofKeyword?_keyword] at hkind
    exact (Option.some.inj hkind).symm
  · exact fun h => h ▸ rfl

/-- The clauses of a kind among others. -/
def writtenIn (kind : ClauseKind) (ws : List WrittenClause) : List WrittenClause :=
  ws.filter (·.keyword == kind.keyword)

/-- The value of a kind once a further clause of the kind has been read. -/
def extend? (kind : ClauseKind) (earlier : Option Clause) (value : Clause) : Option Clause :=
  match earlier with
  | none => some value
  | some earlier => if kind.isRepeatable then earlier.merge? value else none

/-- The value that clauses of one kind make together, where they can stand together; there is none if
there are no clauses. -/
def collect? (kind : ClauseKind) (values : List Clause) : Option (Option Clause) :=
  values.foldlM (fun earlier value => (kind.extend? earlier value).map some) none

variable {kind : ClauseKind}

theorem mem_writtenIn {ws : List WrittenClause} {w : WrittenClause} :
    w ∈ kind.writtenIn ws ↔ w ∈ ws ∧ w.keyword = kind.keyword := by
  rw [writtenIn, List.mem_filter, beq_iff_eq]

theorem writtenIn_concat_of_eq {w : WrittenClause} (h : w.keyword = kind.keyword)
    (ws : List WrittenClause) : kind.writtenIn (ws ++ [w]) = kind.writtenIn ws ++ [w] := by
  simp [writtenIn, h]

theorem writtenIn_concat_of_ne {w : WrittenClause} (h : w.keyword ≠ kind.keyword)
    (ws : List WrittenClause) : kind.writtenIn (ws ++ [w]) = kind.writtenIn ws := by
  simp [writtenIn, h]

theorem collect?_concat {values : List Clause} {value : Clause} {result : Option Clause} :
    kind.collect? (values ++ [value]) = some result ↔
      ∃ earlier joined, kind.collect? values = some earlier ∧
        kind.extend? earlier value = some joined ∧ result = some joined := by
  unfold collect?
  simp only [List.foldlM_append, List.foldlM_cons, List.foldlM_nil, Option.bind_eq_bind,
    Option.bind_eq_some_iff, Option.map_eq_some_iff, Option.pure_def, Option.some.injEq]
  constructor
  · rintro ⟨earlier, hearlier, _, ⟨joined, hjoined, rfl⟩, rfl⟩
    exact ⟨earlier, joined, hearlier, hjoined, rfl⟩
  · rintro ⟨earlier, joined, hearlier, hjoined, rfl⟩
    exact ⟨earlier, hearlier, _, ⟨joined, hjoined, rfl⟩, rfl⟩

theorem collect?_isSome_iff {values : List Clause} {result : Option Clause}
    (h : kind.collect? values = some result) : result.isSome = true ↔ values ≠ [] := by
  rcases List.eq_nil_or_concat' values with rfl | ⟨front, last, rfl⟩
  · obtain rfl := Option.some.inj h
    simp
  · obtain ⟨_, joined, -, -, rfl⟩ := collect?_concat.1 h
    simp

end ClauseKind

/-! What joined values hold. -/

/-- The values are lists of one sort, and the last value holds their items in order. It has the
modifier if one of them has. -/
inductive Clause.Concat : List Clause → Clause → Prop
  | vars (lists : List VarList) : Concat (lists.map .vars)
    (.vars ⟨lists.any VarList.readonly, lists.flatMap VarList.vars⟩)
  | reduction (lists : List (List Reduction)) : Concat (lists.map .reduction)
    (.reduction lists.flatten)
  | wait (lists : List (List IntExpr)) : Concat (lists.map .wait) (.wait lists.flatten)
  | deviceTypes (lists : List (List Text)) : Concat (lists.map .deviceTypes)
    (.deviceTypes lists.flatten)

namespace Clause

variable {directive : DirectiveKind} {kind : ClauseKind} {values : List Clause}

/-- The kinds that may be repeated have lists for values. -/
theorem concat_singleton {value : Clause} (h : value.Fits directive kind)
    (hr : kind.isRepeatable = true) : Concat [value] value := by
  cases h with
  | wait queues => simpa using Concat.wait [queues]
  | deviceTypes _ => simpa using Concat.deviceTypes [_]
  | reduction _ _ => simpa using Concat.reduction [_]
  | vars _ _ _ => simpa using Concat.vars [_]
  | size hform | number _ hform | flag hform =>
    cases kind <;> simp [ClauseKind.sharedForm?, ClauseKind.isRepeatable] at hform hr
  | _ => simp [ClauseKind.isRepeatable] at hr

theorem Concat.merge {a b m : Clause} (h : Concat values a) (hm : a.merge? b = some m) :
    Concat (values ++ [b]) m := by
  rcases merge?_cases hm with ⟨u, v, rfl, rfl, rfl⟩ | ⟨u, v, rfl, rfl, rfl⟩ | ⟨u, v, rfl, rfl, rfl⟩ |
    ⟨u, v, rfl, rfl, rfl⟩
  · cases h with
    | vars lists => simpa using Concat.vars (lists ++ [v])
  · cases h with
    | reduction lists => simpa using Concat.reduction (lists ++ [v])
  · cases h with
    | wait lists => simpa using Concat.wait (lists ++ [v])
  · cases h with
    | deviceTypes lists => simpa using Concat.deviceTypes (lists ++ [v])

theorem concat_of_collect? {clause : Clause} (hr : kind.isRepeatable = true)
    (hfits : ∀ value ∈ values, value.Fits directive kind)
    (h : kind.collect? values = some (some clause)) : Concat values clause := by
  induction values using List.reverseRecOn generalizing clause with
  | nil => simp [ClauseKind.collect?] at h
  | append_singleton front last ih =>
    obtain ⟨earlier, joined, hearlier, hjoined, hclause⟩ := ClauseKind.collect?_concat.1 h
    obtain rfl := Option.some.inj hclause
    have hlast := hfits last (List.mem_append_right _ List.mem_cons_self)
    cases earlier with
    | none =>
      have hempty : front = [] := by
        have hiff := ClauseKind.collect?_isSome_iff hearlier
        simpa using hiff
      obtain rfl := Option.some.inj hjoined
      rw [hempty]
      exact concat_singleton hlast hr
    | some value =>
      rw [ClauseKind.extend?, if_pos hr] at hjoined
      exact (ih (fun v hv => hfits v (List.mem_append_left _ hv)) hearlier).merge hjoined

end Clause

/-! Clauses of all kinds. -/

namespace ClauseSet

/-- The set with another value, or none, for one kind. -/
def withValue (s : ClauseSet) (kind : ClauseKind) (value : Option Clause) : ClauseSet :=
  ⟨fun other => if other = kind then value else s.get? other⟩

@[simp] theorem get?_withValue (s : ClauseSet) (kind other : ClauseKind) (value : Option Clause) :
    (s.withValue kind value).get? other = if other = kind then value else s.get? other := rfl

end ClauseSet

namespace ClauseContext

variable {ctx : ClauseContext} {ws : List WrittenClause} {set set' : ClauseSet}

theorem resolve_eq_ok_iff {w : WrittenClause} {kind : ClauseKind} :
    ctx.resolve w = .ok kind ↔ w.keyword = kind.keyword ∧ ctx.kind.accepts kind = true := by
  have hfilter : (ClauseKind.ofKeyword? w.keyword).filter ctx.kind.accepts = some kind ↔
      w.keyword = kind.keyword ∧ ctx.kind.accepts kind = true := by
    rw [Option.filter_eq_some_iff, ClauseKind.ofKeyword?_eq_some_iff]
  unfold resolve
  split
  · next found hfound =>
    rw [hfound, Option.some.injEq] at hfilter
    rw [Except.ok.injEq, hfilter]
  · next hnone =>
    rw [hnone] at hfilter
    simpa using hfilter

theorem readWritten_eq_ok_iff {w : WrittenClause} {kind : ClauseKind} {clause : Clause} :
    ctx.readWritten w = .ok (kind, clause) ↔
      ctx.resolve w = .ok kind ∧ ctx.read kind w.argument = .ok clause := by
  unfold readWritten
  rw [bind_eq_ok]
  constructor
  · rintro ⟨found, hfound, h⟩
    obtain ⟨value, hvalue, h⟩ := bind_eq_ok.1 h
    obtain ⟨rfl, rfl⟩ := Prod.mk.inj (Except.ok.inj h)
    exact ⟨hfound, hvalue⟩
  · rintro ⟨hkind, hclause⟩
    refine ⟨kind, hkind, ?_⟩
    rw [hclause]
    rfl

theorem add_eq_ok_iff {kind : ClauseKind} {clause : Clause} :
    ctx.add set kind clause = .ok set' ↔
      ∃ value, kind.extend? (set.get? kind) clause = some value ∧ set' = set.insert kind value := by
  unfold add ClauseKind.extend?
  cases set.get? kind with
  | none => simp only [Except.ok.injEq, Option.some.injEq, exists_eq_left', eq_comm]
  | some earlier =>
    dsimp only
    cases if kind.isRepeatable then earlier.merge? clause else none with
    | none => simp only [reduceCtorEq, false_and, exists_false]
    | some joined => simp only [Except.ok.injEq, Option.some.injEq, exists_eq_left', eq_comm]

/-- Every clause is one that the directive accepts, and for each kind the clauses of that kind can be
read and together make its value in the set. -/
structure Gathers (ctx : ClauseContext) (ws : List WrittenClause) (set : ClauseSet) : Prop where
  accepted : ∀ w ∈ ws, ∃ kind, ctx.resolve w = .ok kind
  values : ∀ kind : ClauseKind, ∃ values,
    (kind.writtenIn ws).mapM (fun w => ctx.read kind w.argument) = .ok values ∧
      kind.collect? values = some (set.get? kind)

theorem gathers_nil : Gathers ctx [] set ↔ set = ∅ := by
  constructor
  · intro h
    refine ClauseSet.ext fun kind => ?_
    obtain ⟨values, hvalues, hcollect⟩ := h.values kind
    obtain rfl := Except.ok.inj hvalues
    exact (Option.some.inj hcollect).symm
  · rintro rfl
    exact ⟨by simp, fun kind => ⟨[], rfl, rfl⟩⟩

/-- A further clause is read and added to what the clauses before it make. -/
theorem Gathers.concat {w : WrittenClause} {kind : ClauseKind} {clause : Clause}
    (h : Gathers ctx ws set) (hread : ctx.readWritten w = .ok (kind, clause))
    (hadd : ctx.add set kind clause = .ok set') : Gathers ctx (ws ++ [w]) set' := by
  obtain ⟨hresolve, hclause⟩ := readWritten_eq_ok_iff.1 hread
  obtain ⟨value, hvalue, rfl⟩ := add_eq_ok_iff.1 hadd
  have hkeyword := (resolve_eq_ok_iff.1 hresolve).1
  constructor
  · intro other hother
    rcases List.mem_append.1 hother with hother | hother
    · exact h.accepted other hother
    · obtain rfl := List.mem_singleton.1 hother
      exact ⟨kind, hresolve⟩
  · intro other
    obtain ⟨values, hvalues, hcollect⟩ := h.values other
    rw [ClauseSet.get?_insert]
    by_cases hother : other = kind
    · subst hother
      refine ⟨values ++ [clause], ?_, ?_⟩
      · rw [ClauseKind.writtenIn_concat_of_eq hkeyword]
        exact mapM_concat_eq_ok.2 ⟨values, clause, hvalues, hclause, rfl⟩
      · rw [if_pos rfl]
        exact ClauseKind.collect?_concat.2 ⟨_, value, hcollect, hvalue, rfl⟩
    · have hne : w.keyword ≠ other.keyword := by
        rw [hkeyword, ne_eq, ClauseKind.keyword_inj]
        exact fun heq => hother heq.symm
      rw [ClauseKind.writtenIn_concat_of_ne hne, if_neg hother]
      exact ⟨values, hvalues, hcollect⟩

/-- The last clause has been read and added. -/
theorem Gathers.exists_of_concat {w : WrittenClause} (h : Gathers ctx (ws ++ [w]) set') :
    ∃ set kind clause, Gathers ctx ws set ∧ ctx.readWritten w = .ok (kind, clause) ∧
      ctx.add set kind clause = .ok set' := by
  obtain ⟨kind, hresolve⟩ := h.accepted w (List.mem_append_right _ List.mem_cons_self)
  have hkeyword := (resolve_eq_ok_iff.1 hresolve).1
  obtain ⟨values, hvalues, hcollect⟩ := h.values kind
  rw [ClauseKind.writtenIn_concat_of_eq hkeyword] at hvalues
  obtain ⟨front, clause, hfront, hclause, rfl⟩ := mapM_concat_eq_ok.1 hvalues
  obtain ⟨earlier, value, hearlier, hvalue, hresult⟩ := ClauseKind.collect?_concat.1 hcollect
  -- Before, the kind had the value that the clause was joined to.
  refine ⟨set'.withValue kind earlier, kind, clause,
    ⟨fun other hother => h.accepted other (List.mem_append_left _ hother), fun other => ?_⟩,
    readWritten_eq_ok_iff.2 ⟨hresolve, hclause⟩, add_eq_ok_iff.2 ⟨value, ?_, ?_⟩⟩
  · rw [ClauseSet.get?_withValue]
    by_cases hother : other = kind
    · subst hother
      exact ⟨front, hfront, by rw [if_pos rfl, hearlier]⟩
    · have hne : w.keyword ≠ other.keyword := by
        rw [hkeyword, ne_eq, ClauseKind.keyword_inj]
        exact fun heq => hother heq.symm
      rw [if_neg hother, ← ClauseKind.writtenIn_concat_of_ne hne]
      exact h.values other
  · rw [ClauseSet.get?_withValue, if_pos rfl, hvalue]
  · refine ClauseSet.ext fun other => ?_
    rw [ClauseSet.get?_insert, ClauseSet.get?_withValue]
    by_cases hother : other = kind
    · rw [if_pos hother, hother, hresult]
    · rw [if_neg hother, if_neg hother]

theorem foldlM_readAndAdd_eq_ok_iff :
    ws.foldlM (fun set w => (ctx.readAndAdd set w).outcome) ∅ = .ok set ↔ Gathers ctx ws set := by
  induction ws using List.reverseRecOn generalizing set with
  | nil =>
    rw [gathers_nil, List.foldlM_nil]
    exact ⟨fun h => (Except.ok.inj h).symm, fun h => h ▸ rfl⟩
  | append_singleton front last ih =>
    simp only [List.foldlM_append, List.foldlM_cons, List.foldlM_nil, readAndAdd_outcome, bind_pure]
    constructor
    · intro h
      obtain ⟨earlier, hearlier, h⟩ := bind_eq_ok.1 h
      obtain ⟨⟨kind, clause⟩, hread, hadd⟩ := bind_eq_ok.1 h
      simp only [← readAndAdd_outcome] at hearlier
      exact (ih.1 hearlier).concat hread hadd
    · intro h
      obtain ⟨earlier, kind, clause, hearlier, hread, hadd⟩ := h.exists_of_concat
      have hfold := ih.2 hearlier
      simp only [readAndAdd_outcome] at hfold
      rw [hfold, ok_bind, hread]
      exact hadd

theorem readAll_eq_ok_iff {tokens : List Text} :
    (ctx.readAll tokens).outcome = .ok set ↔ Gathers ctx (WrittenClause.group tokens) set ∧
      conflict? ctx.kind set = none ∧ lack? ctx.kind set = none := by
  rw [readAll_eq_ok, foldlM_readAndAdd_eq_ok_iff]

theorem Gathers.contains_iff (h : Gathers ctx ws set) (kind : ClauseKind) :
    set.contains kind = true ↔ ∃ w ∈ ws, w.keyword = kind.keyword := by
  obtain ⟨values, hvalues, hcollect⟩ := h.values kind
  rw [ClauseSet.contains, ClauseKind.collect?_isSome_iff hcollect, ← List.length_pos_iff,
    length_of_mapM hvalues, List.length_pos_iff_exists_mem]
  simp only [ClauseKind.mem_writtenIn]

/-- A kind that may be repeated has the items of all its clauses in order. -/
theorem Gathers.exists_concat {kind : ClauseKind} {clause : Clause} (h : Gathers ctx ws set)
    (hr : kind.isRepeatable = true) (hget : set.get? kind = some clause) :
    ∃ values, (kind.writtenIn ws).mapM (fun w => ctx.read kind w.argument) = .ok values ∧
      Clause.Concat values clause := by
  obtain ⟨values, hvalues, hcollect⟩ := h.values kind
  have hfits : ∀ value ∈ values, value.Fits ctx.kind kind := by
    intro value hvalue
    obtain ⟨w, -, hread⟩ := exists_of_mem_mapM hvalues hvalue
    exact fits_of_read hread
  rw [hget] at hcollect
  exact ⟨values, hvalues, Clause.concat_of_collect? hr hfits hcollect⟩

end ClauseContext

/-! Tokens that are one clause each. -/

namespace WrittenClause

theorem group_of_plain {tokens : List Text}
    (h : ∀ token ∈ tokens, Token.isArgument token = false) :
    group tokens = tokens.map attached := by
  fun_induction group tokens with
  | case1 => rfl
  | case2 token => rfl
  | case3 token next rest hdetached ih =>
    have hnext := h next (by simp)
    simp [hnext] at hdetached
  | case4 token next rest hattached ih =>
    have hrest := ih fun other hother => h other (List.mem_cons_of_mem _ hother)
    rw [hrest]
    rfl

end WrittenClause

/-- The tokens whose keyword is the given one. -/
def Token.withKeyword (word : Text) (tokens : List Text) : List Text :=
  tokens.filter fun token => (split token).1 == word

theorem ClauseKind.writtenIn_map_attached (kind : ClauseKind) (tokens : List Text) :
    kind.writtenIn (tokens.map .attached) =
      (Token.withKeyword kind.keyword tokens).map .attached := by
  rw [writtenIn, List.filter_map, Token.withKeyword]
  rfl

/-- The same tokens in another order, in which those with the same keyword follow each other as
before. -/
structure Reordered (tokens other : List Text) : Prop where
  perm : tokens.Perm other
  order : ∀ word, Token.withKeyword word tokens = Token.withKeyword word other

namespace Reordered

variable {tokens other : List Text}

/-- It is enough to look at the keywords that occur. -/
theorem iff_forall_mem : Reordered tokens other ↔ tokens.Perm other ∧
    ∀ token ∈ tokens, Token.withKeyword (Token.split token).1 tokens =
      Token.withKeyword (Token.split token).1 other := by
  constructor
  · exact fun h => ⟨h.perm, fun token _ => h.order _⟩
  · rintro ⟨hperm, horder⟩
    refine ⟨hperm, fun word => ?_⟩
    by_cases hword : ∃ token ∈ tokens, (Token.split token).1 = word
    · obtain ⟨token, htoken, rfl⟩ := hword
      exact horder token htoken
    · have hnone : ∀ ts : List Text, (∀ t ∈ ts, t ∈ tokens) → Token.withKeyword word ts = [] := by
        intro ts hts
        apply List.filter_eq_nil_iff.2
        intro t ht heq
        exact hword ⟨t, hts t ht, beq_iff_eq.1 heq⟩
      rw [hnone tokens fun t ht => ht, hnone other fun t ht => hperm.mem_iff.2 ht]

instance : Decidable (Reordered tokens other) := decidable_of_iff _ iff_forall_mem.symm

theorem symm (h : Reordered tokens other) : Reordered other tokens where
  perm := h.perm.symm
  order := fun word => (h.order word).symm

theorem plain (h : Reordered tokens other)
    (hplain : ∀ token ∈ tokens, Token.isArgument token = false) :
    ∀ token ∈ other, Token.isArgument token = false := by
  intro token htoken
  exact hplain token (h.perm.mem_iff.2 htoken)

theorem gathers {ctx : ClauseContext} {set : ClauseSet} (h : Reordered tokens other)
    (hset : ctx.Gathers (tokens.map .attached) set) : ctx.Gathers (other.map .attached) set where
  accepted := by
    intro w hw
    apply hset.accepted w
    exact (h.perm.map _).mem_iff.2 hw
  values := by
    intro kind
    rw [kind.writtenIn_map_attached, ← h.order, ← kind.writtenIn_map_attached]
    exact hset.values kind

/-- The sets that are read are the same. -/
theorem readAll {ctx : ClauseContext} {set : ClauseSet} (h : Reordered tokens other)
    (hplain : ∀ token ∈ tokens, Token.isArgument token = false)
    (hread : (ctx.readAll tokens).outcome = .ok set) : (ctx.readAll other).outcome = .ok set := by
  rw [ClauseContext.readAll_eq_ok_iff, WrittenClause.group_of_plain hplain] at hread
  rw [ClauseContext.readAll_eq_ok_iff, WrittenClause.group_of_plain (h.plain hplain)]
  exact ⟨h.gathers hread.1, hread.2⟩

end Reordered

/-- Clauses that are one token each can be written in any order that keeps those of the same kind in
theirs: either they cannot be read in both orders, or they make the same set. It has the kinds that
are written, and a repeated kind has the items of all its clauses in order. -/
theorem readAll_of_reordered (ctx : ClauseContext) {tokens other : List Text}
    (hplain : ∀ token ∈ tokens, Token.isArgument token = false) (h : Reordered tokens other) :
    ((∃ e, (ctx.readAll tokens).outcome = .error e) ∧
      ∃ e, (ctx.readAll other).outcome = .error e) ∨
    ∃ set, (ctx.readAll tokens).outcome = .ok set ∧ (ctx.readAll other).outcome = .ok set ∧
      (∀ kind, set.contains kind = true ↔
        ∃ token ∈ tokens, (Token.split token).1 = kind.keyword) ∧
      ∀ kind clause, kind.isRepeatable = true → set.get? kind = some clause →
        ∃ values, (Token.withKeyword kind.keyword tokens).mapM
            (fun token => ctx.read kind (Token.split token).2) = .ok values ∧
          Clause.Concat values clause := by
  cases hread : (ctx.readAll tokens).outcome with
  | error e =>
    left
    refine ⟨⟨e, rfl⟩, ?_⟩
    cases hother : (ctx.readAll other).outcome with
    | error e' => exact ⟨e', rfl⟩
    | ok set =>
      rw [h.symm.readAll (h.plain hplain) hother] at hread
      simp at hread
  | ok set =>
    right
    have hset := (ClauseContext.readAll_eq_ok_iff.1 hread).1
    rw [WrittenClause.group_of_plain hplain] at hset
    refine ⟨set, rfl, h.readAll hplain hread, fun kind => ?_, fun kind clause hr hget => ?_⟩
    · rw [hset.contains_iff]
      simp [WrittenClause.attached]
    · obtain ⟨values, hvalues, hconcat⟩ := hset.exists_concat hr hget
      rw [kind.writtenIn_map_attached, List.mapM_map] at hvalues
      exact ⟨values, hvalues, hconcat⟩

/-- Clauses of a construct, two kinds of them repeated, and the same clauses sorted. -/
def mixedTokens : List Text :=
  ["copyin(a)", "num_gangs(4)", "wait(1)", "copyin(readonly: b, c)", "wait(q)"]

def sortedTokens : List Text :=
  ["wait(1)", "wait(q)", "num_gangs(4)", "copyin(a)", "copyin(readonly: b, c)"]

def constructContext : ClauseContext where
  kind := .parallel
  line := 0
  region := none
  source := .ofText Source.defaultTabWidth ""
  ancestors := []

/-- Both orders give one set, in which the lists of each repeated kind are joined. -/
theorem mixedTokens_sorted :
    Reordered mixedTokens sortedTokens ∧
      ∃ set, (constructContext.readAll mixedTokens).outcome = .ok set ∧
        (constructContext.readAll sortedTokens).outcome = .ok set ∧
        set.get? .copyIn = some (.vars ⟨true, ["a", "b", "c"]⟩) ∧
        set.get? .wait = some (.wait [.literal 1, .expr "q"]) := by
  have hreordered : Reordered mixedTokens sortedTokens := by decide +kernel
  have hplain : ∀ token ∈ mixedTokens, Token.isArgument token = false := by decide +kernel
  have hcheck : ((constructContext.readAll mixedTokens).outcome.toOption.any fun set =>
      set.get? .copyIn == some (.vars ⟨true, ["a", "b", "c"]⟩) &&
        set.get? .wait == some (.wait [.literal 1, .expr "q"])) = true := by
    decide +kernel
  obtain ⟨set, hset, hvalues⟩ := exists_of_any hcheck
  rw [Bool.and_eq_true, beq_iff_eq, beq_iff_eq] at hvalues
  refine ⟨hreordered, ?_⟩
  rcases readAll_of_reordered constructContext hplain hreordered with ⟨⟨e, he⟩, -⟩ |
    ⟨same, hsame, hother, -⟩
  · rw [hset] at he
    simp at he
  · rw [hset] at hsame
    obtain rfl := Except.ok.inj hsame
    exact ⟨set, hset, hother, hvalues⟩

end Offload
