import Offload.Proofs.Reprint

/-!
Clauses printed and read again. The tokens of a printed set are its clauses, each value is read from
what is written for it, and so reading a printed set gives the set.
-/
namespace Offload

open Outcome Text

/-! All clauses of a kind. -/

namespace ClauseKind

variable {kind : ClauseKind} {values : List Clause} {clause : Clause}

/-- What holds of single values and is kept by joining holds of what they make together. -/
theorem collect?_induction {p : Clause → Prop} (hvalues : ∀ value ∈ values, p value)
    (hmerge : ∀ a b m, p a → p b → a.merge? b = some m → p m)
    (h : kind.collect? values = some (some clause)) : p clause := by
  induction values using List.reverseRecOn generalizing clause with
  | nil => simp [collect?] at h
  | append_singleton front last ih =>
    obtain ⟨earlier, joined, hearlier, hjoined, hclause⟩ := collect?_concat.1 h
    obtain rfl := Option.some.inj hclause
    have hlast := hvalues last (List.mem_append_right _ List.mem_cons_self)
    cases earlier with
    | none =>
      obtain rfl := Option.some.inj hjoined
      exact hlast
    | some value =>
      unfold extend? at hjoined
      dsimp only at hjoined
      split at hjoined
      · have hvalue := ih (fun v hv => hvalues v (List.mem_append_left _ hv)) hearlier
        exact hmerge value last clause hvalue hlast hjoined
      · simp at hjoined

/-- Where clauses cannot stand together there is one. -/
theorem collect?_eq_singleton (hsingle : kind.isRepeatable = false ∨ values.length ≤ 1)
    (h : kind.collect? values = some (some clause)) : values = [clause] := by
  rcases List.eq_nil_or_concat' values with rfl | ⟨front, last, rfl⟩
  · simp [collect?] at h
  · obtain ⟨earlier, joined, hearlier, hjoined, hclause⟩ := collect?_concat.1 h
    obtain rfl := Option.some.inj hclause
    cases earlier with
    | none =>
      have hempty : front = [] := by
        have hiff := collect?_isSome_iff hearlier
        simpa using hiff
      obtain rfl := Option.some.inj hjoined
      rw [hempty, List.nil_append]
    | some value =>
      rcases hsingle with hrepeat | hlength
      · simp [extend?, hrepeat] at hjoined
      · have hempty : front = [] := by simpa using hlength
        have hiff := collect?_isSome_iff hearlier
        simp [hempty] at hiff

end ClauseKind

/-- Clauses that can be printed and read again: brackets are nested, reductions are written at most
once, and no item in the list of a `copyin` is empty, which might let a variable move to the place of
the modifier. -/
structure WrittenClause.Tidy (ws : List WrittenClause) : Prop where
  nested : ∀ w ∈ ws, ∀ a ∈ w.argument, Nested a
  filled : ∀ w ∈ ws, w.keyword = ClauseKind.copyIn.keyword →
    ∀ a ∈ w.argument, ∀ piece ∈ a.splitOutside ',', blank piece = false
  reduced : (ClauseKind.reduction.writtenIn ws).length ≤ 1

theorem WrittenClause.tidy_iff {ws : List WrittenClause} :
    Tidy ws ↔ (∀ w ∈ ws, ∀ a ∈ w.argument, Nested a) ∧
      (∀ w ∈ ws, w.keyword = ClauseKind.copyIn.keyword →
        ∀ a ∈ w.argument, ∀ piece ∈ a.splitOutside ',', blank piece = false) ∧
      (ClauseKind.reduction.writtenIn ws).length ≤ 1 :=
  ⟨fun h => ⟨h.nested, h.filled, h.reduced⟩, fun h => ⟨h.1, h.2.1, h.2.2⟩⟩

instance (ws : List WrittenClause) : Decidable (WrittenClause.Tidy ws) :=
  decidable_of_iff' _ WrittenClause.tidy_iff

namespace ClauseContext

variable {ctx : ClauseContext} {ws : List WrittenClause} {set : ClauseSet} {kind : ClauseKind}
  {clause : Clause}

theorem Gathers.reprints (h : Gathers ctx ws set) (htidy : WrittenClause.Tidy ws)
    (hget : set.get? kind = some clause) : ctx.Reprints kind clause := by
  obtain ⟨values, hvalues, hcollect⟩ := h.values kind
  rw [hget] at hcollect
  have hread : ∀ value ∈ values, ∃ w ∈ ws, w.keyword = kind.keyword ∧
      ctx.read kind w.argument = .ok value := by
    intro value hvalue
    obtain ⟨w, hw, hread⟩ := exists_of_mem_mapM hvalues hvalue
    obtain ⟨hmem, hkeyword⟩ := ClauseKind.mem_writtenIn.1 hw
    exact ⟨w, hmem, hkeyword, hread⟩
  by_cases hlist : kind.isRepeatable = true ∧ kind ≠ .reduction
  · have hlisted : ∀ value ∈ values, Listed kind value := by
      intro value hvalue
      obtain ⟨w, hw, hkeyword, hvalue⟩ := hread value hvalue
      refine listed_of_read hlist.1 hlist.2 (htidy.nested w hw) (fun hcopy => ?_) hvalue
      rw [hcopy] at hkeyword
      exact htidy.filled w hw hkeyword
    have hclause : Listed kind clause :=
      ClauseKind.collect?_induction hlisted (fun a b m ha hb hm => ha.merge hb hm) hcollect
    exact hclause.reprints
  · have hkind : kind.isRepeatable = false ∨ kind = .reduction := by
      rw [not_and_or, Bool.not_eq_true, not_ne_iff] at hlist
      exact hlist
    have hsingle : kind.isRepeatable = false ∨ values.length ≤ 1 := by
      refine hkind.imp_right fun hreduction => ?_
      subst hreduction
      rw [length_of_mapM hvalues]
      exact htidy.reduced
    obtain rfl := ClauseKind.collect?_eq_singleton hsingle hcollect
    obtain ⟨w, hw, -, hvalue⟩ := hread clause List.mem_cons_self
    exact reprints_of_read hkind (htidy.nested w hw) hvalue

end ClauseContext

/-! Tokens of a printed set. -/

namespace Token

theorem pieces_succ_cons (depth : Nat) (c : Char) (cs : Text) :
    pieces (depth + 1) (c :: cs) =
      (pieces (if c = '(' then depth + 2 else if c = ')' then depth else depth + 1) cs).map
        (consHead c) := by
  rw [pieces]
  split
  · rfl
  · split
    · rfl
    · rw [if_neg (by omega)]

/-- The round brackets that are due are those that have been opened and not closed. -/
theorem count_of_dueStep {due next : List Char} {c : Char} (h : dueStep due c = some next) :
    next.count ')' + (if c = ')' then 1 else 0) = due.count ')' + if c = '(' then 1 else 0 := by
  unfold dueStep at h
  split at h
  · next hopen =>
    obtain rfl := Option.some.inj h
    simp only [isOpening, Bool.or_eq_true, beq_iff_eq] at hopen
    rcases hopen with (rfl | rfl) | rfl <;> simp [closingOf]
  · next hopen =>
    split at h
    · next hclose =>
      split at h
      · next hhead =>
        obtain rfl := Option.some.inj h
        obtain ⟨rest, rfl⟩ := List.head?_eq_some_iff.1 hhead
        simp only [isClosing, Bool.or_eq_true, beq_iff_eq] at hclose
        rcases hclose with (rfl | rfl) | rfl <;> simp
      · simp at h
    · next hclose =>
      obtain rfl := Option.some.inj h
      simp only [isOpening, isClosing, Bool.or_eq_true, beq_iff_eq, not_or] at hopen hclose
      simp [hopen.1.1, hclose.1.1]

/-- Inside parentheses a text whose brackets are closed belongs to one piece. -/
theorem pieces_append_of_dueAfter {due due' : List Char} {t : Text} (depth : Nat)
    (h : dueAfter due t = some due') (rest : Text) :
    pieces (depth + 1 + due.count ')') (t ++ rest) =
      (pieces (depth + 1 + due'.count ')') rest).map (t.foldr consHead) := by
  induction t generalizing due with
  | nil =>
    obtain rfl := Option.some.inj h
    rw [List.nil_append]
    cases pieces (depth + 1 + due.count ')') rest <;> rfl
  | cons c cs ih =>
    rw [dueAfter_cons] at h
    obtain ⟨next, hnext, hcs⟩ := Option.bind_eq_some_iff.1 h
    have hrest := ih hcs
    have hcount := count_of_dueStep hnext
    have hdepth : depth + 1 + due.count ')' = depth + due.count ')' + 1 := by omega
    have hstep : pieces (depth + 1 + due.count ')') (c :: (cs ++ rest)) =
        (pieces (depth + 1 + next.count ')') (cs ++ rest)).map (consHead c) := by
      rw [hdepth, pieces_succ_cons]
      congr 2
      split
      · next hopen =>
        simp only [hopen] at hcount
        simp at hcount
        omega
      · next hopen =>
        split
        · next hclose =>
          simp only [hclose] at hcount
          simp at hcount
          omega
        · next hclose =>
          simp [hopen, hclose] at hcount
          omega
    rw [List.cons_append, hstep, hrest]
    cases pieces (depth + 1 + due'.count ')') rest <;> rfl

theorem pieces_in_parens {keyword argument : Text} (hkeyword : pieces 0 keyword = .ok [keyword])
    (h : Nested argument) :
    pieces 0 (keyword ++ "(" ++ argument ++ ")") = .ok [keyword ++ "(" ++ argument ++ ")"] := by
  have hinner : pieces 1 (argument ++ [')']) = .ok [argument ++ [')']] := by
    have hpieces := pieces_append_of_dueAfter 0 h [')']
    rw [List.count_nil] at hpieces
    rw [hpieces, show pieces (0 + 1 + 0) [')'] = .ok [[')']] from rfl, Except.map, foldr_consHead]
  have htext : keyword ++ "(" ++ argument ++ ")" = keyword ++ '(' :: (argument ++ [')']) := by simp
  have houter : pieces 0 ('(' :: (argument ++ [')'])) = .ok ['(' :: (argument ++ [')'])] := by
    rw [pieces, if_pos rfl, hinner]
    rfl
  rw [htext, pieces_append hkeyword, houter, Except.map, foldr_consHead]

/-- Tokens with a blank between them are found again. -/
theorem tokenize_join {tokens : List Text}
    (h : ∀ token ∈ tokens, token ≠ [] ∧ pieces 0 token = .ok [token]) :
    tokenize (join " " tokens) = .ok tokens := by
  induction tokens with
  | nil => rfl
  | cons first more ih =>
    obtain ⟨⟨hne, hfirst⟩, hmore⟩ := List.forall_mem_cons.1 h
    cases more with
    | nil =>
      rw [join, List.intercalate_singleton, tokenize, hfirst]
      simp [Except.map, hne]
    | cons next more =>
      rw [join_cons_cons, tokenize_append hne hfirst, ih hmore]
      rfl

end Token

namespace Clause

theorem keyword_plain (kind : ClauseKind) : kind.keyword ≠ [] ∧ '(' ∉ kind.keyword := by
  cases kind <;> decide

theorem pieces_keyword (kind : ClauseKind) :
    Token.pieces 0 kind.keyword = .ok [kind.keyword] := by
  cases kind <;> rfl

variable {kind : ClauseKind} {clause : Clause}

theorem render_eq_append (kind : ClauseKind) (clause : Clause) :
    ∃ rest, clause.render kind = kind.keyword ++ rest := by
  unfold render
  cases clause.argument? with
  | none => exact ⟨[], by simp⟩
  | some argument => exact ⟨"(" ++ argument ++ ")", by simp⟩

theorem pieces_render (h : ∀ a, clause.argument? = some a → Nested a) :
    Token.pieces 0 (clause.render kind) = .ok [clause.render kind] := by
  unfold render
  cases hargument : clause.argument? with
  | none => exact pieces_keyword kind
  | some argument => exact Token.pieces_in_parens (pieces_keyword kind) (h argument hargument)

theorem split_render (kind : ClauseKind) (clause : Clause) :
    Token.split (clause.render kind) = (kind.keyword, clause.argument?) := by
  have hkeyword := (keyword_plain kind).2
  unfold render
  cases clause.argument? with
  | none => exact Token.split_of_not_mem hkeyword
  | some argument =>
    have hparens : Token.isArgument ("(" ++ argument ++ ")") = true :=
      Token.isArgument_iff.2 ⟨argument ++ ")", by simp⟩
    have hclosed : ("(" ++ argument ++ ")").getLast? = some ')' := by
      rw [List.getLast?_append]
      rfl
    have hsplit := Token.split_append_of_closed hkeyword hparens hclosed
    dsimp only
    rw [List.append_assoc, List.append_assoc, ← List.append_assoc "(".toList, hsplit]
    simp

end Clause

theorem ClauseKind.filter_all (kind : ClauseKind) : all.filter (· == kind) = [kind] := by
  cases kind <;> decide

/-- A set lists one clause of each kind that it has. -/
theorem ClauseSet.filter_toList (s : ClauseSet) (kind : ClauseKind) :
    s.toList.filter (fun entry => entry.1.keyword == kind.keyword) =
      ((s.get? kind).map (kind, ·)).toList := by
  have hentry : ∀ other : ClauseKind,
      ((s.get? other).map (other, ·)).filter (fun entry => entry.1.keyword == kind.keyword) =
        if other == kind then (s.get? other).map (other, ·) else none := by
    intro other
    by_cases hother : other = kind
    · subst hother
      cases s.get? other <;> simp
    · have hkeyword : other.keyword ≠ kind.keyword := by
        rwa [ne_eq, ClauseKind.keyword_inj]
      cases s.get? other <;> simp [hother, hkeyword]
  rw [toList, List.filter_filterMap]
  simp only [hentry]
  rw [← List.filterMap_filter, ClauseKind.filter_all]
  cases hget : s.get? kind <;> simp [hget]

/-! Reading a printed set. -/

/-- A clause as it is read from what is written for it. -/
def WrittenClause.ofEntry (entry : ClauseKind × Clause) : WrittenClause where
  token := entry.2.render entry.1
  keyword := entry.1.keyword
  argument := entry.2.argument?

def ClauseSet.tokens (s : ClauseSet) : List Text :=
  s.toList.map fun entry => entry.2.render entry.1

theorem ClauseSet.group_tokens (s : ClauseSet) :
    WrittenClause.group s.tokens = s.toList.map .ofEntry := by
  have hplain : ∀ token ∈ s.tokens, Token.isArgument token = false := by
    intro token htoken
    obtain ⟨entry, -, rfl⟩ := List.mem_map.1 htoken
    obtain ⟨rest, hrest⟩ := Clause.render_eq_append entry.1 entry.2
    have hkeyword := Clause.keyword_plain entry.1
    rw [hrest]
    exact Token.isArgument_append hkeyword.1 hkeyword.2 rest
  rw [WrittenClause.group_of_plain hplain, tokens, List.map_map]
  refine List.map_congr_left fun entry _ => ?_
  simp only [Function.comp, WrittenClause.attached, Clause.split_render, WrittenClause.ofEntry]

theorem ClauseSet.writtenIn_ofEntry (s : ClauseSet) (kind : ClauseKind) :
    kind.writtenIn (s.toList.map .ofEntry) =
      ((s.get? kind).map fun clause => WrittenClause.ofEntry (kind, clause)).toList := by
  have hfilter := s.filter_toList kind
  rw [ClauseKind.writtenIn, List.filter_map]
  change (s.toList.filter fun entry => entry.1.keyword == kind.keyword).map _ = _
  rw [hfilter]
  cases s.get? kind <;> rfl

namespace ClauseContext

variable {ctx : ClauseContext} {ws : List WrittenClause} {set : ClauseSet}

theorem Gathers.printed (h : Gathers ctx ws set) (htidy : WrittenClause.Tidy ws) :
    Gathers ctx (set.toList.map .ofEntry) set where
  accepted := by
    intro w hw
    obtain ⟨entry, hentry, rfl⟩ := List.mem_map.1 hw
    have hcontains : set.contains entry.1 = true := by
      rw [ClauseSet.contains, ClauseSet.mem_toList.1 hentry]
      rfl
    -- The kind was accepted when it was first read.
    obtain ⟨source, hsource, hkeyword⟩ := (h.contains_iff entry.1).1 hcontains
    obtain ⟨other, hother⟩ := h.accepted source hsource
    obtain ⟨hsame, haccepts⟩ := resolve_eq_ok_iff.1 hother
    rw [hkeyword, ClauseKind.keyword_inj] at hsame
    exact ⟨entry.1, resolve_eq_ok_iff.2 ⟨rfl, hsame ▸ haccepts⟩⟩
  values := by
    intro kind
    rw [ClauseSet.writtenIn_ofEntry]
    cases hget : set.get? kind with
    | none => exact ⟨[], rfl, rfl⟩
    | some clause =>
      have hread : ctx.read kind clause.argument? = .ok clause := (h.reprints htidy hget).read
      refine ⟨[clause], ?_, rfl⟩
      simp [WrittenClause.ofEntry, hread]

end ClauseContext

/-- Printing the clauses of a directive and reading them again gives the same clauses. -/
theorem readAll_tokenize_render (ctx : ClauseContext) {tokens : List Text} {set : ClauseSet}
    (h : (ctx.readAll tokens).outcome = .ok set)
    (htidy : WrittenClause.Tidy (WrittenClause.group tokens)) :
    ∃ printed, tokenize set.render = .ok printed ∧ (ctx.readAll printed).outcome = .ok set := by
  obtain ⟨hgathers, hconflict, hlack⟩ := ClauseContext.readAll_eq_ok_iff.1 h
  have htokens : ∀ token ∈ set.tokens, token ≠ [] ∧ Token.pieces 0 token = .ok [token] := by
    intro token htoken
    obtain ⟨entry, hentry, rfl⟩ := List.mem_map.1 htoken
    have hreprints := hgathers.reprints htidy (ClauseSet.mem_toList.1 hentry)
    obtain ⟨rest, hrest⟩ := Clause.render_eq_append entry.1 entry.2
    refine ⟨?_, Clause.pieces_render hreprints.nested⟩
    rw [hrest]
    exact List.append_ne_nil_of_left_ne_nil (Clause.keyword_plain entry.1).1 rest
  refine ⟨set.tokens, Token.tokenize_join htokens, ?_⟩
  refine ClauseContext.readAll_eq_ok_iff.2 ⟨?_, hconflict, hlack⟩
  rw [ClauseSet.group_tokens]
  exact hgathers.printed htidy

/-- Clauses with blanks, a leading zero, a detached argument and a repeated kind. -/
def looseTokens : List Text :=
  ["copyin( a , b[0:n, 1] )", "async", "(q[1])", "copyin(readonly: c)", "num_gangs( 08 )",
    "reduction(max:x,y)"]

theorem looseTokens_reread :
    WrittenClause.Tidy (WrittenClause.group looseTokens) ∧
      ∃ set printed, (constructContext.readAll looseTokens).outcome = .ok set ∧
        set.render = Text.join " " ["async(q[1])", "num_gangs(8)", "reduction(max: x, y)",
          "copyin(readonly: a, b[0:n, 1], c)"] ∧
        tokenize set.render = .ok printed ∧
        (constructContext.readAll printed).outcome = .ok set := by
  have htidy : WrittenClause.Tidy (WrittenClause.group looseTokens) := by decide +kernel
  have hcheck : ((constructContext.readAll looseTokens).outcome.toOption.any fun set =>
      set.render == Text.join " " ["async(q[1])", "num_gangs(8)", "reduction(max: x, y)",
        "copyin(readonly: a, b[0:n, 1], c)"]) = true := by
    decide +kernel
  obtain ⟨set, hset, hrender⟩ := exists_of_any hcheck
  rw [beq_iff_eq] at hrender
  obtain ⟨printed, htokens, hagain⟩ := readAll_tokenize_render constructContext hset htidy
  exact ⟨htidy, set, printed, hset, hrender, htokens, hagain⟩

end Offload
