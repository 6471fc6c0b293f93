import Offload.Pragma
import Offload.Proofs.Soundness

/-!
Detached arguments. A keyword and the token behind it mean the same as the two written as one token
if that token ends in a parenthesis. If it does not, it is dropped.
-/
namespace Offload

open Outcome

/-! Keywords and arguments in a token. -/

namespace Text

theorem cut?_append {before : Text} (h : '(' ∉ before) (rest : Text) :
    cut? "(" (before ++ '(' :: rest) = some (before, rest) := by
  induction before with
  | nil => simp [cut?, after?]
  | cons c cs ih =>
    rw [List.mem_cons, not_or] at h
    have hc : after? "(" (c :: (cs ++ '(' :: rest)) = none := by simp [after?, h.1]
    rw [List.cons_append, cut?, hc, ih h.2]
    rfl

theorem cut?_eq_none {t : Text} (h : '(' ∉ t) : cut? "(" t = none := by
  induction t with
  | nil => rfl
  | cons c cs ih =>
    rw [List.mem_cons, not_or] at h
    have hc : after? "(" (c :: cs) = none := by simp [after?, h.1]
    rw [cut?, hc, ih h.2]
    rfl

end Text

namespace Token

variable {keyword argument : Text}

theorem isArgument_iff : isArgument argument = true ↔ ∃ rest, argument = '(' :: rest := by
  cases argument with
  | nil => simp [isArgument, Text.startsWith, Text.after?]
  | cons c cs =>
    by_cases hc : c = '(' <;> simp [isArgument, Text.startsWith, Text.after?, hc, eq_comm]

theorem isArgument_append (hne : keyword ≠ []) (h : '(' ∉ keyword) (rest : Text) :
    isArgument (keyword ++ rest) = false := by
  cases keyword with
  | nil => exact absurd rfl hne
  | cons c cs =>
    rw [List.mem_cons, not_or] at h
    simp [isArgument, Text.startsWith, Text.after?, h.1]

theorem isArgument_of_not_mem (hne : keyword ≠ []) (h : '(' ∉ keyword) :
    isArgument keyword = false := by
  simpa using isArgument_append hne h []

theorem mem_append_of_isArgument (keyword : Text) (hp : isArgument argument = true) :
    '(' ∈ keyword ++ argument := by
  obtain ⟨rest, rfl⟩ := isArgument_iff.1 hp
  simp

theorem split_of_not_mem (h : '(' ∉ keyword) : split keyword = (keyword, none) := by
  rw [split, Text.cut?_eq_none h]

/-- The argument of a token that ends in a parenthesis is the same behind any keyword. -/
theorem split_append_of_closed (h : '(' ∉ keyword) (hp : isArgument argument = true)
    (hclosed : argument.getLast? = some ')') :
    split (keyword ++ argument) = (keyword, some argument.tail.dropLast) := by
  obtain ⟨rest, rfl⟩ := isArgument_iff.1 hp
  have hrest : rest.getLast? = some ')' := by
    cases rest with
    | nil => simp at hclosed
    | cons c cs => simpa using hclosed
  rw [split, Text.cut?_append h]
  simp [hrest]

/-- A token that does not end in a parenthesis has no argument. -/
theorem split_append_of_not_closed (h : '(' ∉ keyword) (hp : isArgument argument = true)
    (hopen : argument.getLast? ≠ some ')') :
    split (keyword ++ argument) = (keyword ++ argument, none) := by
  obtain ⟨rest, rfl⟩ := isArgument_iff.1 hp
  have hrest : rest.getLast? ≠ some ')' := by
    cases rest with
    | nil => simp
    | cons c cs => simpa using hopen
  rw [split, Text.cut?_append h]
  simp [hrest]

theorem split_of_closed (hp : isArgument argument = true) (hclosed : argument.getLast? = some ')') :
    (split argument).2 = some argument.tail.dropLast := by
  have h := split_append_of_closed List.not_mem_nil hp hclosed
  rw [List.nil_append] at h
  rw [h]

theorem split_of_not_closed (hp : isArgument argument = true)
    (hopen : argument.getLast? ≠ some ')') : (split argument).2 = none := by
  have h := split_append_of_not_closed List.not_mem_nil hp hopen
  rw [List.nil_append] at h
  rw [h]

end Token

/-- No keyword has a parenthesis. -/
theorem find?_keyword_eq_none {α : Type} {all : List α} {keyword : α → Text} {word : Text}
    (hkeyword : ∀ kind, '(' ∉ keyword kind) (h : '(' ∈ word) :
    all.find? (keyword · == word) = none := by
  rw [List.find?_eq_none]
  intro kind _ heq
  rw [← beq_iff_eq.1 heq] at h
  exact hkeyword kind h

theorem ClauseKind.ofKeyword?_eq_none {word : Text} (h : '(' ∈ word) : ofKeyword? word = none := by
  refine find?_keyword_eq_none ?_ h
  intro kind
  cases kind <;> decide

theorem DirectiveKind.ofKeyword?_eq_none {word : Text} (h : '(' ∈ word) :
    ofKeyword? word = none := by
  refine find?_keyword_eq_none ?_ h
  intro kind
  cases kind <;> decide

/-! Clauses. -/

namespace WrittenClause

variable {keyword argument : Text}

/-- Grouping starts anew at a token that is no argument. -/
theorem group_append {token : Text} (h : Token.isArgument token = false) (before rest : List Text) :
    group (before ++ token :: rest) = group before ++ group (token :: rest) := by
  fun_induction group before with
  | case1 => rfl
  | case2 first => simp [group, h]
  | case3 first next more hdetached ih =>
    simp only [List.cons_append, group, hdetached, if_true, ih]
  | case4 first next more hattached ih =>
    rw [List.cons_append] at ih
    simp only [List.cons_append, group, if_neg hattached, ih]

/-- A keyword with the argument that the token behind it holds. -/
def detachedFrom (keyword argument : Text) : WrittenClause :=
  { token := keyword, keyword, argument := (Token.split argument).2, detached := true }

theorem group_detached (h : '(' ∉ keyword) (hp : Token.isArgument argument = true)
    (rest : List Text) :
    group (keyword :: argument :: rest) = detachedFrom keyword argument :: group rest := by
  simp [group, Token.split_of_not_mem h, hp, detachedFrom]

theorem group_attached {token : Text} (h : (Token.split token).2.isSome = true)
    (rest : List Text) : group (token :: rest) = attached token :: group rest := by
  have hnot : (Token.split token).2.isNone = false := by
    rw [← Option.not_isSome, h]
    rfl
  cases rest with
  | nil => rfl
  | cons next more => simp [group, hnot]

theorem exists_group_cons (token : Text) (rest : List Text) :
    ∃ w more, group (token :: rest) = w :: more ∧ w.keyword = (Token.split token).1 := by
  cases rest with
  | nil => exact ⟨_, _, rfl, rfl⟩
  | cons next more =>
    unfold group
    split
    · exact ⟨_, _, rfl, rfl⟩
    · exact ⟨_, _, rfl, rfl⟩

end WrittenClause

namespace ClauseContext

variable {ctx : ClauseContext} {keyword argument : Text}

/-- The clauses of the tokens, before they are checked as a whole. -/
def gather (ctx : ClauseContext) (tokens : List Text) : Logged Error ClauseSet :=
  (WrittenClause.group tokens).foldlM ctx.readAndAdd ∅

theorem readWritten_congr {w w' : WrittenClause} (hkeyword : w.keyword = w'.keyword)
    (hargument : w.argument = w'.argument) (hne : w'.keyword ≠ []) :
    ctx.readWritten w = ctx.readWritten w' := by
  have hname : w'.keyword.isEmpty = false := by simpa using hne
  unfold readWritten resolve
  simp only [hkeyword, hargument, hname, Bool.false_eq_true, if_false]

/-- Clauses that are read alike can stand for each other. -/
theorem foldlM_readAndAdd_congr {w w' : WrittenClause} (h : ctx.readWritten w = ctx.readWritten w')
    (before behind : List WrittenClause) (set : ClauseSet) :
    (before ++ w :: behind).foldlM ctx.readAndAdd set =
      (before ++ w' :: behind).foldlM ctx.readAndAdd set := by
  induction before generalizing set with
  | nil => simp only [List.nil_append, List.foldlM_cons, readAndAdd, readLogged, h]
  | cons first rest ih => simp only [List.cons_append, List.foldlM_cons, ih]

theorem readAll_detached_of_closed (hne : keyword ≠ []) (hkeyword : '(' ∉ keyword)
    (hp : Token.isArgument argument = true) (hclosed : argument.getLast? = some ')')
    (before behind : List Text) :
    ctx.readAll (before ++ keyword :: argument :: behind) =
      ctx.readAll (before ++ (keyword ++ argument) :: behind) := by
  have hsplit := Token.split_append_of_closed hkeyword hp hclosed
  unfold readAll
  rw [WrittenClause.group_append (Token.isArgument_of_not_mem hne hkeyword),
    WrittenClause.group_append (Token.isArgument_append hne hkeyword argument),
    WrittenClause.group_detached hkeyword hp, WrittenClause.group_attached (by rw [hsplit]; rfl)]
  have hread : ctx.readWritten (.detachedFrom keyword argument) =
      ctx.readWritten (.attached (keyword ++ argument)) := by
    apply readWritten_congr
    · simp [WrittenClause.detachedFrom, WrittenClause.attached, hsplit]
    · simp [WrittenClause.detachedFrom, WrittenClause.attached, hsplit,
        Token.split_of_closed hp hclosed]
    · simpa [WrittenClause.attached, hsplit] using hne
  rw [foldlM_readAndAdd_congr hread]

/-- An argument that does not end in a parenthesis is dropped, so it could be any other. -/
theorem readAll_detached_of_not_closed {other : Text} (hne : keyword ≠ [])
    (hkeyword : '(' ∉ keyword) (hp : Token.isArgument argument = true)
    (hopen : argument.getLast? ≠ some ')') (hp' : Token.isArgument other = true)
    (hopen' : other.getLast? ≠ some ')') (before behind : List Text) :
    ctx.readAll (before ++ keyword :: argument :: behind) =
      ctx.readAll (before ++ keyword :: other :: behind) := by
  have hplain := Token.isArgument_of_not_mem hne hkeyword
  have hsame : WrittenClause.detachedFrom keyword argument =
      WrittenClause.detachedFrom keyword other := by
    rw [WrittenClause.detachedFrom, WrittenClause.detachedFrom, Token.split_of_not_closed hp hopen,
      Token.split_of_not_closed hp' hopen']
  unfold readAll
  rw [WrittenClause.group_append hplain, WrittenClause.group_append hplain,
    WrittenClause.group_detached hkeyword hp, WrittenClause.group_detached hkeyword hp', hsame]

/-- What stands before a token that is no argument is read first. -/
theorem readAll_append_outcome (ctx : ClauseContext) {token : Text}
    (h : Token.isArgument token = false) (before rest : List Text) :
    (ctx.readAll (before ++ token :: rest)).outcome =
      (ctx.gather before).outcome >>= fun set =>
        (WrittenClause.group (token :: rest)).foldlM
          (fun set w => (ctx.readAndAdd set w).outcome) set >>= ctx.check := by
  unfold readAll gather
  rw [WrittenClause.group_append h]
  simp only [Logged.outcome_bind, Logged.outcome_foldlM, Logged.outcome_lift, List.foldlM_append,
    bind_assoc]

/-- Attached to its keyword such an argument makes an unknown clause. -/
theorem readAll_attached_of_not_closed (ctx : ClauseContext) (hne : keyword ≠ [])
    (hkeyword : '(' ∉ keyword) (hp : Token.isArgument argument = true)
    (hopen : argument.getLast? ≠ some ')')
    (before behind : List Text) :
    (ctx.readAll (before ++ (keyword ++ argument) :: behind)).outcome =
      (ctx.gather before).outcome >>= fun _ =>
        .error (.clause ctx.line (.unrecognized (keyword ++ argument) ctx.kind)) := by
  obtain ⟨w, more, hgroup, hw⟩ :=
    WrittenClause.exists_group_cons (keyword ++ argument) behind
  rw [Token.split_append_of_not_closed hkeyword hp hopen] at hw
  have hparen := Token.mem_append_of_isArgument keyword hp
  have hname : List.isEmpty (keyword ++ argument) = false := by simp [hne]
  have hread : ctx.readWritten w =
      .error (.clause ctx.line (.unrecognized (keyword ++ argument) ctx.kind)) := by
    unfold readWritten resolve
    rw [hw, ClauseKind.ofKeyword?_eq_none hparen]
    simp [hname]
  rw [readAll_append_outcome ctx (Token.isArgument_append hne hkeyword argument), hgroup]
  simp only [List.foldlM_cons, readAndAdd_outcome, hread, error_bind]

/-- The two spellings of a clause are read alike if and only if the argument ends in a parenthesis
or the same error comes up anyway: before the clause, or because its one-token spelling is also
what reading the two tokens and those behind them stops at. -/
theorem readAll_detached_eq_iff (hne : keyword ≠ []) (hkeyword : '(' ∉ keyword)
    (hp : Token.isArgument argument = true) (before behind : List Text) :
    (ctx.readAll (before ++ keyword :: argument :: behind)).outcome =
        (ctx.readAll (before ++ (keyword ++ argument) :: behind)).outcome ↔
      argument.getLast? = some ')' ∨ (∃ e, (ctx.gather before).outcome = .error e) ∨
        (ctx.readAll (before ++ keyword :: argument :: behind)).outcome =
          .error (.clause ctx.line (.unrecognized (keyword ++ argument) ctx.kind)) := by
  by_cases hclosed : argument.getLast? = some ')'
  · simp [hclosed, readAll_detached_of_closed hne hkeyword hp hclosed]
  · have hattached := readAll_attached_of_not_closed ctx hne hkeyword hp hclosed before behind
    have hdetached := readAll_append_outcome ctx (Token.isArgument_of_not_mem hne hkeyword) before
      (argument :: behind)
    cases hbefore : (ctx.gather before).outcome with
    | error e =>
      rw [hbefore] at hattached hdetached
      simp [hattached, hdetached]
    | ok set =>
      rw [hbefore, ok_bind] at hattached
      simp [hattached, hclosed]

end ClauseContext

/-! Pieces of a text. -/

namespace Token

variable {depth : Nat} {t : Text}

/-- What a character does to the pieces behind it. -/
theorem pieces_cons_cases (depth : Nat) (c : Char) :
    (∃ depth', ∀ cs, pieces depth (c :: cs) = (pieces depth' cs).map (Text.consHead c)) ∨
      (depth = 0 ∧ ∀ cs, pieces 0 (c :: cs) = (pieces 0 cs).map ([] :: ·)) ∨
      ∀ cs, pieces depth (c :: cs) = .error .unexpectedClose := by
  by_cases hopen : c = '('
  · exact .inl ⟨depth + 1, fun cs => by cases depth <;> simp [pieces, hopen]⟩
  · by_cases hclose : c = ')'
    · cases depth with
      | zero => exact .inr (.inr fun cs => by simp [pieces, hclose])
      | succ depth => exact .inl ⟨depth, fun cs => by simp [pieces, hclose]⟩
    · by_cases hseparator : depth = 0 ∧ (isBlank c ∨ c = ',')
      · obtain ⟨rfl, hc⟩ := hseparator
        exact .inr (.inl ⟨rfl, fun cs => by simp [pieces, hopen, hclose, hc]⟩)
      · exact .inl ⟨depth, fun cs => by cases depth <;> simp_all [pieces]⟩

theorem exists_of_consHead {c : Char} {ps : List Text} {first : Text} {more : List Text}
    (hne : ps ≠ []) (h : Text.consHead c ps = first :: more) :
    ∃ head, ps = head :: more ∧ first = c :: head := by
  cases ps with
  | nil => exact absurd rfl hne
  | cons head tail =>
    simp only [Text.consHead, List.cons.injEq] at h
    exact ⟨head, by rw [h.2], h.1.symm⟩

theorem pieces_ne_nil {ps : List Text} (h : pieces depth t = .ok ps) : ps ≠ [] := by
  cases t with
  | nil =>
    cases depth with
    | zero =>
      obtain rfl := Except.ok.inj h
      simp
    | succ depth => simp [pieces] at h
  | cons c cs =>
    rcases pieces_cons_cases depth c with ⟨depth', hc⟩ | ⟨rfl, hc⟩ | hc
    · rw [hc] at h
      obtain ⟨rest, -, rfl⟩ := map_eq_ok.1 h
      cases rest <;> simp [Text.consHead]
    · rw [hc] at h
      obtain ⟨rest, -, rfl⟩ := map_eq_ok.1 h
      simp
    · simp [hc] at h

/-- A piece of a text is a piece by itself. -/
theorem pieces_of_pieces {first : Text} {more : List Text}
    (h : pieces depth t = .ok (first :: more)) :
    pieces depth first = .ok [first] ∧ ∀ piece ∈ more, pieces 0 piece = .ok [piece] := by
  induction t generalizing depth first more with
  | nil => cases depth <;> simp_all [pieces]
  | cons c cs ih =>
    rcases pieces_cons_cases depth c with ⟨depth', hc⟩ | ⟨rfl, hc⟩ | hc
    · rw [hc] at h
      obtain ⟨ps, hps, hhead⟩ := map_eq_ok.1 h
      obtain ⟨head, rfl, rfl⟩ := exists_of_consHead (pieces_ne_nil hps) hhead
      obtain ⟨hfirst, hmore⟩ := ih hps
      refine ⟨?_, hmore⟩
      rw [hc, hfirst]
      rfl
    · rw [hc] at h
      obtain ⟨ps, hps, hhead⟩ := map_eq_ok.1 h
      obtain ⟨rfl, rfl⟩ := List.cons.inj hhead
      refine ⟨rfl, ?_⟩
      cases ps with
      | nil => simp
      | cons head tail =>
        obtain ⟨hfirst, hmore⟩ := ih hps
        intro piece hpiece
        rcases List.mem_cons.1 hpiece with rfl | hpiece
        · exact hfirst
        · exact hmore piece hpiece
    · simp [hc] at h

theorem foldr_consHead (t first : Text) (more : List Text) :
    t.foldr Text.consHead (first :: more) = (t ++ first) :: more := by
  induction t with
  | nil => rfl
  | cons c cs ih => rw [List.foldr_cons, ih]; rfl

/-- One piece in front of a text runs on into its first piece. -/
theorem pieces_append (h : pieces depth t = .ok [t]) (rest : Text) :
    pieces depth (t ++ rest) = (pieces 0 rest).map (t.foldr Text.consHead) := by
  induction t generalizing depth with
  | nil =>
    cases depth with
    | zero => cases hrest : pieces 0 rest <;> simp [hrest, Except.map]
    | succ depth => simp [pieces] at h
  | cons c cs ih =>
    rcases pieces_cons_cases depth c with ⟨depth', hc⟩ | ⟨rfl, hc⟩ | hc
    · rw [hc] at h
      obtain ⟨ps, hps, hhead⟩ := map_eq_ok.1 h
      obtain ⟨head, rfl, hcs⟩ := exists_of_consHead (pieces_ne_nil hps) hhead
      obtain rfl := (List.cons.inj hcs).2
      rw [List.cons_append, hc, ih hps]
      cases pieces 0 rest <;> rfl
    · rw [hc] at h
      obtain ⟨ps, -, hhead⟩ := map_eq_ok.1 h
      simp at hhead
    · simp [hc] at h

/-- A token that comes from some text. -/
def IsToken (token : Text) : Prop := ∃ body tokens, tokenize body = .ok tokens ∧ token ∈ tokens

theorem IsToken.pieces_eq {token : Text} (h : IsToken token) : pieces 0 token = .ok [token] := by
  obtain ⟨body, tokens, hbody, hmem⟩ := h
  obtain ⟨ps, hps, rfl⟩ := map_eq_ok.1 hbody
  have hin := (List.mem_filter.1 hmem).1
  cases ps with
  | nil => simp at hin
  | cons first more =>
    obtain ⟨hfirst, hmore⟩ := pieces_of_pieces hps
    rcases List.mem_cons.1 hin with rfl | hin
    · exact hfirst
    · exact hmore token hin

theorem tokenize_append {token : Text} (hne : token ≠ []) (h : pieces 0 token = .ok [token])
    (rest : Text) : tokenize (token ++ " " ++ rest) = (tokenize rest).map (token :: ·) := by
  have hblank : pieces 0 (' ' :: rest) = (pieces 0 rest).map ([] :: ·) := by
    simp [pieces, isBlank]
  have htext : token ++ " " ++ rest = token ++ ' ' :: rest := by simp
  unfold tokenize
  rw [htext, pieces_append h, hblank]
  cases pieces 0 rest with
  | error e => rfl
  | ok ps => simp [Except.map, foldr_consHead, hne]

end Token

/-! Pragmas. -/

namespace Pragma

variable {kind : DirectiveKind} {argument : Text}

/-- The keyword of a directive that takes an argument. -/
structure ArgumentKeyword (kind : DirectiveKind) : Prop where
  found : DirectiveKind.ofKeyword? kind.keyword = some kind
  not_compute : kind.isCompute = false
  ne_nil : kind.keyword ≠ []
  not_mem : '(' ∉ kind.keyword
  whole : Token.pieces 0 kind.keyword = .ok [kind.keyword]
  not_enter : kind.keyword ≠ "enter"
  not_exit : kind.keyword ≠ "exit"

theorem argumentKeyword (h : kind.takesArgument = true) : ArgumentKeyword kind := by
  cases kind <;> first
    | contradiction
    | exact ⟨rfl, rfl, by decide, by decide, rfl, by decide, by decide⟩

theorem joinData_of_ne {keyword : Text} (henter : keyword ≠ "enter") (hexit : keyword ≠ "exit")
    (argument : Option Text) (rest : List Text) :
    joinData keyword argument rest = (keyword, rest) := by
  unfold joinData
  split
  · simp only [henter, hexit, or_self, false_and, if_false]
  · rfl

theorem takeLoop_of_not_compute (h : kind.isCompute = false) (rest : List Text) :
    takeLoop kind rest = (false, rest) := by
  unfold takeLoop
  split
  · simp [h]
  · rfl

/-- The directive with the argument that is taken from the token behind it. -/
theorem ofTokens_detached (hkind : kind.takesArgument = true)
    (hp : Token.isArgument argument = true) (tokens : List Text) :
    ofTokens (kind.keyword :: argument :: tokens) =
      (argumentOf kind (Token.split argument).2).map (⟨kind, ·, false, tokens⟩) := by
  have hk := argumentKeyword hkind
  simp only [ofTokens, Token.split_of_not_mem hk.not_mem, joinData_of_ne hk.not_enter hk.not_exit,
    hk.found, takeArgument, hkind, hp, and_self, if_true, takeLoop_of_not_compute hk.not_compute]
  cases argumentOf kind (Token.split argument).2 <;> rfl

theorem ofTokens_attached_of_closed (hkind : kind.takesArgument = true)
    (hp : Token.isArgument argument = true) (hclosed : argument.getLast? = some ')')
    (tokens : List Text) :
    ofTokens ((kind.keyword ++ argument) :: tokens) =
      ofTokens (kind.keyword :: argument :: tokens) := by
  have hk := argumentKeyword hkind
  rw [ofTokens_detached hkind hp, Token.split_of_closed hp hclosed]
  simp only [ofTokens, Token.split_append_of_closed hk.not_mem hp hclosed,
    joinData_of_ne hk.not_enter hk.not_exit, hk.found, takeArgument,
    takeLoop_of_not_compute hk.not_compute]
  cases argumentOf kind (some argument.tail.dropLast) <;> rfl

theorem ofTokens_attached_of_not_closed (hkind : kind.takesArgument = true)
    (hp : Token.isArgument argument = true) (hopen : argument.getLast? ≠ some ')')
    (tokens : List Text) :
    ofTokens ((kind.keyword ++ argument) :: tokens) =
      .error (.unknownDirective (kind.keyword ++ argument)) := by
  have hparen := Token.mem_append_of_isArgument kind.keyword hp
  have hne : ∀ word : Text, '(' ∉ word → kind.keyword ++ argument ≠ word := by
    rintro word hword rfl
    exact hword hparen
  simp only [ofTokens, Token.split_append_of_not_closed (argumentKeyword hkind).not_mem hp hopen,
    joinData_of_ne (hne "enter" (by decide)) (hne "exit" (by decide)),
    DirectiveKind.ofKeyword?_eq_none hparen]

/-- Without its argument the directive is read, or the missing argument is the fault. -/
theorem ofTokens_detached_ne {word : Text} (hkind : kind.takesArgument = true)
    (hp : Token.isArgument argument = true) (hopen : argument.getLast? ≠ some ')')
    (tokens : List Text) :
    ofTokens (kind.keyword :: argument :: tokens) ≠ .error (.unknownDirective word) := by
  rw [ofTokens_detached hkind hp, Token.split_of_not_closed hp hopen, argumentOf]
  split <;> simp [Except.map]

theorem read_detached (hkind : kind.takesArgument = true) (hargument : Token.IsToken argument)
    (hne : argument ≠ []) (rest : Text) :
    read (kind.keyword ++ " " ++ argument ++ " " ++ rest) =
      tokenize rest >>= fun tokens => ofTokens (kind.keyword :: argument :: tokens) := by
  have hk := argumentKeyword hkind
  have hbehind := Token.tokenize_append hne hargument.pieces_eq rest
  have htokens := Token.tokenize_append hk.ne_nil hk.whole (argument ++ " " ++ rest)
  rw [hbehind, ← List.append_assoc, ← List.append_assoc] at htokens
  rw [read, htokens]
  cases tokenize rest <;> rfl

theorem read_attached (hkind : kind.takesArgument = true) (hargument : Token.IsToken argument)
    (hne : argument ≠ []) (rest : Text) :
    read (kind.keyword ++ argument ++ " " ++ rest) =
      tokenize rest >>= fun tokens => ofTokens ((kind.keyword ++ argument) :: tokens) := by
  have hwhole : Token.pieces 0 (kind.keyword ++ argument) = .ok [kind.keyword ++ argument] := by
    rw [Token.pieces_append (argumentKeyword hkind).whole, hargument.pieces_eq, Except.map,
      Token.foldr_consHead]
  rw [read, Token.tokenize_append (by simp [hne]) hwhole]
  cases tokenize rest <;> rfl

/-- The two spellings of a directive with an argument are read alike if and only if the argument
ends in a parenthesis, or the rest has no tokens. -/
theorem read_detached_eq_iff (hkind : kind.takesArgument = true)
    (hargument : Token.IsToken argument) (hp : Token.isArgument argument = true) (rest : Text) :
    read (kind.keyword ++ " " ++ argument ++ " " ++ rest) =
        read (kind.keyword ++ argument ++ " " ++ rest) ↔
      argument.getLast? = some ')' ∨ ∃ e, tokenize rest = .error e := by
  have hne : argument ≠ [] := by
    rintro rfl
    exact absurd hp (by decide)
  rw [read_detached hkind hargument hne, read_attached hkind hargument hne]
  cases htokens : tokenize rest with
  | error e => simp
  | ok tokens =>
    simp only [ok_bind, reduceCtorEq, exists_false, or_false]
    by_cases hclosed : argument.getLast? = some ')'
    · simp [hclosed, ofTokens_attached_of_closed hkind hp hclosed]
    · rw [ofTokens_attached_of_not_closed hkind hp hclosed]
      simp [hclosed, ofTokens_detached_ne hkind hp hclosed]

end Pragma

/-- A detached argument means what an attached one means, for clauses and for directives, if and
only if it ends in a parenthesis, another error aside; otherwise it is dropped. -/
theorem detached_eq_attached_iff (ctx : ClauseContext) (before behind : List Text)
    {keyword argument : Text} (hne : keyword ≠ []) (hkeyword : '(' ∉ keyword)
    (hp : Token.isArgument argument = true) :
    ((ctx.readAll (before ++ keyword :: argument :: behind)).outcome =
        (ctx.readAll (before ++ (keyword ++ argument) :: behind)).outcome ↔
      argument.getLast? = some ')' ∨ (∃ e, (ctx.gather before).outcome = .error e) ∨
        (ctx.readAll (before ++ keyword :: argument :: behind)).outcome =
          .error (.clause ctx.line (.unrecognized (keyword ++ argument) ctx.kind))) ∧
      (argument.getLast? ≠ some ')' → ∀ other, Token.isArgument other = true →
        other.getLast? ≠ some ')' →
        ctx.readAll (before ++ keyword :: argument :: behind) =
          ctx.readAll (before ++ keyword :: other :: behind)) ∧
      ∀ (kind : DirectiveKind) (rest : Text), kind.takesArgument = true → Token.IsToken argument →
        (Pragma.read (kind.keyword ++ " " ++ argument ++ " " ++ rest) =
            Pragma.read (kind.keyword ++ argument ++ " " ++ rest) ↔
          argument.getLast? = some ')' ∨ ∃ e, tokenize rest = .error e) := by
  refine ⟨?_, ?_, ?_⟩
  · exact ClauseContext.readAll_detached_eq_iff hne hkeyword hp before behind
  · intro hopen other hp' hopen'
    exact ClauseContext.readAll_detached_of_not_closed hne hkeyword hp hopen hp' hopen' before
      behind
  · intro kind rest hkind htoken
    exact Pragma.read_detached_eq_iff hkind htoken hp rest

/-- What is read of a loop without anything around it. -/
def plainContext : ClauseContext where
  kind := .loop
  line := 0
  region := none
  source := .ofText Source.defaultTabWidth ""
  ancestors := []

/-- The argument of `seq`, which takes none, and that of `wait` are dropped; a closed one is not. -/
theorem plainContext_spellings :
    (plainContext.readAll ["seq", "(a)b"]).outcome ≠ (plainContext.readAll ["seq(a)b"]).outcome ∧
      (plainContext.readAll ["private", "(a)"]).outcome =
        (plainContext.readAll ["private(a)"]).outcome ∧
      Pragma.read "wait (1)x " ≠ Pragma.read "wait(1)x " := by
  have hdropped := detached_eq_attached_iff plainContext [] []
    (show "seq".toList ≠ [] by decide) (by decide) (show Token.isArgument "(a)b" = true by decide)
  have hkept := detached_eq_attached_iff plainContext [] []
    (show "private".toList ≠ [] by decide) (by decide)
    (show Token.isArgument "(a)" = true by decide)
  have hwait := (detached_eq_attached_iff plainContext [] []
    (show "seq".toList ≠ [] by decide) (by decide)
    (show Token.isArgument "(1)x" = true by decide)).2.2 .wait "" rfl
    ⟨"(1)x", ["(1)x"], rfl, List.mem_singleton_self _⟩
  refine ⟨?_, ?_, ?_⟩
  · intro heq
    rcases hdropped.1.1 heq with hclosed | ⟨e, he⟩ | herror
    · exact absurd hclosed (by decide)
    · exact absurd he (by simp [ClauseContext.gather, WrittenClause.group])
    · have hok : (plainContext.readAll ["seq", "(a)b"]).outcome.toOption.isSome = true := by
        decide +kernel
      rw [show (plainContext.readAll ["seq", "(a)b"]).outcome = _ from herror] at hok
      exact absurd hok (by simp [Except.toOption])
  · exact hkept.1.2 (.inl (by decide))
  · intro heq
    rcases hwait.1 heq with hclosed | ⟨e, he⟩
    · exact absurd hclosed (by decide)
    · exact absurd he (by simp [tokenize, Token.pieces, Except.map])

end Offload
