import Offload.Directive.Parser
import Offload.Proofs.Detached

/-!
Fused annotations. The clauses of a construct and of its loop are written in one list. Each token
goes where the last keyword before it goes, so every clause goes to one half as a whole, and each
half reads its own clauses as they are read in the list.
-/
namespace Offload

namespace Token

/-- The token begins with the keyword of a clause that a loop accepts. -/
def fitsLoop (token : Text) : Bool :=
  (ClauseKind.ofKeyword? (split token).1).any DirectiveKind.loop.accepts

/-- The nearest token, at a position or before it, that is no argument. -/
def governing? (tokens : List Text) (position : Nat) : Option Text :=
  ((tokens.take (position + 1)).filter fun token => !isArgument token).getLast?

/-- The token at a position belongs to the loop. -/
def goesToLoop (tokens : List Text) (position : Nat) : Bool :=
  (governing? tokens position).any fitsLoop

/-- The elements at the positions that fulfil a condition. -/
def select {α : Type} (p : Nat → Bool) (elements : List α) : List α :=
  (elements.zipIdx.filter fun entry => p entry.2).map Prod.fst

end Token

namespace WrittenClause

/-- Clauses with the positions of their first tokens, where the first one stands at `position`. -/
def placedFrom : Nat → List WrittenClause → List (WrittenClause × Nat)
  | _, [] => []
  | position, w :: ws => (w, position) :: placedFrom (position + w.width) ws

/-- The clauses of a list of tokens, with the positions of their first tokens. -/
def placed (tokens : List Text) : List (WrittenClause × Nat) := placedFrom 0 (group tokens)

/-- The clauses that begin at the positions that fulfil a condition. -/
def beginning (p : Nat → Bool) (clauses : List (WrittenClause × Nat)) : List WrittenClause :=
  (clauses.filter fun entry => p entry.2).map Prod.fst

end WrittenClause

/-! Where a token goes. -/

namespace Token

variable {toLoop : Bool} {token : Text} {tokens : List Text}

/-- Where a token goes, given where the token before it goes. -/
def destination (toLoop : Bool) (token : Text) : Bool :=
  if isArgument token then toLoop else fitsLoop token

/-- Where the token at a position goes, given where the token before the list goes. -/
def goesFrom (toLoop : Bool) (tokens : List Text) (position : Nat) : Bool :=
  (governing? tokens position).elim toLoop fitsLoop

theorem goesFrom_false (tokens : List Text) : goesFrom false tokens = goesToLoop tokens := by
  funext position
  rw [goesFrom, goesToLoop]
  cases governing? tokens position <;> rfl

theorem goesFrom_cons_zero (toLoop : Bool) (token : Text) (tokens : List Text) :
    goesFrom toLoop (token :: tokens) 0 = destination toLoop token := by
  cases h : isArgument token <;> simp [goesFrom, governing?, destination, h]

theorem goesFrom_cons_succ (toLoop : Bool) (token : Text) (tokens : List Text) (position : Nat) :
    goesFrom toLoop (token :: tokens) (position + 1) =
      goesFrom (destination toLoop token) tokens position := by
  unfold goesFrom governing? destination
  rw [List.take_succ_cons]
  cases h : isArgument token with
  | true => simp [h]
  | false =>
    rw [List.filter_cons_of_pos (by simp [h]), List.getLast?_cons]
    cases ((tokens.take (position + 1)).filter fun t => !isArgument t).getLast? <;> simp

/-- An argument goes where the token before it goes. -/
theorem goesFrom_succ_of_isArgument {position : Nat} {next : Text}
    (hnext : tokens[position + 1]? = some next) (h : isArgument next = true) :
    goesFrom toLoop tokens (position + 1) = goesFrom toLoop tokens position := by
  have htake : tokens.take (position + 1 + 1) = tokens.take (position + 1) ++ [next] := by
    rw [List.take_add_one, hnext]
    rfl
  have hfilter : [next].filter (fun token => !isArgument token) = [] := by simp [h]
  unfold goesFrom governing?
  rw [htake, List.filter_append, hfilter, List.append_nil]

theorem select_cons {α : Type} (p : Nat → Bool) (first : α) (rest : List α) :
    select p (first :: rest) =
      (if p 0 then [first] else []) ++ select (fun position => p (position + 1)) rest := by
  have hshift : rest.zipIdx 1 = rest.zipIdx.map fun entry => (entry.1, entry.2 + 1) := by
    rw [List.zipIdx_succ]
  rw [select, List.zipIdx_cons, Nat.zero_add, hshift, List.filter_cons, List.filter_map]
  cases p 0 <;> simp [select, Function.comp_def]

end Token

/-! The two halves. -/

/-- The tokens of the loop, or those of the construct. -/
def routedTo (side toLoop : Bool) (tokens : List Text) : List Text :=
  if side then (routeFrom toLoop tokens).1 else (routeFrom toLoop tokens).2

section

open Token

variable {side toLoop : Bool} {token : Text} {tokens : List Text}

theorem routedTo_nil (side toLoop : Bool) : routedTo side toLoop [] = [] := by
  cases side <;> rfl

theorem routedTo_cons (side toLoop : Bool) (token : Text) (tokens : List Text) :
    routedTo side toLoop (token :: tokens) =
      if destination toLoop token = side then
        token :: routedTo side (destination toLoop token) tokens
      else routedTo side (destination toLoop token) tokens := by
  have hroute : routeFrom toLoop (token :: tokens) =
      let halves := routeFrom (destination toLoop token) tokens
      if destination toLoop token then (token :: halves.1, halves.2)
      else (halves.1, token :: halves.2) := rfl
  unfold routedTo
  rw [hroute]
  cases side <;> cases destination toLoop token <;> simp

/-- A half holds the tokens that go to it, in their order. -/
theorem routedTo_eq_select (side toLoop : Bool) (tokens : List Text) :
    routedTo side toLoop tokens =
      select (fun position => goesFrom toLoop tokens position == side) tokens := by
  induction tokens generalizing toLoop with
  | nil => exact routedTo_nil side toLoop
  | cons token tokens ih =>
    rw [routedTo_cons, ih, select_cons, goesFrom_cons_zero]
    simp only [goesFrom_cons_succ]
    by_cases h : destination toLoop token = side <;> simp [h]

/-- The half that the token before the list does not go to begins with a keyword. -/
theorem isArgument_of_routedTo_eq_cons {first : Text} {rest : List Text}
    (h : routedTo side (!side) tokens = first :: rest) : isArgument first = false := by
  induction tokens with
  | nil => simp [routedTo_nil] at h
  | cons token tokens ih =>
    rw [routedTo_cons] at h
    cases hargument : isArgument token with
    | true =>
      have hdestination : destination (!side) token = !side := by simp [destination, hargument]
      rw [hdestination, if_neg (by simp)] at h
      exact ih h
    | false =>
      split at h
      · obtain rfl := (List.cons.inj h).1
        exact hargument
      · next hother =>
        rw [Bool.eq_not.2 hother] at h
        exact ih h

end

/-! The clauses of the two halves. -/

namespace WrittenClause

open Token

variable {side toLoop : Bool} {token next : Text} {tokens rest : List Text}

theorem beginning_placedFrom_add (p : Nat → Bool) (position shift : Nat)
    (ws : List WrittenClause) :
    beginning p (placedFrom (position + shift) ws) =
      beginning (fun i => p (i + shift)) (placedFrom position ws) := by
  induction ws generalizing position with
  | nil => rfl
  | cons w ws ih =>
    have hrest := ih (position + w.width)
    rw [Nat.add_right_comm] at hrest
    unfold beginning at hrest ⊢
    simp only [placedFrom, List.filter_cons]
    split <;> simp [hrest]

theorem beginning_cons (p : Nat → Bool) (w : WrittenClause) (ws : List WrittenClause) :
    beginning p (placedFrom 0 (w :: ws)) =
      (if p 0 then [w] else []) ++ beginning (fun i => p (i + w.width)) (placedFrom 0 ws) := by
  have hshift := beginning_placedFrom_add p 0 w.width ws
  rw [placedFrom, ← hshift]
  unfold beginning
  rw [List.filter_cons]
  split <;> simp_all

/-- A token whose next one is no argument is a clause of its own. -/
theorem group_cons_of_head (h : ∀ first more, rest = first :: more → isArgument first = false) :
    group (token :: rest) = attached token :: group rest := by
  cases rest with
  | nil => rfl
  | cons first more => simp [group, h first more rfl]

/-- Behind a token of one half, the next token of that half is the next token of the list, or it is
no argument. -/
theorem group_routedTo_cons (h : (Token.split token).2.isSome = true ∨ isArgument next = false) :
    group (token :: routedTo side side (next :: tokens)) =
      attached token :: group (routedTo side side (next :: tokens)) := by
  rcases h with h | h
  · exact group_attached h _
  · refine group_cons_of_head fun first more hfirst => ?_
    -- A keyword goes its own way, wherever the token before it has gone.
    have hsame : routedTo side side (next :: tokens) = routedTo side (!side) (next :: tokens) := by
      simp [routedTo_cons, destination, h]
    exact isArgument_of_routedTo_eq_cons (hsame ▸ hfirst)

/-- A half reads the clauses that begin with its tokens. -/
theorem group_routedTo (side toLoop : Bool) (tokens : List Text) :
    group (routedTo side toLoop tokens) =
      beginning (fun position => goesFrom toLoop tokens position == side) (placed tokens) := by
  unfold placed
  fun_induction group tokens generalizing toLoop with
  | case1 => rw [routedTo_nil]; rfl
  | case2 token =>
    rw [routedTo_cons, routedTo_nil, beginning_cons, goesFrom_cons_zero]
    by_cases h : destination toLoop token = side
    · simp [h, group, beginning, placedFrom]
    · simp [h, group, beginning, placedFrom]
  | case3 token next rest hdetached ih =>
    rw [Bool.and_eq_true] at hdetached
    have hnext : ∀ toLoop, destination toLoop next = toLoop := by
      intro toLoop
      simp [destination, hdetached.2]
    rw [beginning_cons, goesFrom_cons_zero, width, if_pos rfl]
    simp only [goesFrom_cons_succ, hnext, ← ih]
    rw [routedTo_cons, routedTo_cons, hnext]
    by_cases h : destination toLoop token = side
    · simp [h, group, hdetached]
    · simp [h]
  | case4 token next rest hattached ih =>
    have hplain : (Token.split token).2.isSome = true ∨ isArgument next = false := by
      rw [Bool.and_eq_true, not_and_or, Bool.not_eq_true, Bool.not_eq_true] at hattached
      refine hattached.imp_left fun hsome => ?_
      rw [← Option.not_isNone, hsome]
      rfl
    have hwidth : (attached token).width = 1 := rfl
    rw [beginning_cons, goesFrom_cons_zero, hwidth]
    simp only [goesFrom_cons_succ, ← ih]
    rw [routedTo_cons]
    by_cases h : destination toLoop token = side
    · simp [h, group_routedTo_cons hplain]
    · simp [h]

/-! Positions. -/

theorem map_fst_placedFrom (position : Nat) (ws : List WrittenClause) :
    (placedFrom position ws).map Prod.fst = ws := by
  induction ws generalizing position with
  | nil => rfl
  | cons w ws ih => rw [placedFrom, List.map_cons, ih]

/-- A clause begins with the token at its position, and a detached argument is the token behind. -/
theorem token_of_mem_placedFrom {start : Nat} {entry : WrittenClause × Nat}
    (h : entry ∈ placedFrom start (group tokens)) :
    ∃ position, entry.2 = start + position ∧ tokens[position]? = some entry.1.token ∧
      (entry.1.detached = true →
        ∃ next, tokens[position + 1]? = some next ∧ isArgument next = true) := by
  fun_induction group tokens generalizing start with
  | case1 => simp [placedFrom] at h
  | case2 token =>
    obtain rfl : entry = (attached token, start) := by simpa [placedFrom] using h
    exact ⟨0, rfl, rfl, fun hdetached => absurd hdetached (by simp [attached])⟩
  | case3 token next rest hdetached ih =>
    rw [Bool.and_eq_true] at hdetached
    rcases List.mem_cons.1 h with rfl | h
    · exact ⟨0, rfl, rfl, fun _ => ⟨next, rfl, hdetached.2⟩⟩
    · obtain ⟨position, hposition, hfound⟩ := ih h
      rw [width, if_pos rfl] at hposition
      exact ⟨position + 2, by omega, hfound⟩
  | case4 token next rest hattached ih =>
    rcases List.mem_cons.1 h with rfl | h
    · exact ⟨0, rfl, rfl, fun hdetached => absurd hdetached (by simp [attached])⟩
    · obtain ⟨position, hposition, hfound⟩ := ih h
      have hwidth : (attached token).width = 1 := rfl
      exact ⟨position + 1, by omega, hfound⟩

end WrittenClause

open Token WrittenClause

/-- A fused annotation is split without loss. The tokens of the loop and those of the construct are
the tokens at complementary positions, and the clauses of both are the clauses of the whole list that
begin at these positions. A clause goes to the loop exactly if the nearest keyword, at its beginning
or before it, is one that a loop accepts, and a detached argument goes with its clause. -/
theorem routeFused_splits_clauses (tokens : List Text) :
    (routeFused tokens).1 = select (goesToLoop tokens) tokens ∧
      (routeFused tokens).2 = select (fun position => !goesToLoop tokens position) tokens ∧
      (placed tokens).map Prod.fst = group tokens ∧
      group (routeFused tokens).1 = beginning (goesToLoop tokens) (placed tokens) ∧
      group (routeFused tokens).2 =
        beginning (fun position => !goesToLoop tokens position) (placed tokens) ∧
      ∀ w position, (w, position) ∈ placed tokens → tokens[position]? = some w.token ∧
        (w.detached = true → goesToLoop tokens (position + 1) = goesToLoop tokens position) := by
  have hloop : (fun position => goesFrom false tokens position == true) = goesToLoop tokens := by
    simp [goesFrom_false]
  have hconstruct : (fun position => goesFrom false tokens position == false) =
      fun position => !goesToLoop tokens position := by
    simp [goesFrom_false]
  refine ⟨?_, ?_, map_fst_placedFrom 0 _, ?_, ?_, ?_⟩
  · rw [← hloop]
    exact routedTo_eq_select true false tokens
  · rw [← hconstruct]
    exact routedTo_eq_select false false tokens
  · rw [← hloop]
    exact group_routedTo true false tokens
  · rw [← hconstruct]
    exact group_routedTo false false tokens
  · intro w position hmem
    obtain ⟨place, hplace, htoken, hdetached⟩ := token_of_mem_placedFrom hmem
    obtain rfl : position = place := by simpa using hplace
    refine ⟨htoken, fun h => ?_⟩
    obtain ⟨next, hnext, hargument⟩ := hdetached h
    rw [← goesFrom_false]
    exact goesFrom_succ_of_isArgument hnext hargument

/-- Parentheses at the front stay with the construct, and a run of them stays with its keyword. -/
example : routeFused ["(0)".toList, "gang".toList, "(4)".toList, "(5)".toList, "async".toList,
      "(1)".toList, "seq".toList] =
    (["gang".toList, "(4)".toList, "(5)".toList, "seq".toList],
      ["(0)".toList, "async".toList, "(1)".toList]) := by decide

end Offload
