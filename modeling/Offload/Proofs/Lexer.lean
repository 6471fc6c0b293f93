import Offload.Proofs.Compound

/-!
Lines and the whole text. Reading line by line, with brackets and an open block literal handed on, is
the same as reading the joined lines character by character: at the start of every line both stand
at the same depth, and both stand inside a block literal or outside.
-/
namespace Offload

namespace Lexer

/-- What the characters of a text belong to. -/
inductive Mode
  | code
  | comment
  | quoted (quote : Char)
  | block (quote : Char)
deriving DecidableEq

end Lexer

/-- A reader of a whole text. -/
structure Lexer where
  mode : Lexer.Mode := .code
  /-- Open brackets of the code. -/
  depth : Nat := 0
  /-- Characters to pass over: one behind a backslash, two of three quotes. -/
  skip : Nat := 0
deriving DecidableEq

namespace Lexer

/-- Comments and literals in single quotes end with the line, also behind a backslash. -/
def endLine (s : Lexer) : Lexer :=
  match s.mode with
  | .comment | .quoted _ => { s with mode := .code, skip := 0 }
  | .code | .block _ => { s with skip := 0 }

/-- Reads one character; `rest` is the text behind it. -/
def step (s : Lexer) (c : Char) (rest : Text) : Lexer :=
  if c = '\n' then s.endLine
  else if 0 < s.skip then { s with skip := s.skip - 1 }
  else
    match s.mode with
    | .code =>
      if c = '#' then { s with mode := .comment }
      else if Text.isQuote c then
        if Text.startsWith [c, c] rest then { s with mode := .block c, skip := 2 }
        else { s with mode := .quoted c }
      else { s with depth := bracketStep s.depth c }
    | .comment => s
    | .quoted quote =>
      if c = '\\' then { s with skip := 1 }
      else if c = quote then { s with mode := .code }
      else s
    | .block quote =>
      if c = '\\' then { s with skip := 1 }
      else if c = quote ∧ Text.startsWith [quote, quote] rest then
        { s with mode := .code, skip := 2 }
      else s

/-- The state behind the first characters of a text. -/
def after (t : Text) : Nat → Lexer
  | 0 => {}
  | n + 1 =>
    match t.drop n with
    | [] => after t n
    | c :: rest => (after t n).step c rest

def inBlock (s : Lexer) : Bool :=
  match s.mode with
  | .block _ => true
  | _ => false

/-- The state behind some more characters, with `rest` in sight behind them. -/
def run (s : Lexer) (rest : Text) : Text → Lexer
  | [] => s
  | c :: cs => run (s.step c (cs ++ rest)) rest cs

theorem after_add {t u rest : Text} {n : Nat} (h : t.drop n = u ++ rest) :
    after t (n + u.length) = run (after t n) rest u := by
  induction u generalizing n with
  | nil => rfl
  | cons c cs ih =>
    have hnext : t.drop (n + 1) = cs ++ rest := by
      rw [← List.drop_drop, h]
      rfl
    have hstep : after t (n + 1) = (after t n).step c (cs ++ rest) := by
      rw [after, h]
      rfl
    rw [List.length_cons, ← Nat.add_assoc, Nat.add_right_comm, ih hnext, hstep, run]

/-- A comment goes on to the end of its line. -/
theorem run_comment {s : Lexer} (hs : s.mode = .comment) (hskip : s.skip = 0) {line : Text}
    (hline : '\n' ∉ line) (rest : Text) : run s rest line = s := by
  induction line with
  | nil => rfl
  | cons c cs ih =>
    have hc : c ≠ '\n' := fun h => hline (h ▸ List.mem_cons_self)
    have hstep : s.step c (cs ++ rest) = s := by
      simp [step, hc, hskip, hs]
    rw [run, hstep]
    exact ih fun h => hline (List.mem_cons_of_mem c h)

/-- The reader of a whole text at a place that the reader of a line has reached. -/
def ofLexState (s : LexState) (skip : Nat) : Lexer where
  mode :=
    match s.mode with
    | .code => .code
    | .literal quote => .quoted quote
    | .block quote => .block quote
  depth := s.depth
  skip := skip

/-- The reader of a whole text at the start of a line. -/
def entering (c : Carry) : Lexer := ofLexState c.start 0

theorem endLine_ofLexState (s : LexState) (skip : Nat) :
    (ofLexState s skip).endLine = entering (Carry.finish s) := by
  obtain ⟨mode, depth, last⟩ := s
  cases mode <;> rfl

/-- Two equal characters behind a place stand on its line or not at all. -/
theorem startsWith_append_newline {c : Char} (hc : c ≠ '\n') (line more : Text) :
    Text.startsWith [c, c] (line ++ '\n' :: more) = Text.startsWith [c, c] line := by
  have hmark : '\n' ∉ [c, c] := by simp [Ne.symm hc]
  rw [Text.startsWith, Text.after?_append_newline hmark, Option.isSome_map, Text.startsWith]

/-- Over a line the two readers go together; `s` and `skip` tell where the line's own one stands. -/
theorem endLine_run {line : Text} (hline : '\n' ∉ line) (s : LexState) (skip : Nat) (more : Text) :
    (run (ofLexState s skip) ('\n' :: more) line).endLine =
      entering (Carry.finish (s.read skip line)) := by
  induction line generalizing s skip with
  | nil => exact endLine_ofLexState s skip
  | cons c cs ih =>
    have hc : c ≠ '\n' := fun h => hline (h ▸ List.mem_cons_self)
    have hcs : '\n' ∉ cs := fun h => hline (List.mem_cons_of_mem c h)
    have htriple := startsWith_append_newline hc cs more
    rw [run]
    cases skip with
    | succ skip =>
      have hstep : (ofLexState s (skip + 1)).step c (cs ++ '\n' :: more) = ofLexState s skip := by
        simp [step, hc, ofLexState]
      rw [hstep, LexState.read]
      exact ih hcs s skip
    | zero =>
      obtain ⟨mode, depth, last⟩ := s
      cases mode with
      | code =>
        simp only [LexState.read, step, hc, ofLexState, if_false, Nat.lt_irrefl, htriple]
        by_cases hcomment : c = '#'
        · simp only [hcomment, if_true]
          rw [run_comment rfl rfl hcs]
          rfl
        · simp only [hcomment, if_false]
          split
          · split
            · exact ih hcs ⟨.block c, depth, last⟩ 2
            · exact ih hcs ⟨.literal c, depth, some c⟩ 0
          · exact ih hcs ⟨.code, bracketStep depth c, if isBlank c then last else some c⟩ 0
      | literal quote =>
        simp only [LexState.read, step, hc, ofLexState, if_false, Nat.lt_irrefl]
        split
        · exact ih hcs ⟨.literal quote, depth, last⟩ 1
        · split
          · exact ih hcs ⟨.code, depth, last⟩ 0
          · exact ih hcs ⟨.literal quote, depth, last⟩ 0
      | block quote =>
        simp only [LexState.read, step, hc, ofLexState, if_false, Nat.lt_irrefl]
        split
        · exact ih hcs ⟨.block quote, depth, last⟩ 1
        · by_cases hquote : c = quote
          · subst hquote
            simp only [htriple]
            split
            · exact ih hcs ⟨.code, depth, last⟩ 2
            · exact ih hcs ⟨.block c, depth, last⟩ 0
          · simp only [hquote, false_and, if_false]
            exact ih hcs ⟨.block quote, depth, last⟩ 0

/-- Over a whole line, with its end, the reader goes from one start of a line to the next. -/
theorem run_line {line : Text} (hline : '\n' ∉ line) (c : Carry) (more : Text) :
    (run (entering c) ('\n' :: more) line).step '\n' more = entering (c.next line) :=
  endLine_run hline c.start 0 more

end Lexer

namespace Text

variable {ls : List Text} {i : Nat}

/-- The number of characters before line `i`, line ends included. -/
def offset (ls : List Text) (i : Nat) : Nat := ((ls.take i).flatMap (· ++ ['\n'])).length

theorem offset_succ (h : i < ls.length) : offset ls (i + 1) = offset ls i + ls[i].length + 1 := by
  have htake : ls.take (i + 1) = ls.take i ++ [ls[i]] := by simp
  rw [offset, htake, List.flatMap_append, List.length_append, ← offset]
  simp [Nat.add_assoc]

theorem unlines_drop (h : i + 1 < ls.length) :
    unlines (ls.drop i) = ls[i] ++ '\n' :: unlines (ls.drop (i + 1)) := by
  rw [List.drop_eq_getElem_cons (Nat.lt_of_succ_lt h), List.drop_eq_getElem_cons h,
    unlines_cons_cons]

theorem drop_offset (h : i < ls.length) :
    (unlines ls).drop (offset ls i) = unlines (ls.drop i) := by
  induction i with
  | zero => rfl
  | succ i ih =>
    have hi : i < ls.length := Nat.lt_of_succ_lt h
    rw [offset_succ hi, ← List.drop_drop, ← List.drop_drop, ih hi, unlines_drop h, List.drop_left]
    rfl

end Text

/-- At the start of a line the reader of the joined lines stands where the lines before it lead. -/
theorem Lexer.after_offset {ls : List Text} (hls : ∀ l ∈ ls, '\n' ∉ l) {i : Nat}
    (h : i < ls.length) :
    after (Text.unlines ls) (Text.offset ls i) = entering (Carry.after (ls.take i)) := by
  induction i with
  | zero => rfl
  | succ i ih =>
    have hi : i < ls.length := Nat.lt_of_succ_lt h
    have hline : '\n' ∉ ls[i] := hls _ (List.getElem_mem hi)
    have hdrop : (Text.unlines ls).drop (Text.offset ls i) =
        ls[i] ++ '\n' :: Text.unlines (ls.drop (i + 1)) := by
      rw [Text.drop_offset hi, Text.unlines_drop h]
    have hend : (Text.unlines ls).drop (Text.offset ls i + ls[i].length) =
        ['\n'] ++ Text.unlines (ls.drop (i + 1)) := by
      rw [← List.drop_drop, hdrop, List.drop_left]
      rfl
    have hcarry : Carry.after (ls.take (i + 1)) = (Carry.after (ls.take i)).next ls[i] := by
      have htake : ls.take (i + 1) = ls.take i ++ [ls[i]] := by simp
      rw [htake, Carry.after, List.foldl_append, ← Carry.after]
      rfl
    calc after (Text.unlines ls) (Text.offset ls (i + 1))
        = (after (Text.unlines ls) (Text.offset ls i + ls[i].length)).step '\n'
            (Text.unlines (ls.drop (i + 1))) := by
          rw [Text.offset_succ hi]
          exact after_add hend
      _ = (run (entering (Carry.after (ls.take i))) ('\n' :: Text.unlines (ls.drop (i + 1)))
            ls[i]).step '\n' (Text.unlines (ls.drop (i + 1))) := by rw [after_add hdrop, ih hi]
      _ = entering (Carry.after (ls.take (i + 1))) := by rw [run_line hline, hcarry]

/-- The reader of the joined lines of a text at the start of line `i`. -/
def Text.lexerAt (t : Text) (i : Nat) : Lexer :=
  Lexer.after (unlines t.lines) (offset t.lines i)

theorem Text.lexerAt_eq_entering {t : Text} {i : Nat} (h : i < t.lines.length) :
    t.lexerAt i = Lexer.entering (Carry.after (t.lines.take i)) :=
  Lexer.after_offset (fun _ hl => newline_not_mem_of_mem_lines hl) h

namespace Source

/-- The lines of a source are those of a text, and what they tell is what a reader of the whole
text finds. -/
structure FollowsLexer (t : Text) (s : Source) : Prop where
  texts : s.lines.map Line.text = t.lines
  inString : ∀ (i : Nat) (line : Line), s.lines[i]? = some line →
    (line.inString = true ↔ (t.lexerAt i).inBlock = true)
  /-- The scan comes to line `i` with the reader's depth. -/
  depth : ∀ i < t.lines.length,
    s.lines.drop i = Line.scan s.tabWidth (s.carryAt i) (t.lines.drop i) ∧
      (s.carryAt i).depth = (t.lexerAt i).depth
  first : ∀ line : Line, s.lines[0]? = some line → line.continuation = false
  next : ∀ (i : Nat) (line line' : Line), s.lines[i]? = some line → s.lines[i + 1]? = some line' →
    line'.continuation = line.continues
  string : ∀ (i : Nat) (line : Line), s.lines[i]? = some line → line.inString = true →
    line.kind = .code ∧ line.continuation = true
  /-- Trivia keep a statement open but open none. -/
  trivia : ∀ (i : Nat) (line : Line), s.lines[i]? = some line → line.inString = false →
    line.kind ≠ .code → line.continues = true → line.continuation = true

variable {s : Source} {i : Nat} {line : Line}

theorem texts_ofText (tabWidth : Nat) (t : Text) :
    (ofText tabWidth t).lines.map Line.text = t.lines := by
  apply List.ext_getElem?
  intro i
  rw [List.getElem?_map, ofText, Line.getElem?_scan]
  cases t.lines[i]? <;> rfl

theorem size_ofText (tabWidth : Nat) (t : Text) : (ofText tabWidth t).size = t.lines.length := by
  rw [← texts_ofText tabWidth t, List.length_map, size]

theorem carryAt_ofText (tabWidth : Nat) (t : Text) (i : Nat) :
    (ofText tabWidth t).carryAt i = Carry.after (t.lines.take i) := by
  rw [carryAt, List.map_take, texts_ofText]

theorem eq_ofText_of_getElem? {tabWidth : Nat} {t : Text}
    (h : (ofText tabWidth t).lines[i]? = some line) :
    line = Line.ofText (ofText tabWidth t).tabWidth ((ofText tabWidth t).carryAt i) line.text := by
  rw [carryAt_ofText]
  rw [ofText, Line.getElem?_scan, Option.map_eq_some_iff] at h
  obtain ⟨text, -, rfl⟩ := h
  rfl

theorem has_of_getElem? {p : Line → Bool} (h : s.lines[i]? = some line) : s.has p i = p line := by
  rw [has, h, Option.any_some]

/-- From every line on, a source is the scan of the rest of its text. -/
theorem drop_lines_ofText (tabWidth : Nat) (t : Text) (i : Nat) :
    (ofText tabWidth t).lines.drop i =
      Line.scan (ofText tabWidth t).tabWidth ((ofText tabWidth t).carryAt i) (t.lines.drop i) := by
  by_cases hi : i ≤ t.lines.length
  · have hlength : i = (Line.scan (max tabWidth 1) {} (t.lines.take i)).length := by
      rw [Line.length_scan, List.length_take, Nat.min_eq_left hi]
    calc (ofText tabWidth t).lines.drop i
        = (Line.scan (max tabWidth 1) {} (t.lines.take i ++ t.lines.drop i)).drop i := by
          rw [List.take_append_drop, ofText]
      _ = Line.scan (max tabWidth 1) (Carry.after (t.lines.take i)) (t.lines.drop i) := by
          rw [Line.scan_append, ← Carry.after]
          exact List.drop_left' hlength.symm
      _ = _ := by rw [carryAt_ofText, ofText]
  · have hsize := size_ofText tabWidth t
    rw [size] at hsize
    rw [List.drop_of_length_le (by omega), List.drop_of_length_le (by omega), Line.scan]

/-- Lines are read alike one by one and as a whole, in every text. -/
theorem followsLexer_ofText (tabWidth : Nat) (t : Text) : (ofText tabWidth t).FollowsLexer t := by
  have hscanned := scanned_ofText tabWidth t
  have hsize : ∀ {i : Nat} {line : Line}, (ofText tabWidth t).lines[i]? = some line →
      i < (ofText tabWidth t).size := fun h => (List.getElem?_eq_some_iff.1 h).1
  have hstring : ∀ {i : Nat} {line : Line}, (ofText tabWidth t).lines[i]? = some line →
      line.inString = (Carry.after (t.lines.take i)).quote.isSome := by
    intro i line h
    rw [eq_ofText_of_getElem? h, carryAt_ofText]
    rfl
  constructor
  case texts => exact texts_ofText tabWidth t
  case inString =>
    intro i line h
    have hi : i < t.lines.length := size_ofText tabWidth t ▸ hsize h
    rw [hstring h, Text.lexerAt_eq_entering hi]
    cases hquote : (Carry.after (t.lines.take i)).quote <;>
      simp [Lexer.entering, Lexer.ofLexState, Lexer.inBlock, Carry.start, hquote]
  case depth =>
    intro i h
    refine ⟨drop_lines_ofText tabWidth t i, ?_⟩
    rw [Text.lexerAt_eq_entering h, carryAt_ofText]
    rfl
  case first =>
    intro line h
    rw [← has_of_getElem? (p := Line.continuation) h]
    exact hscanned.fresh
  case next =>
    intro i line line' h h'
    have hnext := hscanned.next i (hsize h')
    rwa [has_of_getElem? h', has_of_getElem? h] at hnext
  case string =>
    intro i line h hin
    have hcontinuation := hscanned.string i (by rw [has_of_getElem? h, hin])
    rw [has_of_getElem? h] at hcontinuation
    rw [hstring h] at hin
    refine ⟨?_, hcontinuation⟩
    rw [eq_ofText_of_getElem? h, carryAt_ofText]
    exact if_pos hin
  case trivia =>
    intro i line h hout hkind hcontinues
    have htrivia : (ofText tabWidth t).has Line.isTrivia i = true := by
      simp [has_of_getElem? h, Line.isTrivia, hout, hkind]
    by_contra hfresh
    have hclosed := hscanned.trivia i htrivia (by rw [has_of_getElem? h]; simpa using hfresh)
    rw [has_of_getElem? h, hcontinues] at hclosed
    exact absurd hclosed (by simp)

end Source
end Offload
