import Offload.Proofs.Expression
import Offload.Proofs.Lexer

/-!
Closed texts on several lines. Over a closed text without comments, whose single-quoted literals end
on their lines, a reader of the source never has fewer brackets open than before it. A statement that
opens a bracket before such a text therefore reaches to the end of the text.
-/
namespace Offload

namespace Text

/-- A line ends in a literal only between triple quotes. -/
def EndsOnLine (l : Text) : Prop :=
  '\n' ∈ l → ∃ quote body, isQuote quote = true ∧ TripleQuotable quote body ∧
    l = quote :: quote :: quote :: (body ++ [quote, quote, quote])

theorem ne_of_isQuote {quote : Char} (h : isQuote quote = true) :
    quote ≠ '\n' ∧ quote ≠ '#' ∧ quote ≠ '\\' := by
  refine ⟨?_, ?_, ?_⟩ <;> (rintro rfl; exact absurd h (by decide))

/-- A text that begins with a front on one line has it before its first line end. -/
theorem exists_of_append_newline {front behind statement more : Text} (hfront : '\n' ∉ front)
    (h : statement ++ '\n' :: more = front ++ behind) :
    ∃ a, statement = front ++ a ∧ behind = a ++ '\n' :: more := by
  rcases List.append_eq_append_iff.1 h with ⟨x, hx, hmore⟩ | ⟨a, ha, hmore⟩
  · cases x with
    | nil => exact ⟨[], by simpa using hx.symm, hmore.symm⟩
    | cons d x =>
      obtain ⟨rfl, -⟩ := List.cons.inj hmore
      exact absurd (by simp [hx]) hfront
  · exact ⟨a, ha, hmore⟩

theorem exists_of_line_end {front t behind statement more : Text} {c : Char}
    (hfront : '\n' ∉ front) (hc : c ≠ '\n')
    (h : statement ++ '\n' :: more = front ++ (t ++ c :: behind))
    (hshort : ¬ front ++ (t ++ [c]) <+: statement) :
    ∃ a b, t = a ++ '\n' :: b ∧ statement = front ++ a ∧ more = b ++ c :: behind := by
  obtain ⟨a, rfl, ha⟩ := exists_of_append_newline hfront h
  rcases List.append_eq_append_iff.1 ha with ⟨x, rfl, hmore⟩ | ⟨x, rfl, hmore⟩
  · cases x with
    | nil => exact absurd (List.cons.inj hmore).1 hc
    | cons d x =>
      obtain ⟨rfl, -⟩ := List.cons.inj hmore
      exact absurd ⟨x, by simp⟩ hshort
  · cases x with
    | nil => exact absurd (List.cons.inj hmore).1.symm hc
    | cons d x =>
      obtain ⟨rfl, rfl⟩ := List.cons.inj hmore
      exact ⟨a, x, rfl, rfl, rfl⟩

end Text

namespace Lexer

/-- Reading a text leads from one state to another, and nowhere on the way are fewer than `low`
brackets open. -/
inductive Leads (low : Nat) (rest : Text) : Lexer → Text → Lexer → Prop
  | nil {s : Lexer} : low ≤ s.depth → Leads low rest s [] s
  | cons {s s' : Lexer} {c : Char} {t : Text} : low ≤ s.depth →
      Leads low rest (s.step c (t ++ rest)) t s' → Leads low rest s (c :: t) s'

variable {low depth : Nat} {rest t u : Text} {c quote : Char} {s s' s'' : Lexer}

theorem run_append (s : Lexer) (rest t u : Text) :
    run s rest (t ++ u) = run (run s (u ++ rest) t) rest u := by
  induction t generalizing s with
  | nil => rfl
  | cons c cs ih =>
    rw [List.cons_append, run, run, ih, List.append_assoc]

theorem Leads.run_eq (h : Leads low rest s t s') : run s rest t = s' := by
  induction h with
  | nil => rfl
  | cons _ _ ih => exact ih

theorem Leads.le_depth (h : Leads low rest s t s') {a b : Text} (heq : t = a ++ b) :
    low ≤ (run s (b ++ rest) a).depth := by
  induction h generalizing a with
  | nil hlow =>
    obtain ⟨rfl, -⟩ := List.nil_eq_append_iff.1 heq
    exact hlow
  | cons hlow _ ih =>
    cases a with
    | nil => exact hlow
    | cons d a =>
      obtain ⟨rfl, rfl⟩ := List.cons.inj heq
      rw [run, ← List.append_assoc]
      exact ih rfl

theorem Leads.append (h : Leads low (u ++ rest) s t s') (h' : Leads low rest s' u s'') :
    Leads low rest s (t ++ u) s'' := by
  induction h with
  | nil => exact h'
  | cons hlow _ ih =>
    refine .cons hlow ?_
    rw [List.append_eq, List.append_assoc]
    exact ih h'

/-- One character, with the state behind it given. -/
theorem Leads.of_step {m : Lexer} (hlow : low ≤ s.depth) (hstep : s.step c (t ++ rest) = m)
    (h : Leads low rest m t s') : Leads low rest s (c :: t) s' :=
  .cons hlow (hstep ▸ h)

/-! Code. -/

theorem step_code (hcomment : c ≠ '#') (hquote : Text.isQuote c = false) (depth : Nat)
    (rest : Text) :
    (⟨.code, depth, 0⟩ : Lexer).step c rest = ⟨.code, bracketStep depth c, 0⟩ := by
  by_cases hline : c = '\n'
  · subst hline
    rfl
  · simp [step, hline, hcomment, hquote]

theorem leads_plain (hlow : low ≤ depth) (h : ∀ c ∈ t, isOpening c = false ∧ isClosing c = false)
    (hcode : ∀ c ∈ t, c ≠ '#' ∧ Text.isQuote c = false) :
    Leads low rest ⟨.code, depth, 0⟩ t ⟨.code, depth, 0⟩ := by
  induction t with
  | nil => exact .nil hlow
  | cons c cs ih =>
    obtain ⟨⟨hopen, hclose⟩, hcs⟩ := List.forall_mem_cons.1 h
    obtain ⟨⟨hcomment, hquote⟩, hcode⟩ := List.forall_mem_cons.1 hcode
    refine .of_step hlow (step_code hcomment hquote depth _) ?_
    rw [bracketStep_of_plain hopen hclose]
    exact ih hcs hcode

/-! Literals. -/

theorem leads_quotable (h : Text.Quotable quote t) (hline : '\n' ∉ t) (hlow : low ≤ depth) :
    Leads low rest ⟨.quoted quote, depth, 0⟩ t ⟨.quoted quote, depth, 0⟩ := by
  induction h with
  | nil => exact .nil hlow
  | escape _ ih =>
    simp only [List.mem_cons, not_or] at hline
    have hnext := Ne.symm hline.2.1
    refine .of_step hlow (m := ⟨.quoted quote, depth, 1⟩) rfl ?_
    refine .of_step hlow (by simp [step, hnext]) (ih hline.2.2)
  | char hne hother _ ih =>
    simp only [List.mem_cons, not_or] at hline
    have hnext := Ne.symm hline.1
    exact .of_step hlow (by simp [step, hnext, hne, hother]) (ih hline.2)

theorem leads_tripleQuotable (h : Text.TripleQuotable quote t) (hlow : low ≤ depth) :
    Leads low (quote :: quote :: quote :: rest) ⟨.block quote, depth, 0⟩ t
      ⟨.block quote, depth, 0⟩ := by
  induction h with
  | nil => exact .nil hlow
  | @escape c t _ ih =>
    refine .of_step hlow (m := ⟨.block quote, depth, 1⟩) rfl ?_
    refine .of_step hlow (m := ⟨.block quote, depth, 0⟩) ?_ ih
    by_cases hline : c = '\n'
    · subst hline
      rfl
    · simp [step, hline]
  | @char c t hne hmark _ ih =>
    refine .of_step hlow (m := ⟨.block quote, depth, 0⟩) ?_ ih
    have hopen : ¬ (c = quote ∧
        Text.startsWith [quote, quote] (t ++ quote :: quote :: quote :: rest) = true) := by
      rintro ⟨rfl, hstart⟩
      rcases t with _ | ⟨a, _ | ⟨b, t⟩⟩ <;> simp_all [Text.startsWith, Text.after?]
    by_cases hline : c = '\n'
    · subst hline
      rfl
    · simp only [step, hline, if_false, Nat.lt_irrefl, hne, hopen]

theorem leads_single (hquote : Text.isQuote quote = true) (h : Text.Quotable quote t)
    (hline : '\n' ∉ t) (hnext : t = [] → rest.head? ≠ some quote) (hlow : low ≤ depth) :
    Leads low rest ⟨.code, depth, 0⟩ (quote :: (t ++ [quote])) ⟨.code, depth, 0⟩ := by
  obtain ⟨hend, hcomment, hbackslash⟩ := Text.ne_of_isQuote hquote
  have hopen : Text.startsWith [quote, quote] (t ++ [quote] ++ rest) = false := by
    cases h with
    | nil =>
      have hhead := hnext rfl
      cases rest with
      | nil => simp [Text.startsWith, Text.after?]
      | cons c cs =>
        have hne : quote ≠ c := by simpa [eq_comm] using hhead
        simp [Text.startsWith, Text.after?, hne]
    | escape => simp [Text.startsWith, Text.after?, hbackslash]
    | char _ hother => simp [Text.startsWith, Text.after?, Ne.symm hother]
  refine .of_step hlow (m := ⟨.quoted quote, depth, 0⟩) ?_ ?_
  · simp only [step, hend, hcomment, hquote, hopen, if_false, if_true, Nat.lt_irrefl,
      Bool.false_eq_true]
  · refine (leads_quotable h hline hlow).append (.of_step hlow ?_ (.nil hlow))
    simp [step, hend, hbackslash]

theorem leads_triple (hquote : Text.isQuote quote = true) (h : Text.TripleQuotable quote t)
    (hlow : low ≤ depth) :
    Leads low rest ⟨.code, depth, 0⟩ (quote :: quote :: quote :: (t ++ [quote, quote, quote]))
      ⟨.code, depth, 0⟩ := by
  obtain ⟨hend, hcomment, hbackslash⟩ := Text.ne_of_isQuote hquote
  have hstart : ∀ u, Text.startsWith [quote, quote] (quote :: quote :: u) = true := by
    intro u
    simp [Text.startsWith, Text.after?]
  -- Two quotes are passed over behind the first one, at either end.
  have hskip : ∀ {mode u s'}, Leads low rest ⟨mode, depth, 0⟩ u s' →
      Leads low rest ⟨mode, depth, 2⟩ (quote :: quote :: u) s' := by
    intro mode u s' hu
    refine .of_step hlow (m := ⟨mode, depth, 1⟩) (by simp [step, hend]) ?_
    exact .of_step hlow (by simp [step, hend]) hu
  refine .of_step hlow (m := ⟨.block quote, depth, 2⟩) ?_ (hskip ?_)
  · simp only [step, hend, hcomment, hquote, List.cons_append, hstart, if_false, if_true,
      Nat.lt_irrefl]
  · refine (leads_tripleQuotable h hlow).append ?_
    refine .of_step hlow (m := ⟨.code, depth, 2⟩) ?_ (hskip (.nil hlow))
    simp only [step, hend, hbackslash, List.cons_append, hstart, if_false, and_self, if_true,
      Nat.lt_irrefl]

theorem leads_literal {l : Text} (h : Text.IsLiteral l) (hline : Text.EndsOnLine l)
    (hnext : l.length = 2 → rest.head? ≠ l.head?) (hlow : low ≤ depth) :
    Leads low rest ⟨.code, depth, 0⟩ l ⟨.code, depth, 0⟩ := by
  by_cases hmem : '\n' ∈ l
  · obtain ⟨quote, body, hquote, hbody, rfl⟩ := hline hmem
    exact leads_triple hquote hbody hlow
  · cases h with
    | @single quote body hquote hbody =>
      refine leads_single hquote hbody (fun h => hmem (by simp [h])) ?_ hlow
      rintro rfl
      exact hnext rfl
    | triple hquote hbody => exact leads_triple hquote hbody hlow

/-- Over a closed text without comments the reader comes back to the depth at which it started. -/
theorem leads_closed {admits : Bool → Char → Bool} {inside : Bool} {literals : List (Bool × Text)}
    (h : Text.Closed admits inside literals t) (hcomment : ∀ inside, admits inside '#' = false)
    (hliterals : ∀ l ∈ literals, Text.EndsOnLine l.2)
    (hrest : ∀ c, rest.head? = some c → Text.isQuote c = false) (hlow : low ≤ depth) :
    Leads low rest ⟨.code, depth, 0⟩ t ⟨.code, depth, 0⟩ := by
  induction h generalizing depth rest with
  | nil => exact .nil hlow
  | @char inside _ c t hopen hclose hquote hadmits _ ih =>
    have hne : c ≠ '#' := by
      rintro rfl
      simp [hcomment] at hadmits
    refine .of_step hlow (step_code hne hquote depth _) ?_
    rw [bracketStep_of_plain hopen hclose]
    exact ih hliterals hrest hlow
  | @literal _ _ l t hl _ hnext _ ih =>
    obtain ⟨hline, hmore⟩ := List.forall_mem_cons.1 hliterals
    refine (leads_literal hl hline (fun hlength => ?_) hlow).append (ih hmore hrest hlow)
    cases t with
    | cons c t => exact hnext hlength
    | nil =>
      obtain ⟨quote, tail, rfl, hquote⟩ : ∃ quote tail, l = quote :: tail ∧
          Text.isQuote quote = true := by
        cases hl with
        | single hquote => exact ⟨_, _, rfl, hquote⟩
        | triple hquote => exact ⟨_, _, rfl, hquote⟩
      intro hhead
      simp [hrest quote hhead] at hquote
  | @group _ _ _ c v t hopen _ _ ihinner ih =>
    obtain ⟨hinner, hmore⟩ := List.forall_mem_append.1 hliterals
    have hstep : bracketStep depth c = depth + 1 := if_pos hopen
    have hplain : (c ≠ '#' ∧ Text.isQuote c = false) ∧
        Text.closingOf c ≠ '#' ∧ Text.isQuote (Text.closingOf c) = false := by
      rcases Text.closingOf_of_isOpening hopen with ⟨rfl, hclose⟩ | ⟨rfl, hclose⟩ | ⟨rfl, hclose⟩ <;>
        rw [hclose] <;> decide
    obtain ⟨⟨hne, hquote⟩, hne', hquote'⟩ := hplain
    refine .of_step hlow (step_code hne hquote depth _) ?_
    rw [hstep]
    refine (ihinner hinner ?_ (Nat.le_succ_of_le hlow)).append ?_
    · intro d hd
      obtain rfl := Option.some.inj hd
      exact hquote'
    · refine .of_step (Nat.le_succ_of_le hlow) (step_code hne' hquote' (depth + 1) _) ?_
      rw [← hstep, Text.bracketStep_closingOf hopen]
      exact ih hmore hrest hlow

/-- Over whole lines the reader goes from one start of a line to another. -/
theorem run_lines {ls : List Text} (hls : ∀ l ∈ ls, '\n' ∉ l) (hne : ls ≠ []) (c : Carry)
    (rest : Text) :
    run (entering c) rest (Text.unlines ls ++ ['\n']) = entering (ls.foldl Carry.next c) := by
  induction ls generalizing c with
  | nil => exact absurd rfl hne
  | cons l ls ih =>
    obtain ⟨hl, hmore⟩ := List.forall_mem_cons.1 hls
    cases ls with
    | nil =>
      have hjoin : Text.unlines [l] = l := by simp [Text.unlines, Text.join]
      rw [hjoin, run_append]
      exact run_line hl c rest
    | cons l' ls =>
      rw [Text.unlines_cons_cons, List.append_assoc, run_append, List.cons_append, run,
        List.cons_append, run_line hl, ih hmore (by simp)]
      rfl

end Lexer

namespace Source

variable {tabWidth i : Nat} {source : Text}

/-- At the start of a statement nothing lies open. -/
theorem entering_of_fresh (hi : i < (ofText tabWidth source).size)
    (h : (ofText tabWidth source).has Line.continuation i = false) :
    Lexer.entering (Carry.after (source.lines.take i)) = {} := by
  obtain ⟨line, hline⟩ : ∃ line, (ofText tabWidth source).lines[i]? = some line :=
    ⟨_, List.getElem?_eq_getElem hi⟩
  have hpending : (Carry.after (source.lines.take i)).pending = false := by
    rw [has_of_getElem? hline, eq_ofText_of_getElem? hline, carryAt_ofText] at h
    exact h
  have hsettled := Carry.settled_after (source.lines.take i)
  generalize Carry.after (source.lines.take i) = carry at hpending hsettled
  obtain ⟨depth, quote, pending⟩ := carry
  obtain rfl : pending = false := hpending
  obtain ⟨hquote, hdepth⟩ : quote = none ∧ depth = 0 := by
    simpa [Carry.Settled] using hsettled
  subst hquote hdepth
  rfl

/-- The text of the statement that starts on line `i`. -/
def statementText (s : Source) (i : Nat) : Text := s.textOf ⟨i, s.logicalEnd i + 1⟩

theorem statementText_ofText (tabWidth : Nat) (source : Text) (i : Nat) :
    (ofText tabWidth source).statementText i =
      Text.unlines ((source.lines.take ((ofText tabWidth source).logicalEnd i + 1)).drop i) := by
  rw [statementText, textOf, slice, List.map_drop, List.map_take, texts_ofText]

/-- Behind a statement the source goes on, if at all, on a new line and with nothing open. -/
theorem unlines_drop_cases (hi : i < (ofText tabWidth source).size)
    (hfresh : (ofText tabWidth source).has Line.continuation i = false) :
    Text.unlines (source.lines.drop i) = (ofText tabWidth source).statementText i ∨
      ∃ more, Text.unlines (source.lines.drop i) =
          (ofText tabWidth source).statementText i ++ '\n' :: more ∧
        Lexer.run {} more ((ofText tabWidth source).statementText i ++ ['\n']) = {} := by
  rw [statementText_ofText]
  have hend := goesOnTo_logicalEnd hi
  generalize (ofText tabWidth source).logicalEnd i = e at hend
  have hle := hend.le
  have hlt := hend.lt_size
  rw [size_ofText] at hlt
  by_cases hlast : e + 1 < source.lines.length
  · have hsize : e + 1 < (ofText tabWidth source).size := by rwa [size_ofText]
    have hclosed : (ofText tabWidth source).has Line.continuation (e + 1) = false := by
      rw [(linked_ofText tabWidth source).next e hsize]
      exact hend.ends hsize
    have htake : source.lines.take i = (source.lines.take (e + 1)).take i := by
      rw [List.take_take, Nat.min_eq_left (by omega)]
    have hcarry : ((source.lines.take (e + 1)).drop i).foldl Carry.next
        (Carry.after (source.lines.take i)) = Carry.after (source.lines.take (e + 1)) := by
      rw [htake, Carry.after, Carry.after, ← List.foldl_append, List.take_append_drop]
    have hsplit : source.lines.drop i =
        (source.lines.take (e + 1)).drop i ++ source.lines.drop (e + 1) := by
      have hlength : i ≤ (source.lines.take (e + 1)).length := by
        rw [List.length_take]
        omega
      rw [← List.drop_append_of_le_length hlength, List.take_append_drop]
    have hne : (source.lines.take (e + 1)).drop i ≠ [] := by
      rw [ne_eq, List.drop_eq_nil_iff, List.length_take]
      omega
    have hmore : source.lines.drop (e + 1) ≠ [] := by
      rw [ne_eq, List.drop_eq_nil_iff]
      omega
    have hls : ∀ l ∈ (source.lines.take (e + 1)).drop i, '\n' ∉ l := fun l hl =>
      Text.newline_not_mem_of_mem_lines (List.mem_of_mem_take (List.mem_of_mem_drop hl))
    refine .inr ⟨Text.unlines (source.lines.drop (e + 1)), ?_, ?_⟩
    · rw [hsplit, Text.unlines_append hne hmore]
    · have hrun := Lexer.run_lines hls hne (Carry.after (source.lines.take i))
        (Text.unlines (source.lines.drop (e + 1)))
      rwa [hcarry, entering_of_fresh hi hfresh, entering_of_fresh hsize hclosed] at hrun
  · refine .inl ?_
    rw [List.take_of_length_le (by omega)]

theorem statementText_of_line {front behind : Text} (hi : i < (ofText tabWidth source).size)
    (hfresh : (ofText tabWidth source).has Line.continuation i = false)
    (htext : Text.unlines (source.lines.drop i) = front ++ behind) (hfront : '\n' ∉ front) :
    front <+: (ofText tabWidth source).statementText i := by
  rcases unlines_drop_cases hi hfresh with hall | ⟨more, heq, -⟩
  · exact ⟨behind, by rw [← hall, htext]⟩
  · obtain ⟨a, ha, -⟩ := Text.exists_of_append_newline hfront (heq ▸ htext)
    exact ⟨a, ha.symm⟩

/-- A statement goes on over a text in which a bracket stays open. -/
theorem statementText_of_leads {front t behind : Text} {c : Char} {s' : Lexer}
    (hi : i < (ofText tabWidth source).size)
    (hfresh : (ofText tabWidth source).has Line.continuation i = false)
    (htext : Text.unlines (source.lines.drop i) = front ++ (t ++ c :: behind))
    (hfront : '\n' ∉ front) (hc : c ≠ '\n')
    (hleads : Lexer.Leads 1 (c :: behind) (Lexer.run {} (t ++ c :: behind) front) t s') :
    front ++ (t ++ [c]) <+: (ofText tabWidth source).statementText i := by
  have hbegins : front ++ (t ++ [c]) <+: Text.unlines (source.lines.drop i) :=
    ⟨behind, by rw [htext]; simp⟩
  rcases unlines_drop_cases hi hfresh with hall | ⟨more, heq, hrun⟩
  · rwa [hall] at hbegins
  · rw [heq] at htext
    generalize (ofText tabWidth source).statementText i = statement at htext hrun ⊢
    by_contra hshort
    -- The statement ends with a line in the text, where a bracket is open.
    obtain ⟨a, b, rfl, rfl, rfl⟩ : ∃ a b, t = a ++ '\n' :: b ∧ statement = front ++ a ∧
        more = b ++ c :: behind := Text.exists_of_line_end hfront hc htext hshort
    have hopen := hleads.le_depth (a := a ++ ['\n']) (b := b) (by simp)
    have hwhole : a ++ '\n' :: b ++ c :: behind = a ++ ['\n'] ++ (b ++ c :: behind) := by simp
    rw [List.append_assoc, Lexer.run_append, ← hwhole] at hrun
    rw [hrun] at hopen
    exact absurd hopen (by decide)

end Source

end Offload
