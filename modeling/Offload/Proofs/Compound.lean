import Offload.Proofs.Jump

/-!
How far a compound statement reaches. What belongs to a statement is said line by line, apart from
the search for its end: whole logical statements, deeper ones or further parts of the statement, and
deeper comments. The search finds the one line that this determines, with the parts it knows by their
first word and the character behind it.
-/
namespace Offload

/-! Parts of a compound statement. -/

namespace Line

/-- The words with which a further part of a compound statement begins. -/
def partWords : List Text := ["elif", "else", "except", "finally"].map String.toList

/-- The line begins with one of the words. -/
def beginsPart (line : Line) : Bool :=
  partWords.any fun word => Text.opensWith word (Text.trimStart line.text)

/-- The line begins with one of the words, and behind it stands neither a colon, a blank nor an
opening parenthesis. -/
def hidesPart (line : Line) : Bool :=
  partWords.any fun word => (Text.after? word (Text.trimStart line.text)).any fun rest =>
    rest.head?.all fun c =>
      !Identifier.isXidContinue c && !(c == ':' || isBlank c || c == '(')

theorem isXidContinue_of_resumes {c : Char} (h : (c == ':' || isBlank c || c == '(') = true) :
    Identifier.isXidContinue c = false := by
  simp only [Bool.or_eq_true, beq_iff_eq] at h
  rcases h with (rfl | hblank) | rfl
  · exact Identifier.isXidContinue_of_isSign (by decide)
  · exact Identifier.isXidContinue_of_isBlank hblank
  · exact Identifier.isXidContinue_of_isSign (by decide)

/-- A part is seen as such unless the character behind its word hides it. -/
theorem beginsPart_eq (line : Line) :
    line.beginsPart = (line.resumesStatement || line.hidesPart) := by
  rw [Bool.eq_iff_iff, Bool.or_eq_true]
  unfold beginsPart resumesStatement hidesPart partWords
  simp only [List.any_eq_true, ← exists_or, ← and_or_left]
  refine exists_congr fun word => and_congr_right fun _ => ?_
  unfold Text.opensWith
  cases Text.after? word (Text.trimStart line.text) with
  | none => simp
  | some rest =>
    cases rest with
    | nil => simp
    | cons c cs =>
      simp only [Option.any_some, List.head?_cons, Option.all_some]
      cases hc : (c == ':' || isBlank c || c == '(') with
      | true => simp [isXidContinue_of_resumes hc]
      | false => simp

/-- A statement behind one of the given indentation is part of it: it stands deeper, or equally deep
with the mark of a part. -/
def partOf (part : Line → Bool) (depth : Nat) (line : Line) : Bool :=
  depth < line.indent || (line.indent == depth && part line)

/-- A comment that stands deeper than a statement of the given indentation. -/
def deepComment (depth : Nat) (line : Line) : Bool := line.kind == .comment && depth < line.indent

/-- A blank line, or a comment that does not stand deeper. -/
def outerTrivia (depth : Nat) (line : Line) : Bool :=
  line.kind == .blank || (line.kind == .comment && line.indent ≤ depth)

/-- What starts a statement belongs to an earlier one if it is a part of it. -/
theorem belongsTo_of_startsStatement {line : Line} {depth : Nat}
    (hstart : line.startsStatement = true) (hstring : line.inString = false) :
    line.belongsTo depth = line.partOf resumesStatement depth := by
  simp only [startsStatement, Bool.and_eq_true, beq_iff_eq, Bool.not_eq_true'] at hstart
  simp [belongsTo, partOf, hstring, hstart.1, hstart.2]

/-- A line that leaves a statement starts another one. -/
theorem startsStatement_of_leaves {line : Line} {depth : Nat} (h : line.leaves depth = true) :
    line.startsStatement = true := by
  simp only [leaves, belongsTo, Bool.and_eq_true, beq_iff_eq, Bool.not_eq_true',
    Bool.or_eq_false_iff] at h
  simp [startsStatement, h.1, h.2.1.2]

end Line

namespace Source

/-- Line `e` is the last one of a logical statement: the lines behind its first one up to `e` go on
with it, and the one behind `e` does not. -/
def EndsStatement (s : Source) (e : Nat) : Prop :=
  ∃ k ≤ e, s.has Line.startsStatement k = true ∧
    (∀ j, k < j → j ≤ e → s.has Line.continuation j = true) ∧
    s.has Line.continuation (e + 1) = false

/-- The compound statement of line `first` reaches up to line `e`, where `part` tells the lines that
begin a further part of it. -/
structure IsExtent (s : Source) (part : Line → Bool) (first e : Nat) : Prop where
  lt : first < e
  le_size : e ≤ s.size
  /-- No logical statement is cut. -/
  whole : s.has Line.continuation e = false
  parts : ∀ l, s.logicalEnd first < l → l < e → s.has Line.startsStatement l = true →
    s.has (Line.partOf part (s.indentAt first)) l = true
  last : s.EndsStatement (e - 1) ∨ s.has (Line.deepComment (s.indentAt first)) (e - 1) = true
  /-- Up to the next statement nothing belongs to it. -/
  rest : ∀ l, e ≤ l → l < s.size → (∀ n, e ≤ n → n ≤ l → s.has Line.startsStatement n = false) →
    s.has (Line.outerTrivia (s.indentAt first)) l = true
  next : ∀ n, s.nextStatement? e = some n →
    s.has (Line.partOf part (s.indentAt first)) n = false

variable {s : Source} {part : Line → Bool} {first e e' i : Nat}

theorem nextStatement?_eq_some_iff {n : Nat} :
    s.nextStatement? i = some n ↔ i ≤ n ∧ s.has Line.startsStatement n = true ∧
      ∀ m, i ≤ m → m < n → s.has Line.startsStatement m = false := findFrom?_eq_some_iff

/-- Behind its first line, a logical statement goes on. -/
theorem Linked.continuation_of_le_logicalEnd (h : s.Linked) (hi : i < s.size) {j : Nat}
    (hij : i < j) (hj : j ≤ s.logicalEnd i) : s.has Line.continuation j = true := by
  have hend := goesOnTo_logicalEnd hi
  have hlt := hend.lt_size
  have hon := hend.goes_on (j - 1) (by omega) (by omega)
  have hnext := h.next (j - 1) (by omega)
  rw [Nat.sub_add_cancel (by omega)] at hnext
  rw [hnext, hon]

theorem Linked.continuation_behind_logicalEnd (h : s.Linked) (hi : i < s.size) :
    s.has Line.continuation (s.logicalEnd i + 1) = false := by
  have hend := goesOnTo_logicalEnd hi
  rcases Nat.lt_or_ge (s.logicalEnd i + 1) s.size with hlt | hge
  · rw [h.next _ hlt, hend.ends hlt]
  · exact has_of_size_le hge

theorem IsExtent.logicalEnd_lt (h : s.IsExtent part first e) (hs : s.Linked) :
    s.logicalEnd first < e := by
  have hlt := h.lt
  have hle := h.le_size
  by_contra hge
  have hon := hs.continuation_of_le_logicalEnd (by omega) hlt (by omega)
  simp [h.whole] at hon

/-- One extent does not go on behind another one. -/
theorem IsExtent.not_lt (h : s.IsExtent part first e) (h' : s.IsExtent part first e')
    (hs : s.Linked) : ¬ e < e' := by
  intro hlt
  have hnone : ∀ n, e ≤ n → n ≤ e' - 1 → s.has Line.startsStatement n = false := by
    intro n hn hn'
    cases hstart : s.has Line.startsStatement n with
    | false => rfl
    | true =>
      -- The first statement behind the shorter extent is no part, yet the longer one holds it.
      cases hnext : s.nextStatement? e with
      | none => exact absurd hstart (by simp [findFrom?_eq_none_iff.1 hnext n hn])
      | some m =>
        obtain ⟨hm, hmstart, hmin⟩ := nextStatement?_eq_some_iff.1 hnext
        have hmn : m ≤ n := by
          by_contra hgt
          simp [hmin n hn (by omega)] at hstart
        have hlow := h.logicalEnd_lt hs
        have hpart := h'.parts m (by omega) (by omega) hmstart
        simp [h.next m hnext] at hpart
  have hle := h'.le_size
  have htrivia := h.rest (e' - 1) (by omega) (by omega) hnone
  rcases h'.last with ⟨k, hk, hstart, hon, -⟩ | hcomment
  · rcases Nat.lt_or_ge k e with hke | hke
    · have hcut := hon e hke (by omega)
      simp [h.whole] at hcut
    · simp [hnone k hke hk] at hstart
  · obtain ⟨line, hline, hdeep⟩ := has_eq_true.1 hcomment
    rw [has, hline, Option.any_some] at htrivia
    simp only [Line.deepComment, Bool.and_eq_true, beq_iff_eq, decide_eq_true_eq] at hdeep
    simp only [Line.outerTrivia, hdeep.1, Bool.or_eq_true, Bool.and_eq_true, beq_iff_eq,
      decide_eq_true_eq] at htrivia
    rcases htrivia with hblank | ⟨-, hshallow⟩
    · simp at hblank
    · omega

theorem IsExtent.unique (h : s.IsExtent part first e) (h' : s.IsExtent part first e')
    (hs : s.Linked) : e = e' := by
  have hlt := h.not_lt h' hs
  have hgt := h'.not_lt h hs
  omega

/-- Besides, a line inside a string goes on with a statement, and the first line does not. -/
structure Scanned (s : Source) : Prop extends Linked s where
  string : ∀ i, s.has Line.inString i = true → s.has Line.continuation i = true
  fresh : s.has Line.continuation 0 = false

theorem scanned_ofText (tabWidth : Nat) (t : Text) : (ofText tabWidth t).Scanned := by
  refine ⟨linked_ofText tabWidth t, fun i hi => ?_, ?_⟩
  · rw [has, ofText, Line.getElem?_scan] at hi ⊢
    cases htext : t.lines[i]? with
    | none => simp [htext] at hi
    | some text =>
      rw [htext] at hi
      exact Carry.settled_after (t.lines.take i) (.inl hi)
  · rw [has, ofText, Line.getElem?_scan]
    cases t.lines[0]? <;> rfl

/-- Code that goes on with no earlier statement starts one. -/
theorem Scanned.startsStatement (h : s.Scanned) (hcode : s.has Line.isTrivia i = false)
    (hi : i < s.size) (hfresh : s.has Line.continuation i = false) :
    s.has Line.startsStatement i = true := by
  have hstring : s.has Line.inString i = false := by
    cases hstring : s.has Line.inString i with
    | false => rfl
    | true => simp [h.string i hstring] at hfresh
  rw [has, List.getElem?_eq_getElem hi] at hcode hfresh hstring ⊢
  simp only [Option.any_some] at hcode hfresh hstring ⊢
  simpa [Line.startsStatement, Line.isTrivia, hfresh, hstring] using hcode

/-- Every line of code, and every line that goes on, belongs to a statement that starts somewhere. -/
theorem Scanned.exists_start (h : s.Scanned) (hi : i < s.size)
    (hcode : s.has Line.isTrivia i = false ∨ s.has Line.continuation i = true) :
    ∃ k ≤ i, s.has Line.startsStatement k = true ∧
      ∀ j, k < j → j ≤ i → s.has Line.continuation j = true := by
  induction i with
  | zero =>
    have htrivia := hcode.resolve_right (by simp [h.fresh])
    exact ⟨0, Nat.le_refl 0, h.startsStatement htrivia hi h.fresh, fun j hj hj' => by omega⟩
  | succ i ih =>
    cases hfresh : s.has Line.continuation (i + 1) with
    | false =>
      have htrivia := hcode.resolve_right (by simp [hfresh])
      exact ⟨i + 1, Nat.le_refl _, h.startsStatement htrivia hi hfresh, fun j hj hj' => by omega⟩
    | true =>
      -- The line before is open, and trivia outside a statement are not.
      have hopen : s.has Line.isTrivia i = false ∨ s.has Line.continuation i = true := by
        cases htrivia : s.has Line.isTrivia i with
        | false => exact .inl rfl
        | true =>
          right
          cases hon : s.has Line.continuation i with
          | true => rfl
          | false => simp [h.next i hi, h.trivia i htrivia hon] at hfresh
      obtain ⟨k, hk, hstart, hon⟩ := ih (by omega) hopen
      refine ⟨k, by omega, hstart, fun j hj hj' => ?_⟩
      rcases Nat.lt_or_ge i j with hij | hij
      · obtain rfl : j = i + 1 := by omega
        exact hfresh
      · exact hon j hj hij

/-- A statement that starts on a line before `e`, and goes on until `e`, ends there. -/
theorem Scanned.endsStatement (h : s.Scanned) (hi : i < s.size)
    (hcode : s.has Line.isTrivia i = false ∨ s.has Line.continuation i = true)
    (hend : s.has Line.continuation (i + 1) = false) : s.EndsStatement i := by
  obtain ⟨k, hk, hstart, hon⟩ := h.exists_start hi hcode
  exact ⟨k, hk, hstart, hon, hend⟩

/-- What leaves no statement behind it is not inside a new one either. -/
theorem leaves_of_not_startsStatement {depth : Nat} (h : s.has Line.startsStatement i = false) :
    s.has (Line.leaves depth) i = false := by
  cases hleaves : s.has (Line.leaves depth) i with
  | false => rfl
  | true => simp [has_of_has (fun _ => Line.startsStatement_of_leaves) hleaves] at h

theorem leaves_of_belongsTo {depth : Nat} (h : s.has (Line.belongsTo depth) i = true) :
    s.has (Line.leaves depth) i = false := by
  obtain ⟨line, hline, hbelongs⟩ := has_eq_true.1 h
  simp [has, hline, Line.leaves, hbelongs]

theorem belongsTo_of_continuation {depth : Nat} (h : s.has Line.continuation i = true) :
    s.has (Line.belongsTo depth) i = true := by
  refine has_of_has (fun line hline => ?_) h
  simp [Line.belongsTo, hline]

/-- What starts a statement belongs to an earlier one exactly if it is a part of it. -/
theorem Scanned.has_belongsTo (h : s.Scanned) {depth : Nat}
    (hstart : s.has Line.startsStatement i = true) :
    s.has (Line.belongsTo depth) i = s.has (Line.partOf Line.resumesStatement depth) i := by
  obtain ⟨line, hline, hline'⟩ := has_eq_true.1 hstart
  have hstring : line.inString = false := by
    cases hs : line.inString with
    | false => rfl
    | true =>
      have hon := h.string i (has_eq_true.2 ⟨line, hline, hs⟩)
      rw [has, hline, Option.any_some] at hon
      simp [Line.startsStatement, hon] at hline'
  rw [has, has, hline, Option.any_some, Option.any_some,
    Line.belongsTo_of_startsStatement hline' hstring]

/-- Behind the stop nothing belongs to the statement until another one starts. -/
theorem belongsTo_behind_statementStop {l : Nat} (hl : s.statementStop first ≤ l)
    (hnone : ∀ n, s.statementStop first ≤ n → n < l → s.has Line.startsStatement n = false) :
    s.has (Line.belongsTo (s.indentAt first)) l = false := by
  have hreach := s.reaches_statementStop first
  cases hb : s.has (Line.belongsTo (s.indentAt first)) l with
  | false => rfl
  | true =>
    rw [← hb]
    apply hreach.maximal l hl
    intro n hn hnl
    rcases Nat.lt_or_ge n (s.statementStop first) with hlt | hge
    · exact hreach.inside n hn hlt
    · rcases Nat.lt_or_ge n l with hlt | hge'
      · exact leaves_of_not_startsStatement (hnone n hge hlt)
      · obtain rfl : n = l := by omega
        exact leaves_of_belongsTo hb

theorem continuation_statementStop (s : Source) (first : Nat) :
    s.has Line.continuation (s.statementStop first) = false := by
  cases hon : s.has Line.continuation (s.statementStop first) with
  | false => rfl
  | true =>
    have hb := belongsTo_behind_statementStop (s := s) (Nat.le_refl (s.statementStop first))
      fun n hn hlt => by omega
    simp [belongsTo_of_continuation hon] at hb

/-- The last line before the stop ends a logical statement, or is a deeper comment. -/
theorem Scanned.last_before_statementStop (h : s.Scanned) (hi : first < s.size)
    (hcode : s.has Line.isTrivia first = false) :
    s.EndsStatement (s.statementStop first - 1) ∨
      s.has (Line.deepComment (s.indentAt first)) (s.statementStop first - 1) = true := by
  have hreach := s.reaches_statementStop first
  have hend := s.le_logicalEnd first
  have hnext := hreach.le
  rcases hreach.last with hstop | hlast
  · left
    rw [hstop, Nat.add_sub_cancel]
    apply h.endsStatement (goesOnTo_logicalEnd hi).lt_size
    · rcases Nat.eq_or_lt_of_le hend with heq | hlt
      · exact .inl (heq ▸ hcode)
      · exact .inr (h.continuation_of_le_logicalEnd hi hlt (Nat.le_refl _))
    · exact h.continuation_behind_logicalEnd hi
  · by_cases hopen : s.has Line.isTrivia (s.statementStop first - 1) = false ∨
        s.has Line.continuation (s.statementStop first - 1) = true
    · left
      apply h.endsStatement (lt_size_of_has hlast) hopen
      rw [Nat.sub_add_cancel (by omega)]
      exact s.continuation_statementStop first
    · right
      simp only [not_or, Bool.not_eq_true, Bool.not_eq_false] at hopen
      obtain ⟨line, hline, hbelongs⟩ := has_eq_true.1 hlast
      simp only [has, hline, Option.any_some, Line.isTrivia, Bool.and_eq_true,
        Bool.not_eq_true', bne_iff_ne, ne_eq] at hopen
      obtain ⟨⟨hstring, hkind⟩, hon⟩ := hopen
      rw [has, hline, Option.any_some]
      simp only [Line.belongsTo, hstring, hon, Bool.or_false, Bool.false_or] at hbelongs
      cases hk : line.kind with
      | blank => simp [hk] at hbelongs
      | comment => simpa [Line.deepComment, hk] using hbelongs
      | code => exact absurd hk hkind

/-- The line that the search finds is the end of the statement, with the parts that it sees. -/
theorem Scanned.isExtent_statementStop (h : s.Scanned) (hi : first < s.size)
    (hcode : s.has Line.isTrivia first = false) :
    s.IsExtent Line.resumesStatement first (s.statementStop first) := by
  have hreach := s.reaches_statementStop first
  have hend := s.le_logicalEnd first
  have hnext := hreach.le
  constructor
  · omega
  · exact statementStop_le hi
  · exact s.continuation_statementStop first
  · intro l hl hstop hstart
    rw [← h.has_belongsTo hstart]
    have hstay := hreach.inside l (by omega) hstop
    obtain ⟨line, hline, hline'⟩ := has_eq_true.1 hstart
    simp only [Line.startsStatement, Bool.and_eq_true] at hline'
    simpa [has, hline, Line.leaves, hline'.1] using hstay
  · exact h.last_before_statementStop hi hcode
  · intro l hl hlt hnone
    have hb := belongsTo_behind_statementStop hl fun n hn hnl => hnone n hn (by omega)
    have hstart := hnone l hl (Nat.le_refl l)
    rw [has, List.getElem?_eq_getElem hlt] at hb hstart ⊢
    simp only [Option.any_some] at hb hstart ⊢
    simp only [Line.belongsTo, Bool.or_eq_false_iff] at hb
    obtain ⟨⟨-, hon⟩, hb⟩ := hb
    cases hk : s.lines[l].kind with
    | blank => simp [Line.outerTrivia, hk]
    | comment => simpa [Line.outerTrivia, hk] using hb
    | code => simp [Line.startsStatement, hk, hon] at hstart
  · intro n hn
    obtain ⟨hle, hstart, hmin⟩ := nextStatement?_eq_some_iff.1 hn
    rw [← h.has_belongsTo hstart]
    exact belongsTo_behind_statementStop hle hmin

/-! Statements inside a statement. -/

theorem belongsTo_of_deeper {depth depth' : Nat} (hdepth : depth < depth')
    (h : s.has (Line.belongsTo depth') i = true) : s.has (Line.belongsTo depth) i = true := by
  refine has_of_has (fun line hline => ?_) h
  unfold Line.belongsTo at hline ⊢
  rw [Bool.or_eq_true] at hline ⊢
  rcases hline with hopen | hline
  · exact .inl hopen
  · right
    cases hk : line.kind with
    | blank => simp [hk] at hline
    | comment =>
      simp only [hk, decide_eq_true_eq] at hline ⊢
      omega
    | code =>
      simp only [hk, Bool.or_eq_true, Bool.and_eq_true, decide_eq_true_eq, beq_iff_eq] at hline ⊢
      omega

theorem leaves_of_deeper {depth depth' : Nat} (hdepth : depth < depth')
    (h : s.has (Line.leaves depth') i = false) : s.has (Line.leaves depth) i = false := by
  cases hleaves : s.has (Line.leaves depth) i with
  | false => rfl
  | true =>
    obtain ⟨line, hline, hline'⟩ := has_eq_true.1 hleaves
    have hkeep := belongsTo_of_deeper (s := s) (i := i) hdepth
    simp only [has, hline, Option.any_some] at h hkeep
    simp only [Line.leaves, Bool.and_eq_true, Bool.not_eq_true'] at hline'
    simp only [Line.leaves, hline'.1, Bool.true_and, Bool.not_eq_false'] at h
    simp [hkeep h] at hline'

/-- A deeper statement inside another one ends with it at the latest. -/
theorem Scanned.statementStop_le_of_deeper (h : s.Scanned) {l : Nat} (hi : l < s.size)
    (hl : l < s.statementStop first) (hdeep : s.indentAt first < s.indentAt l) :
    s.statementStop l ≤ s.statementStop first := by
  have hreach := s.reaches_statementStop first
  have hinner := s.reaches_statementStop l
  have hlogical : s.logicalEnd l < s.statementStop first := by
    by_contra hge
    have hon := h.continuation_of_le_logicalEnd hi hl (by omega)
    simp [s.continuation_statementStop first] at hon
  by_contra hgt
  have hlast := hinner.last.resolve_left (by omega)
  have hnone := hreach.maximal (s.statementStop l - 1) (by omega) fun n hn hle => by
    rcases Nat.lt_or_ge n (s.statementStop first) with hlt | hge
    · exact hreach.inside n hn hlt
    · exact leaves_of_deeper hdeep (hinner.inside n (by omega) (by omega))
  simp [belongsTo_of_deeper hdeep hlast] at hnone

/-! Parts that are not seen. -/

theorem has_partOf_beginsPart (s : Source) (depth i : Nat) :
    s.has (Line.partOf Line.beginsPart depth) i = true ↔
      s.has (Line.partOf Line.resumesStatement depth) i = true ∨
        s.indentAt i = depth ∧ s.has Line.hidesPart i = true := by
  rw [has, has, has, indentAt, indent?]
  cases s.lines[i]? with
  | none => simp
  | some line =>
    simp only [Option.any_some, Option.map_some, Option.getD_some, Line.partOf, Line.beginsPart_eq,
      Bool.or_eq_true, Bool.and_eq_true, decide_eq_true_eq, beq_iff_eq]
    tauto

/-- Where more lines count as parts, an extent stays one if the statement behind it is still none. -/
theorem IsExtent.mono {part' : Line → Bool} (h : s.IsExtent part first e)
    (hpart : ∀ l, s.has (Line.partOf part (s.indentAt first)) l = true →
      s.has (Line.partOf part' (s.indentAt first)) l = true)
    (hnext : ∀ n, s.nextStatement? e = some n →
      s.has (Line.partOf part' (s.indentAt first)) n = false) : s.IsExtent part' first e where
  lt := h.lt
  le_size := h.le_size
  whole := h.whole
  parts l hl hle hstart := hpart l (h.parts l hl hle hstart)
  last := h.last
  rest := h.rest
  next := hnext

/-- An extent with all parts does not stop before the one with the parts that are seen. -/
theorem IsExtent.statementStop_le (h : s.IsExtent Line.beginsPart first e) (hs : s.Linked)
    (hstop : s.IsExtent Line.resumesStatement first (s.statementStop first)) :
    s.statementStop first ≤ e := by
  by_contra hlt
  have hnext : ∀ n, s.nextStatement? e = some n →
      s.has (Line.partOf Line.resumesStatement (s.indentAt first)) n = false := by
    intro n hn
    have hnone := h.next n hn
    rw [← Bool.not_eq_true, has_partOf_beginsPart, not_or] at hnone
    exact Bool.not_eq_true _ ▸ hnone.1
  have hshort : s.IsExtent Line.resumesStatement first e := {
    lt := h.lt
    le_size := h.le_size
    whole := h.whole
    parts := fun l hl hle => hstop.parts l hl (by omega)
    last := h.last
    rest := h.rest
    next := hnext }
  have heq := hshort.unique hstop hs
  omega

/-- An extent with the parts that are seen is one with all parts unless the statement behind it hides
a part. -/
theorem IsExtent.beginsPart_iff (h : s.IsExtent Line.resumesStatement first e) :
    s.IsExtent Line.beginsPart first e ↔ ∀ n, s.nextStatement? e = some n →
      s.indentAt n = s.indentAt first → s.has Line.hidesPart n = false := by
  constructor
  · intro hall n hn hindent
    have hnone := hall.next n hn
    rw [← Bool.not_eq_true, has_partOf_beginsPart, not_or] at hnone
    exact Bool.eq_false_iff.2 fun hhides => hnone.2 ⟨hindent, hhides⟩
  · intro hseen
    apply h.mono
    · exact fun l hl => (has_partOf_beginsPart _ _ l).2 (.inl hl)
    · intro n hn
      rw [← Bool.not_eq_true, has_partOf_beginsPart, h.next n hn, not_or]
      exact ⟨Bool.false_ne_true, fun hhides => by simp [hseen n hn hhides.1] at hhides⟩

/-- The search for the end of a compound statement finds the only line that its layout allows, with
the parts that it sees. Where every line that begins with the word of a part counts as one, the
layout still allows one line at most, and it does not stand before the one that is found. The two are
the same exactly if the statement behind the line that is found does not hide such a word at the same
indentation. -/
theorem statementStop_iff_isExtent (tabWidth : Nat) (t : Text) {first : Nat} {line : Line}
    (hline : (ofText tabWidth t).lines[first]? = some line) (hcode : line.kind = .code) :
    (∀ e, (ofText tabWidth t).IsExtent Line.resumesStatement first e ↔
      e = (ofText tabWidth t).statementStop first) ∧
    (∀ e e', (ofText tabWidth t).IsExtent Line.beginsPart first e →
      (ofText tabWidth t).IsExtent Line.beginsPart first e' → e = e') ∧
    (∀ e, (ofText tabWidth t).IsExtent Line.beginsPart first e →
      (ofText tabWidth t).statementStop first ≤ e) ∧
    ((ofText tabWidth t).IsExtent Line.beginsPart first ((ofText tabWidth t).statementStop first) ↔
      ∀ n, (ofText tabWidth t).nextStatement? ((ofText tabWidth t).statementStop first) = some n →
        (ofText tabWidth t).indentAt n = (ofText tabWidth t).indentAt first →
        (ofText tabWidth t).has Line.hidesPart n = false) := by
  have hs := scanned_ofText tabWidth t
  have hi : first < (ofText tabWidth t).size := (List.getElem?_eq_some_iff.1 hline).1
  have htrivia : (ofText tabWidth t).has Line.isTrivia first = false := by
    simp [has, hline, Line.isTrivia, hcode]
  have hstop := hs.isExtent_statementStop hi htrivia
  refine ⟨fun e => ⟨fun h => h.unique hstop hs.toLinked, fun h => h ▸ hstop⟩, ?_, ?_, ?_⟩
  · exact fun e e' h h' => h.unique h' hs.toLinked
  · exact fun e h => h.statementStop_le hs.toLinked hstop
  · exact hstop.beginsPart_iff

/-- A statement with a second part, a continued line and a comment at its end. -/
def guardedText : Text := Text.unlines [
  "try:", "    f(", "1)", "", "    # deep", "except E:", "    g", "# end", "x"]

/-- A statement with a second part whose word stands directly before a bracket. -/
def bracketText : Text := Text.unlines ["if a:", "    b", "elif[c]:", "    d"]

theorem guardedText_whole_bracketText_cut :
    (ofText 8 guardedText).IsExtent Line.beginsPart 0 7 ∧
      (ofText 8 bracketText).IsExtent Line.resumesStatement 0 2 ∧
      ¬ (ofText 8 bracketText).IsExtent Line.beginsPart 0 2 := by
  have hguarded : ∃ line, (ofText 8 guardedText).lines[0]? = some line ∧ line.kind = .code :=
    ⟨⟨"try:", 0, .code, false, false, false⟩, by decide +kernel, rfl⟩
  have hbracket : ∃ line, (ofText 8 bracketText).lines[0]? = some line ∧ line.kind = .code :=
    ⟨⟨"if a:", 0, .code, false, false, false⟩, by decide +kernel, rfl⟩
  obtain ⟨line, hline, hcode⟩ := hguarded
  obtain ⟨line', hline', hcode'⟩ := hbracket
  obtain ⟨-, -, -, hwhole⟩ := statementStop_iff_isExtent 8 guardedText hline hcode
  obtain ⟨hfound, -, -, hcut⟩ := statementStop_iff_isExtent 8 bracketText hline' hcode'
  have hstop : (ofText 8 guardedText).statementStop 0 = 7 := by decide +kernel
  have hstop' : (ofText 8 bracketText).statementStop 0 = 2 := by decide +kernel
  rw [hstop] at hwhole
  rw [hstop'] at hfound hcut
  refine ⟨hwhole.2 fun n hn _ => ?_, (hfound 2).2 rfl, fun h => ?_⟩
  · have hnext : (ofText 8 guardedText).nextStatement? 7 = some 8 := by decide +kernel
    obtain rfl := Option.some.inj (hnext.symm.trans hn)
    decide +kernel
  · have hnext : (ofText 8 bracketText).nextStatement? 2 = some 2 := by decide +kernel
    have hhides : (ofText 8 bracketText).has Line.hidesPart 2 = true := by decide +kernel
    simp [hcut.1 h 2 hnext (by decide +kernel)] at hhides

end Source
end Offload
