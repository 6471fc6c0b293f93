import Offload.Proofs.Kernel

/-!
Jumps out of a loop body. The body is read line by line, so a jump is noticed if it stands on a line
of its own in the plain form, and scopes are told by their first word and the bytes of their
indentation. Every jump that gets into a kernel does so because it is written otherwise, or because a
line around it reads as a scope that it is not.
-/
namespace Offload

open Outcome

namespace Text

/-- The text starts with the word, and no identifier goes on with it. -/
def opensWith (word t : Text) : Bool :=
  (after? word t).any fun rest => !rest.head?.any Identifier.isXidContinue

/-- The text starts with `async` and the word. -/
def opensAsync (word t : Text) : Bool :=
  (after? "async" t).any fun rest => rest.head?.any isBlank && opensWith word (trimStart rest)

/-- What is trimmed away is blank. -/
theorem exists_trim_append_blank (t : Text) :
    ∃ rest, blank rest = true ∧ trimStart t = trim t ++ rest := by
  refine ⟨((trimStart t).reverse.takeWhile isBlank).reverse, ?_, ?_⟩
  · rw [blank_reverse]
    exact List.all_takeWhile
  · rw [trim_eq, trimEnd, dropEndWhile, ← List.reverse_append, List.takeWhile_append_dropWhile,
      List.reverse_reverse]

theorem isBlank_or_mem_trim {t : Text} {c : Char} (h : c ∈ t) : isBlank c = true ∨ c ∈ trim t := by
  obtain ⟨rest, hrest, htrim⟩ := exists_trim_append_blank t
  rw [← margin_append_trimStart t, htrim, List.mem_append, List.mem_append] at h
  rcases h with h | h | h
  · exact .inl (List.all_eq_true.1 (blank_margin t) c h)
  · exact .inr h
  · exact .inl (List.all_eq_true.1 hrest c h)

end Text

/-- Behind the first characters of a line stands code: a bracket there would count. -/
def Carry.inCode (c : Carry) (before : Text) : Bool :=
  (c.start.read 0 (before ++ ['('])).depth == (c.start.read 0 before).depth + 1

/-- The word stands somewhere in the code of a line. -/
def Carry.HoldsWord (c : Carry) (word t : Text) : Prop :=
  ∃ before behind, t = before ++ word ++ behind ∧ c.inCode before = true ∧
    before.getLast?.any Identifier.isXidContinue = false ∧
    behind.head?.any Identifier.isXidContinue = false

namespace Source

/-- What the lines before line `l` hand on to it. -/
def carryAt (s : Source) (l : Nat) : Carry := Carry.after ((s.lines.take l).map Line.text)

/-- The statement of line `k` reaches to line `l`: all statements behind it stand deeper. -/
structure Encloses (s : Source) (k l : Nat) : Prop where
  le : k ≤ l
  starts : s.has Line.startsStatement k = true
  deeper : ∀ m, k < m → m ≤ l → s.has Line.startsStatement m = true → s.indentAt k < s.indentAt m

end Source

namespace Host

inductive Jump
  | breakLoop
  | continueLoop
  | returnValue
deriving DecidableEq

namespace Jump

def word : Jump → Text
  | breakLoop => "break"
  | continueLoop => "continue"
  | returnValue => "return"

/-- The form in which a jump is looked for. -/
def isPlain (statement : Text) : Jump → Bool
  | breakLoop => statement == "break"
  | continueLoop => statement == "continue"
  | returnValue => beginsWithWord "return" statement

/-- A definition ends every jump, a loop those of loops. -/
def catches (jump : Jump) (scope : InnerScope) : Bool :=
  scope.isDefinition || jump != returnValue

/-- The statement is a definition, or a loop if that ends the jump. -/
def caughtBy (jump : Jump) (statement : Text) : Bool :=
  Text.opensWith "def" statement || Text.opensWith "class" statement ||
    Text.opensAsync "def" statement ||
    (jump != returnValue && (Text.opensWith "for" statement || Text.opensWith "while" statement ||
      Text.opensAsync "for" statement))

/-- What becomes of a plain jump that nothing in the body catches. -/
def result (returned line : Text) : Jump → Except GenerationFault Text
  | breakLoop => .error .escapingBreak
  | continueLoop => .ok (Text.margin line ++ "return" ++ returned)
  | returnValue => .error .escapingReturn

end Jump

/-- A jump on line `l` leaves the lines from `first` on: no scope around it catches it there. -/
structure Leaves (s : Source) (first l : Nat) (jump : Jump) : Prop where
  word : (s.carryAt l).HoldsWord jump.word (s.textAt l)
  free : ∀ k, first ≤ k → s.Encloses k l → jump.caughtBy (Text.trimStart (s.textAt k)) = false

/-! Single lines. -/

section

variable {jump : Jump} {returned line line' : Text} {before : List Text}

theorem isStatementLine_of_isPlain (h : jump.isPlain (Text.trim line) = true) :
    isStatementLine line = true := by
  rw [isStatementLine, Bool.not_eq_true']
  cases jump with
  | breakLoop | continueLoop =>
    rw [Jump.isPlain, beq_iff_eq] at h
    rw [h]
    decide
  | returnValue =>
    rw [Jump.isPlain, beginsWithWord] at h
    cases hafter : Text.after? "return" (Text.trim line) with
    | none =>
      rw [hafter] at h
      simp at h
    | some rest =>
      rw [Text.after?_eq_some_iff.1 hafter]
      simp

/-- A plain jump stays as it is if a scope catches it. -/
theorem lineResult_of_isPlain (h : jump.isPlain (Text.trim line) = true) :
    lineResult returned before line =
      if (scopesAround before line).any jump.catches then .ok line
      else jump.result returned line := by
  rw [lineResult, if_pos (isStatementLine_of_isPlain h)]
  cases jump with
  | breakLoop =>
    rw [Jump.isPlain, beq_iff_eq] at h
    rw [h]
    cases scopesAround before line with
    | nil => rfl
    | cons scope scopes => simp [Jump.catches, beginsWithWord, Text.after?]
  | continueLoop =>
    rw [Jump.isPlain, beq_iff_eq] at h
    rw [h]
    cases scopesAround before line with
    | nil => rfl
    | cons scope scopes => simp [Jump.catches, beginsWithWord, Text.after?]
  | returnValue =>
    rw [Jump.isPlain] at h
    have hcontinue : (Text.trim line == "continue".toList) = false := by
      rw [beq_eq_false_iff_ne]
      intro heq
      rw [heq] at h
      exact absurd h (by decide)
    have hbreak : (Text.trim line == "break".toList) = false := by
      rw [beq_eq_false_iff_ne]
      intro heq
      rw [heq] at h
      exact absurd h (by decide)
    rw [hcontinue, hbreak, h]
    have hcatches : Jump.returnValue.catches = InnerScope.isDefinition := by
      funext scope
      simp [Jump.catches]
    rw [hcatches]
    cases (scopesAround before line).any InnerScope.isDefinition <;> simp [Jump.result]

/-- A line that reads `continue` holds no other jump. -/
theorem eq_continueLoop_of_trim {c : Carry} {t : Text} (h : c.HoldsWord jump.word t)
    (htrim : Text.trim t = "continue".toList) : jump = .continueLoop := by
  obtain ⟨front, behind, ht, -⟩ := h
  -- Apart from blanks, the line holds the letters of one word only.
  have hletters : ∀ c ∈ t, isBlank c = true ∨ c ∈ "continue".toList := by
    intro c hc
    rw [← htrim]
    exact Text.isBlank_or_mem_trim hc
  have hword : ∀ c ∈ jump.word, c ∈ t := fun c hc =>
    ht ▸ List.mem_append_left _ (List.mem_append_right _ hc)
  cases jump with
  | continueLoop => rfl
  | breakLoop => exact absurd (hletters 'b' (hword 'b' (by decide))) (by decide)
  | returnValue => exact absurd (hletters 'r' (hword 'r' (by decide))) (by decide)

/-- A jump in another form stays as it is. -/
theorem eq_of_not_isPlain {c : Carry} {t : Text} (hword : c.HoldsWord jump.word t)
    (htrim : Text.trim line = Text.trim t) (h : jump.isPlain (Text.trim t) = false)
    (hok : lineResult returned before line = .ok line') : line' = line := by
  rcases eq_or_eq_of_lineResult hok with heq | ⟨hcontinue, -⟩
  · exact heq
  · rw [htrim] at hcontinue
    obtain rfl := eq_continueLoop_of_trim hword hcontinue
    simp [Jump.isPlain, hcontinue] at h

end

/-! Heads of scopes. -/

section

variable {jump : Jump} {line t : Text} {scope : InnerScope}

/-- A word at the front of a statement is one at the front of its line. -/
theorem opensWith_of_beginsWithWord {word : Text} (h : beginsWithWord word (Text.trim t) = true) :
    Text.opensWith word (Text.trimStart t) = true := by
  obtain ⟨tail, htail, htrim⟩ := Text.exists_trim_append_blank t
  rw [beginsWithWord] at h
  cases hafter : Text.after? word (Text.trim t) with
  | none =>
    rw [hafter] at h
    simp at h
  | some rest =>
    rw [hafter] at h
    have hstart : Text.after? word (Text.trimStart t) = some (rest ++ tail) := by
      rw [Text.after?_eq_some_iff, htrim, Text.after?_eq_some_iff.1 hafter, List.append_assoc]
    -- Whatever follows the word is blank or a colon.
    have hnext : ∀ c ∈ (rest ++ tail).head?, Identifier.isXidContinue c = false := by
      intro c hc
      cases rest with
      | nil =>
        have hmem : c ∈ tail := List.mem_of_head? hc
        exact Identifier.isXidContinue_of_isBlank (List.all_eq_true.1 htail c hmem)
      | cons first rest =>
        obtain rfl : first = c := Option.some.inj hc
        rcases Bool.or_eq_true_iff.1 h with hblank | hcolon
        · exact Identifier.isXidContinue_of_isBlank hblank
        · rw [beq_iff_eq.1 hcolon]
          exact Identifier.isXidContinue_of_isSign (by decide)
    rw [Text.opensWith, hstart, Option.any_some]
    cases hhead : (rest ++ tail).head? with
    | none => rfl
    | some c => simp [hnext c hhead]

/-- A scope that catches the jump has the head of one, unless it is told by `async`. -/
theorem caughtBy_or_async (hsame : Text.trimStart line = Text.trimStart t)
    (hscope : scopeOf? line = some scope) (hcatches : jump.catches scope = true) :
    jump.caughtBy (Text.trimStart t) = true ∨ beginsWithWord "async" (Text.trim t) = true := by
  have htrim : Text.trim line = Text.trim t := by rw [Text.trim_eq, hsame, Text.trim_eq]
  simp only [scopeOf?, InnerScope.opened?, htrim] at hscope
  split at hscope
  · split at hscope
    · next hloop =>
      obtain rfl := Option.some.inj hscope
      left
      have hjump : (jump != .returnValue) = true := by simpa [Jump.catches] using hcatches
      rw [Bool.or_eq_true] at hloop
      rcases hloop with hfor | hwhile
      · rw [Jump.caughtBy, hjump, opensWith_of_beginsWithWord hfor]
        simp
      · rw [Jump.caughtBy, hjump, opensWith_of_beginsWithWord hwhile]
        simp
    · split at hscope
      · next hdefinition =>
        rw [Bool.or_eq_true, Bool.or_eq_true] at hdefinition
        rcases hdefinition with (hdef | hasync) | hclass
        · left
          rw [Jump.caughtBy, opensWith_of_beginsWithWord hdef]
          simp
        · exact .inr hasync
        · left
          rw [Jump.caughtBy, opensWith_of_beginsWithWord hclass]
          simp
      · simp at hscope
  · simp at hscope

end

/-! The lines of a kernel. -/

/-- The line of the source from which line `j` of a kernel comes. -/
def lineOrigin (tree : DirectiveTree) (nest : LoopNest) (j : Nat) : Option Nat :=
  (origins tree nest)[j]?.bind Origin.line?

section

variable {s : Source} {tree : DirectiveTree} {nest : LoopNest} {i j k l m stop : Nat} {line : Text}

theorem lineOrigin_eq_some : lineOrigin tree nest j = some l ↔
    ∃ o, (origins tree nest)[j]? = some o ∧ o.line? = some l := Option.bind_eq_some_iff

theorem exists_origin_of_kernelLines (hwalk : Walked s tree nest stop)
    (h : (kernelLines s tree nest)[j]? = some line) :
    ∃ o, (origins tree nest)[j]? = some o ∧
      Text.trimStart line = Text.trimStart (o.text s) := by
  rw [kernelLines_eq hwalk, List.getElem?_map, List.getElem?_map, Option.map_map,
    Option.map_eq_some_iff] at h
  obtain ⟨o, ho, rfl⟩ := h
  exact ⟨o, ho, Text.trimStart_moved (List.mem_map_of_mem (List.mem_of_getElem? ho))⟩

theorem exists_kernelLine (hwalk : Walked s tree nest stop)
    (h : lineOrigin tree nest j = some l) :
    ∃ line, (kernelLines s tree nest)[j]? = some line ∧
      Text.trimStart line = Text.trimStart (s.textAt l) := by
  obtain ⟨o, ho, hl⟩ := lineOrigin_eq_some.1 h
  have hlength : (kernelLines s tree nest).length = (origins tree nest).length := by
    rw [kernelLines_eq hwalk, List.length_map, List.length_map]
  have hj := (List.getElem?_eq_some_iff.1 ho).1
  have hline := List.getElem?_eq_getElem (l := kernelLines s tree nest) (i := j) (by omega)
  obtain ⟨o', ho', hsame⟩ := exists_origin_of_kernelLines hwalk hline
  obtain rfl : o = o' := Option.some.inj (ho.symm.trans ho')
  exact ⟨_, hline, by rw [hsame, Origin.trimStart_own hl]⟩

/-- Lines that take the lock open no scope. -/
theorem exists_lineOrigin_of_scope {scope : InnerScope} (hwalk : Walked s tree nest stop)
    (h : (kernelLines s tree nest)[j]? = some line) (hscope : scopeOf? line = some scope) :
    ∃ k, lineOrigin tree nest j = some k ∧
      Text.trimStart line = Text.trimStart (s.textAt k) := by
  obtain ⟨o, ho, hsame⟩ := exists_origin_of_kernelLines hwalk h
  cases hk : o.line? with
  | some k => exact ⟨k, lineOrigin_eq_some.2 ⟨o, ho, hk⟩, by rw [hsame, Origin.trimStart_own hk]⟩
  | none =>
    rw [Origin.trimStart_lock hk] at hsame
    have htrim : Text.trim line = "with _acc_lock:".toList := by
      rw [Text.trim_eq, hsame]
      decide
    have hnone : InnerScope.opened? (byteIndent line) "with _acc_lock:" = none := rfl
    rw [scopeOf?, htrim, hnone] at hscope
    simp at hscope

/-! The order of the lines. -/

theorem lt_of_lineOrigin (hwalk : Walked s tree nest stop)
    (hij : i < j) (hk : lineOrigin tree nest i = some k) (hl : lineOrigin tree nest j = some l) :
    k < l := by
  have hsorted : ((origins tree nest).filterMap Origin.line?).Pairwise (· < ·) := by
    rw [hwalk.lines]
    exact List.pairwise_lt_range'
  rw [List.pairwise_filterMap, List.pairwise_iff_getElem] at hsorted
  obtain ⟨o, ho, hok⟩ := lineOrigin_eq_some.1 hk
  obtain ⟨o', ho', hol⟩ := lineOrigin_eq_some.1 hl
  obtain ⟨hi, rfl⟩ := List.getElem?_eq_some_iff.1 ho
  obtain ⟨hj, rfl⟩ := List.getElem?_eq_some_iff.1 ho'
  exact hsorted i j hi hj hij k hok l hol

theorem exists_lineOrigin_iff (hwalk : Walked s tree nest stop) :
    (∃ j, lineOrigin tree nest j = some l) ↔ nest.body.start ≤ l ∧ l < stop := by
  have hmem : l ∈ (origins tree nest).filterMap Origin.line? ↔
      nest.body.start ≤ l ∧ l < stop := by
    rw [hwalk.lines, List.mem_range'_1]
    omega
  rw [← hmem, List.mem_filterMap]
  constructor
  · rintro ⟨j, hj⟩
    obtain ⟨o, ho, hl⟩ := lineOrigin_eq_some.1 hj
    exact ⟨o, List.mem_of_getElem? ho, hl⟩
  · rintro ⟨o, ho, hl⟩
    obtain ⟨j, hj⟩ := List.getElem?_of_mem ho
    exact ⟨j, lineOrigin_eq_some.2 ⟨o, hj, hl⟩⟩

/-- The lines between two lines of the source stand between them in the kernel. -/
theorem exists_lineOrigin_between (hwalk : Walked s tree nest stop)
    (hk : lineOrigin tree nest i = some k) (hl : lineOrigin tree nest j = some l) (hkm : k < m)
    (hml : m ≤ l) : ∃ n, lineOrigin tree nest n = some m ∧ i < n ∧ n ≤ j := by
  have hfirst := (exists_lineOrigin_iff hwalk).1 ⟨i, hk⟩
  have hlast := (exists_lineOrigin_iff hwalk).1 ⟨j, hl⟩
  obtain ⟨n, hn⟩ := (exists_lineOrigin_iff hwalk).2 (by omega : nest.body.start ≤ m ∧ m < stop)
  refine ⟨n, hn, ?_, ?_⟩
  · by_contra hni
    rcases Nat.lt_or_eq_of_le (Nat.not_lt.1 hni) with hlt | rfl
    · have := lt_of_lineOrigin hwalk hlt hn hk
      omega
    · have := Option.some.inj (hn.symm.trans hk)
      omega
  · by_contra hnj
    have := lt_of_lineOrigin hwalk (Nat.not_le.1 hnj) hl hn
    omega

theorem isStatementLine_eq (line : Text) : isStatementLine line =
    !((Text.trimStart line).isEmpty || (Text.trimStart line).head? == some '#') := by
  obtain ⟨rest, hrest, htrim⟩ := Text.exists_trim_append_blank line
  rw [isStatementLine, htrim]
  cases hline : Text.trim line with
  | cons c cs => rfl
  | nil =>
    rw [hline, List.nil_append] at htrim
    have hblank : Text.blank line = true := by rw [← Text.blank_trimStart, htrim, hrest]
    rw [← htrim, Text.blank_iff_trimStart.1 hblank, List.append_nil]

/-- What starts a statement is read as one. -/
theorem isStatementLine_of_startsStatement (hwalk : Walked s tree nest stop)
    (hm : s.has Line.startsStatement m = true)
    (hsame : Text.trimStart line = Text.trimStart (s.textAt m)) : isStatementLine line = true := by
  obtain ⟨tabWidth, t, rfl⟩ := hwalk.source
  obtain ⟨found, hfound, hstart⟩ := Source.has_eq_true.1 hm
  rw [Source.textAt, Source.text?, hfound, Option.map_some, Option.getD_some] at hsame
  rw [Source.ofText, Line.getElem?_scan, Option.map_eq_some_iff] at hfound
  obtain ⟨text, -, rfl⟩ := hfound
  simp only [Line.startsStatement, Line.ofText, Bool.and_eq_true, beq_iff_eq,
    Bool.not_eq_true'] at hstart hsame
  -- An open literal would keep the statement before it open.
  have hquote : (Carry.after (t.lines.take m)).quote.isSome = false := by
    cases hq : (Carry.after (t.lines.take m)).quote.isSome with
    | false => rfl
    | true =>
      have hpending := Carry.settled_after (t.lines.take m) (.inl hq)
      rw [Carry.after] at hpending
      simp [hpending] at hstart
  have hcode := hstart.1
  rw [Line.kindOf, ← Carry.after, hquote] at hcode
  rw [isStatementLine_eq, hsame]
  cases htext : Text.trimStart text with
  | nil => simp [htext] at hcode
  | cons c cs =>
    have hcomment : c ≠ '#' := by
      rintro rfl
      simp [htext] at hcode
    simp [hcomment]

end

/-! Jumps that get into a kernel. -/

/-- Line `i` of a kernel, which comes from line `k`, reads as a scope around line `j` that catches
the jump. -/
structure Masks (s : Source) (tree : DirectiveTree) (nest : LoopNest) (jump : Jump) (i j k : Nat) :
    Prop where
  origin : lineOrigin tree nest i = some k
  surrounds : ∃ scope, Surrounds (kernelLines s tree nest) i j scope ∧ jump.catches scope = true

/-- Line `m` stands no deeper than line `k`, but in the kernel it stands further right. -/
structure Misaligned (s : Source) (tree : DirectiveTree) (nest : LoopNest) (i k m : Nat) :
    Prop where
  left : s.indentAt m ≤ s.indentAt k
  right : ∃ n line line', lineOrigin tree nest n = some m ∧
    (kernelLines s tree nest)[i]? = some line ∧ (kernelLines s tree nest)[n]? = some line' ∧
    byteIndent line < byteIndent line'

/-- The ways in which a jump on line `l`, which becomes line `j` of a kernel, gets into it. -/
inductive Escapes (s : Source) (tree : DirectiveTree) (nest : LoopNest) (j l : Nat) (jump : Jump) :
    Prop
  /-- The jump is not written in the plain form on a line of its own. -/
  | spelled (other : jump.isPlain (Text.trim (s.textAt l)) = false)
  /-- A line inside a literal or a longer statement reads as a scope. -/
  | disguised {i k : Nat} (mask : Masks s tree nest jump i j k)
    (inside : s.has Line.startsStatement k = false)
  /-- A statement that begins with `async` is not what it is taken for. -/
  | async {i k : Nat} (mask : Masks s tree nest jump i j k)
    (head : beginsWithWord "async" (Text.trim (s.textAt k)) = true)
    (free : jump.caughtBy (Text.trimStart (s.textAt k)) = false)
  /-- A scope ends before the jump, but not by the indentation in the kernel. -/
  | shifted {i k m : Nat} (mask : Masks s tree nest jump i j k)
    (head : jump.caughtBy (Text.trimStart (s.textAt k)) = true)
    (starts : s.has Line.startsStatement k = true) (lt : k < m) (le : m ≤ l)
    (ends : s.has Line.startsStatement m = true) (misaligned : Misaligned s tree nest i k m)

section

variable {s : Source} {tree : DirectiveTree} {nest : LoopNest} {i j k l m stop : Nat} {jump : Jump}

/-- What the kernel takes for the inside of a scope stands to the right of it there. -/
theorem misaligned_of_masks (hwalk : Walked s tree nest stop)
    (hl : lineOrigin tree nest j = some l) (hmasks : Masks s tree nest jump i j k) (hkm : k < m)
    (hml : m ≤ l) (hm : s.has Line.startsStatement m = true) (hleft : s.indentAt m ≤ s.indentAt k) :
    Misaligned s tree nest i k m := by
  obtain ⟨scope, hsurrounds, -⟩ := hmasks.surrounds
  obtain ⟨line, hline, hscope⟩ := hsurrounds.opens
  obtain ⟨n, hn, hin, hnj⟩ := exists_lineOrigin_between hwalk hmasks.origin hl hkm hml
  obtain ⟨line', hline', hsame⟩ := exists_kernelLine hwalk hn
  have hstatement := isStatementLine_of_startsStatement hwalk hm hsame
  have hdeeper := hsurrounds.deeper n line' hin hnj hline' hstatement
  rw [scopeOf?_indent hscope] at hdeeper
  exact ⟨hleft, n, line, line', hn, hline, hline', hdeeper⟩

/-- A line that reads as a scope around a jump that leaves the body is none. -/
theorem escapes_of_masks (hwalk : Walked s tree nest stop)
    (hl : lineOrigin tree nest j = some l) (hleaves : Leaves s nest.body.start l jump)
    (hmasks : Masks s tree nest jump i j k) : Escapes s tree nest j l jump := by
  obtain ⟨scope, hsurrounds, hcatches⟩ := hmasks.surrounds
  obtain ⟨line, hline, hscope⟩ := hsurrounds.opens
  obtain ⟨k', hk', hsame⟩ := exists_lineOrigin_of_scope hwalk hline hscope
  obtain rfl : k' = k := Option.some.inj (hk'.symm.trans hmasks.origin)
  have hlt := lt_of_lineOrigin hwalk hsurrounds.lt hk' hl
  have hfirst := ((exists_lineOrigin_iff hwalk).1 ⟨i, hk'⟩).1
  cases hstarts : s.has Line.startsStatement k' with
  | false => exact .disguised hmasks hstarts
  | true =>
    cases hcaught : jump.caughtBy (Text.trimStart (s.textAt k')) with
    | false =>
      have hhead := caughtBy_or_async hsame hscope hcatches
      rw [hcaught] at hhead
      exact .async hmasks (hhead.resolve_left (by simp)) hcaught
    | true =>
      -- The scope would catch the jump if it reached to it.
      have hends : ¬ s.Encloses k' l := by
        intro hencloses
        have hfree := hleaves.free k' hfirst hencloses
        simp [hcaught] at hfree
      obtain ⟨m, hkm, hml, hm, hleft⟩ : ∃ m, k' < m ∧ m ≤ l ∧
          s.has Line.startsStatement m = true ∧ s.indentAt m ≤ s.indentAt k' := by
        by_contra hnone
        refine hends ⟨Nat.le_of_lt hlt, hstarts, fun m hkm hml hm => ?_⟩
        by_contra hleft
        exact hnone ⟨m, hkm, hml, hm, Nat.not_lt.1 hleft⟩
      exact .shifted hmasks hcaught hstarts hkm hml hm
        (misaligned_of_masks hwalk hl hmasks hkm hml hm hleft)

theorem escapes_iff (hwalk : Walked s tree nest stop)
    (hl : lineOrigin tree nest j = some l) (hleaves : Leaves s nest.body.start l jump) :
    Escapes s tree nest j l jump ↔
      jump.isPlain (Text.trim (s.textAt l)) = false ∨ ∃ i k, Masks s tree nest jump i j k := by
  constructor
  · intro h
    cases h with
    | spelled other => exact .inl other
    | disguised mask _ | async mask _ _ | shifted mask _ _ _ _ _ _ => exact .inr ⟨_, _, mask⟩
  · intro h
    rcases h with hother | ⟨i, k, hmasks⟩
    · exact .spelled hother
    · exact escapes_of_masks hwalk hl hleaves hmasks

theorem any_catches_iff {line : Text} (hwalk : Walked s tree nest stop)
    (hline : (kernelLines s tree nest)[j]? = some line) (hstatement : isStatementLine line = true) :
    (scopesAround ((kernelLines s tree nest).take j) line).any jump.catches = true ↔
      ∃ i k, Masks s tree nest jump i j k := by
  rw [List.any_eq_true]
  constructor
  · rintro ⟨scope, hscope, hcatches⟩
    obtain ⟨i, hsurrounds⟩ := (mem_scopesAround hline hstatement).1 hscope
    obtain ⟨opening, hopening, hopens⟩ := hsurrounds.opens
    obtain ⟨k, hk, -⟩ := exists_lineOrigin_of_scope hwalk hopening hopens
    exact ⟨i, k, hk, scope, hsurrounds, hcatches⟩
  · rintro ⟨i, k, hmasks⟩
    obtain ⟨scope, hsurrounds, hcatches⟩ := hmasks.surrounds
    exact ⟨scope, (mem_scopesAround hline hstatement).2 ⟨i, hsurrounds⟩, hcatches⟩

/-- What becomes of a jump that leaves the body. -/
theorem lineResult_of_leaves (returned : Text) {line : Text} (hwalk : Walked s tree nest stop)
    (hl : lineOrigin tree nest j = some l) (hleaves : Leaves s nest.body.start l jump)
    (hline : (kernelLines s tree nest)[j]? = some line)
    (hsame : Text.trimStart line = Text.trimStart (s.textAt l)) :
    (Escapes s tree nest j l jump → ∀ line',
      lineResult returned ((kernelLines s tree nest).take j) line = .ok line' → line' = line) ∧
    (¬ Escapes s tree nest j l jump →
      lineResult returned ((kernelLines s tree nest).take j) line = jump.result returned line) := by
  have htrim : Text.trim line = Text.trim (s.textAt l) := by rw [Text.trim_eq, hsame, Text.trim_eq]
  rw [escapes_iff hwalk hl hleaves, ← htrim]
  cases hplain : jump.isPlain (Text.trim line) with
  | false =>
    rw [htrim] at hplain
    exact ⟨fun _ line' => eq_of_not_isPlain hleaves.word htrim hplain, by simp⟩
  | true =>
    rw [← any_catches_iff hwalk hline (isStatementLine_of_isPlain hplain),
      lineResult_of_isPlain hplain]
    constructor
    · intro hcaught line' hok
      rw [if_pos (hcaught.resolve_left (by simp))] at hok
      exact (Except.ok.inj hok).symm
    · intro hfree
      rw [if_neg fun hcaught => hfree (.inr hcaught)]

/-- A line of a body that becomes a function becomes the line with its number. -/
theorem exists_line_of_functionBody {returned : Text} {body : List Text}
    (hwalk : Walked s tree nest stop)
    (hbody : functionBody returned (kernelLines s tree nest) = .ok body)
    (hl : lineOrigin tree nest j = some l) :
    ∃ line line', (kernelLines s tree nest)[j]? = some line ∧
      Text.trimStart line = Text.trimStart (s.textAt l) ∧ body[j]? = some line' ∧
      lineResult returned ((kernelLines s tree nest).take j) line = .ok line' := by
  obtain ⟨hlength, hresult⟩ := functionBody_eq_ok.1 hbody
  obtain ⟨line, hline, hsame⟩ := exists_kernelLine hwalk hl
  have hj := (List.getElem?_eq_some_iff.1 hline).1
  have hline' := List.getElem?_eq_getElem (l := body) (i := j) (by omega)
  exact ⟨line, _, hline, hsame, hline', hresult j line _ hline hline'⟩

/-- A jump that leaves the body and does not escape stands as a return, if it is a `continue`. -/
theorem kept_or_returned {returned : Text} {body : List Text} (hwalk : Walked s tree nest stop)
    (hbody : functionBody returned (kernelLines s tree nest) = .ok body)
    (hl : lineOrigin tree nest j = some l) (hleaves : Leaves s nest.body.start l jump) :
    ∃ line, body[j]? = some line ∧
      (Escapes s tree nest j l jump ∧ Text.trimStart line = Text.trimStart (s.textAt l) ∨
        ¬ Escapes s tree nest j l jump ∧ jump = .continueLoop ∧
          Text.trimStart line = "return".toList ++ returned) := by
  obtain ⟨line, line', hline, hsame, hline', hresult⟩ := exists_line_of_functionBody hwalk hbody hl
  obtain ⟨hkept, hjump⟩ := lineResult_of_leaves returned hwalk hl hleaves hline hsame
  refine ⟨line', hline', ?_⟩
  by_cases hescapes : Escapes s tree nest j l jump
  · rw [hkept hescapes line' hresult]
    exact .inl ⟨hescapes, hsame⟩
  · right
    rw [hjump hescapes] at hresult
    cases jump with
    | breakLoop | returnValue => simp [Jump.result] at hresult
    | continueLoop =>
      obtain rfl := Except.ok.inj hresult
      refine ⟨hescapes, rfl, ?_⟩
      rw [List.append_assoc, Text.trimStart_append (Text.blank_margin line)]
      rfl

/-- A `break` or `return` that leaves the body and does not escape makes the body fail. -/
theorem exists_fault_of_leaves (returned : Text) (hwalk : Walked s tree nest stop)
    (hl : lineOrigin tree nest j = some l) (hleaves : Leaves s nest.body.start l jump)
    (hjump : jump ≠ .continueLoop) (hescapes : ¬ Escapes s tree nest j l jump) :
    ∃ fault, (fault = .escapingBreak ∨ fault = .escapingReturn) ∧
      functionBody returned (kernelLines s tree nest) = .error fault := by
  cases hbody : functionBody returned (kernelLines s tree nest) with
  | error fault =>
    obtain ⟨i, line, -, hfault⟩ := functionBody_eq_error hbody
    exact ⟨fault, eq_of_lineResult_eq_error hfault, rfl⟩
  | ok body =>
    obtain ⟨line, -, hkept | hreturned⟩ := kept_or_returned hwalk hbody hl hleaves
    · exact absurd hkept.1 hescapes
    · exact absurd hreturned.2.1 hjump

end

/-- For every loop that is to be moved into a kernel, and every jump in it that nothing in the body
catches: if the loop is moved, the jump stands in the kernel as it was exactly if it escapes the
reader of the body, and it is a `continue` that has become a return of the reduction values if not.
If a `break` or a `return` does not escape the reader, the loop is rejected. -/
theorem jump_kept_iff_escapes {config : Config} {source : Text} {tree : DirectiveTree}
    {target : Target} {d construct : Directive} {region : Span} {fallback : Nat}
    (hparse : (parse config source).outcome = .ok tree)
    (hsource : target.source = .ofText config.tabWidth source) :
    (∀ next, (moveLoop fallback d construct region tree target).outcome = .ok next →
      ∃ nest kernel, Made tree target d region nest kernel ∧
        next.kernels = target.kernels ++ [kernel.render] ∧
        (∀ l, nest.body.contains l = true → ∃ j, lineOrigin tree nest j = some l) ∧
        ∀ j l jump, lineOrigin tree nest j = some l →
          Leaves target.source nest.body.start l jump → ∃ line, kernel.body[j]? = some line ∧
            (Escapes target.source tree nest j l jump ∧
                Text.trimStart line = Text.trimStart (target.source.textAt l) ∨
              ¬ Escapes target.source tree nest j l jump ∧ jump = .continueLoop ∧
                Text.trimStart line = "return".toList ++ resultTuple kernel.reductions)) ∧
    (∀ nest reductions, LoopNest.find target.source d region = .ok nest →
      reductionsOf d = .ok reductions →
      (∃ j l jump, lineOrigin tree nest j = some l ∧
        Leaves target.source nest.body.start l jump ∧ jump ≠ .continueLoop ∧
        ¬ Escapes target.source tree nest j l jump) →
      ∃ fault, (fault = .escapingBreak ∨ fault = .escapingReturn) ∧
        (moveLoop fallback d construct region tree target).outcome =
          .error (.generation d.line fault)) := by
  constructor
  · intro next hnext
    obtain ⟨c, hc, hdiffers⟩ := differs_moveLoop hnext
    obtain ⟨nest, kernel, rfl, hmade⟩ := exists_made_of_move hc
    obtain ⟨stop, hwalk⟩ := exists_walked hparse hsource hmade.found
    refine ⟨nest, kernel, hmade, hdiffers.kernels, ?_, ?_⟩
    · intro l hl
      rw [Span.contains_iff] at hl
      have hle := hwalk.le
      exact (exists_lineOrigin_iff hwalk).2 (by omega)
    · intro j l jump hl hleaves
      exact kept_or_returned hwalk hmade.body hl hleaves
  · rintro nest reductions hfind hreductions ⟨j, l, jump, hl, hleaves, hjump, hescapes⟩
    obtain ⟨stop, hwalk⟩ := exists_walked hparse hsource hfind
    obtain ⟨fault, hfault, hbody⟩ := exists_fault_of_leaves (resultTuple reductions)
      hwalk hl hleaves hjump hescapes
    have hkernel : kernelOf d target nest reductions (atomicsIn tree nest.body) =
        .error (.generation d.line fault) := by
      rw [kernelOf, ← kernelLines, hbody, mapError_error, error_bind]
    refine ⟨fault, hfault, ?_⟩
    simp only [moveLoop, Logged.outcome_bind, Logged.outcome_lift, hfind, hreductions, hkernel,
      ok_bind, error_bind]

/-- A `continue` behind a colon, one on a line of its own, and a `return` without a space. -/
def jumpingLoop : FunctionContext where
  source := Text.unlines ["# acc parallel loop", "for i in x:", "    if i < 0: continue",
    "    if i < 1:", "        continue", "    return(i)"]

def jumpingTarget : Target :=
  .ofContext jumpingLoop Source.defaultTabWidth Target.defaultEntry

def jumpingNest : LoopNest where
  headers := [⟨"i", "x"⟩]
  span := ⟨1, 6⟩
  body := ⟨2, 6⟩

def jumpingKernel : Kernel where
  line := 0
  captured := []
  headers := jumpingNest.headers
  reductions := []
  body := ["if i < 0: continue", "if i < 1:", "    return", "return(i)"]

/-- Nothing in the body catches a jump. -/
theorem leaves_jumpingTarget {l : Nat} {jump : Jump} (hl : l < 6)
    (h : (jumpingTarget.source.carryAt l).HoldsWord jump.word (jumpingTarget.source.textAt l)) :
    Leaves jumpingTarget.source 2 l jump := by
  have hfree : ∀ k < 6, 2 ≤ k → ∀ jump ∈ [Jump.breakLoop, .continueLoop, .returnValue],
      jump.caughtBy (Text.trimStart (jumpingTarget.source.textAt k)) = false := by
    decide +kernel
  refine ⟨h, fun k hk hencloses => ?_⟩
  have hle := hencloses.le
  exact hfree k (by omega) hk jump (by cases jump <;> decide)

theorem exists_move_jumpingLoop :
    ∃ tree next, (parse {} jumpingLoop.source).outcome = .ok tree ∧
      (moveLoop defaultGangs (tree.get 2) (tree.get 1) ⟨1, 6⟩ tree jumpingTarget).outcome =
        .ok next ∧
      LoopNest.find jumpingTarget.source (tree.get 2) ⟨1, 6⟩ = .ok jumpingNest ∧
      reductionsOf (tree.get 2) = .ok [] ∧
      kernelOf (tree.get 2) jumpingTarget jumpingNest [] (atomicsIn tree jumpingNest.body) =
        .ok jumpingKernel ∧
      lineOrigin tree jumpingNest 2 = some 4 := by
  have hcheck : ((parse {} jumpingLoop.source).outcome.toOption.any fun tree =>
      ((moveLoop defaultGangs (tree.get 2) (tree.get 1) ⟨1, 6⟩ tree
        jumpingTarget).outcome.toOption.any fun _ => true) &&
      (LoopNest.find jumpingTarget.source (tree.get 2) ⟨1, 6⟩).toOption == some jumpingNest &&
      (reductionsOf (tree.get 2)).toOption == some [] &&
      (kernelOf (tree.get 2) jumpingTarget jumpingNest []
        (atomicsIn tree jumpingNest.body)).toOption == some jumpingKernel &&
      lineOrigin tree jumpingNest 2 == some 4) = true := by
    decide +kernel
  obtain ⟨tree, htree, hfacts⟩ := exists_of_any hcheck
  simp only [Bool.and_eq_true, beq_iff_eq] at hfacts
  obtain ⟨⟨⟨⟨hmove, hfind⟩, hreductions⟩, hkernel⟩, hline⟩ := hfacts
  obtain ⟨next, hnext, -⟩ := exists_of_any hmove
  exact ⟨tree, next, htree, hnext, eq_ok_of_toOption hfind, eq_ok_of_toOption hreductions,
    eq_ok_of_toOption hkernel, hline⟩

/-- The `continue` on a line of its own has become a return; the other two jumps are kept. -/
theorem jumpingLoop_escapes :
    ∃ tree next, (parse {} jumpingLoop.source).outcome = .ok tree ∧
      (moveLoop defaultGangs (tree.get 2) (tree.get 1) ⟨1, 6⟩ tree jumpingTarget).outcome =
        .ok next ∧
      next.kernels = [jumpingKernel.render] ∧
      Leaves jumpingTarget.source 2 2 .continueLoop ∧
      Escapes jumpingTarget.source tree jumpingNest 0 2 .continueLoop ∧
      Leaves jumpingTarget.source 2 4 .continueLoop ∧
      ¬ Escapes jumpingTarget.source tree jumpingNest 2 4 .continueLoop ∧
      Leaves jumpingTarget.source 2 5 .returnValue ∧
      Escapes jumpingTarget.source tree jumpingNest 3 5 .returnValue := by
  obtain ⟨tree, next, htree, hnext, hfind, hreductions, hkernel, hline⟩ := exists_move_jumpingLoop
  obtain ⟨nest, kernel, hmade, hkernels, -, hjumps⟩ :=
    (jump_kept_iff_escapes htree rfl).1 next hnext
  obtain rfl : jumpingNest = nest := Except.ok.inj (hfind.symm.trans hmade.found)
  have hmadeKernel := hmade.kernel
  rw [Except.ok.inj (hmade.reductions.symm.trans hreductions)] at hmadeKernel
  obtain rfl : jumpingKernel = kernel := Except.ok.inj (hkernel.symm.trans hmadeKernel)
  have hbehind : Leaves jumpingTarget.source 2 2 .continueLoop :=
    leaves_jumpingTarget (by decide) ⟨"    if i < 0: ", [], by decide +kernel⟩
  have halone : Leaves jumpingTarget.source 2 4 .continueLoop :=
    leaves_jumpingTarget (by decide) ⟨"        ", [], by decide +kernel⟩
  have hreturn : Leaves jumpingTarget.source 2 5 .returnValue :=
    leaves_jumpingTarget (by decide) ⟨"    ", "(i)", by decide +kernel⟩
  refine ⟨tree, next, htree, hnext, hkernels, hbehind, .spelled (by decide +kernel), halone, ?_,
    hreturn, .spelled (by decide +kernel)⟩
  obtain ⟨line, hbody, ⟨-, hkept⟩ | ⟨hnot, -⟩⟩ := hjumps 2 4 .continueLoop hline halone
  · obtain rfl : "    return".toList = line := Option.some.inj hbody
    exact absurd hkept (by decide +kernel)
  · exact hnot

end Host
end Offload
