import Offload.Pragma.Token
import Offload.Proofs.Capture
import Offload.Proofs.Detached

/-!
Brackets and lists. A text is split at the separators outside all brackets; the pieces cannot be
split further, and pieces whose brackets are closed can be joined and split again. Lists of
arguments are joined and read with blanks around their items.
-/
namespace Offload

theorem bracketStep_of_plain {c : Char} (hopen : isOpening c = false) (hclose : isClosing c = false)
    (depth : Nat) : bracketStep depth c = depth := by
  simp [bracketStep, hopen, hclose]

namespace Text

variable {separator : Char} {depth : Nat} {t u : Text}

/-! Splitting. -/

/-- The bracket depth behind a text. -/
def depthAfter (depth : Nat) (t : Text) : Nat := t.foldl bracketStep depth

/-- A text is split at a character that is the separator and stands outside all brackets. -/
def splitsAt (separator : Char) (depth : Nat) (c : Char) : Bool :=
  c == separator && depth == 0 && !isOpening c && !isClosing c

/-- The text, starting at the given depth, has no place to split it. -/
def Whole (separator : Char) (depth : Nat) (t : Text) : Prop :=
  splitAtDepth separator depth t = [t]

theorem splitAtDepth_cons (separator : Char) (depth : Nat) (c : Char) (cs : Text) :
    splitAtDepth separator depth (c :: cs) =
      if splitsAt separator depth c then [] :: splitAtDepth separator depth cs
      else consHead c (splitAtDepth separator (bracketStep depth c) cs) := rfl

theorem eq_of_splitsAt {c : Char} (h : splitsAt separator depth c = true) : c = separator := by
  simp only [splitsAt, Bool.and_eq_true, beq_iff_eq] at h
  exact h.1.1.1

theorem plain_of_splitsAt {c : Char} (h : splitsAt separator depth c = true) :
    depth = 0 ∧ isOpening c = false ∧ isClosing c = false := by
  simp only [splitsAt, Bool.and_eq_true, beq_iff_eq, Bool.not_eq_true'] at h
  exact ⟨h.1.1.2, h.1.2, h.2⟩

theorem splitAtDepth_ne_nil (separator : Char) (depth : Nat) (t : Text) :
    splitAtDepth separator depth t ≠ [] := by
  cases t with
  | nil => simp [splitAtDepth]
  | cons c cs =>
    rw [splitAtDepth_cons]
    split
    · simp
    · cases splitAtDepth separator (bracketStep depth c) cs <;> simp [consHead]

theorem exists_splitAtDepth (separator : Char) (depth : Nat) (t : Text) :
    ∃ first more, splitAtDepth separator depth t = first :: more :=
  List.exists_cons_of_ne_nil (splitAtDepth_ne_nil separator depth t)

theorem whole_nil : Whole separator depth [] := rfl

theorem whole_cons {c : Char} {cs : Text} :
    Whole separator depth (c :: cs) ↔
      splitsAt separator depth c = false ∧ Whole separator (bracketStep depth c) cs := by
  unfold Whole
  rw [splitAtDepth_cons]
  obtain ⟨first, more, hsplit⟩ := exists_splitAtDepth separator (bracketStep depth c) cs
  cases splitsAt separator depth c with
  | true => simp
  | false => simp [hsplit, consHead]

theorem whole_append :
    Whole separator depth (t ++ u) ↔
      Whole separator depth t ∧ Whole separator (depthAfter depth t) u := by
  induction t generalizing depth with
  | nil => simp [whole_nil, depthAfter]
  | cons c cs ih =>
    rw [List.cons_append, whole_cons, whole_cons, ih, and_assoc]
    rfl

theorem whole_of_not_mem (h : separator ∉ t) : Whole separator depth t := by
  induction t generalizing depth with
  | nil => exact whole_nil
  | cons c cs ih =>
    rw [List.mem_cons, not_or] at h
    refine whole_cons.2 ⟨?_, ih h.2⟩
    simp [splitsAt, Ne.symm h.1]

/-- A text that cannot be split runs on into the first piece of what follows it. -/
theorem splitAtDepth_append (h : Whole separator depth t) (u : Text) :
    splitAtDepth separator depth (t ++ u) =
      t.foldr consHead (splitAtDepth separator (depthAfter depth t) u) := by
  induction t generalizing depth with
  | nil => rfl
  | cons c cs ih =>
    obtain ⟨hc, hcs⟩ := whole_cons.1 h
    rw [List.cons_append, splitAtDepth_cons, hc, if_neg (by simp), ih hcs]
    rfl

/-- The last piece runs on into a text that cannot be split. -/
theorem splitAtDepth_append_last {front : List Text} {last : Text}
    (ht : splitAtDepth separator depth t = front ++ [last])
    (hu : Whole separator (depthAfter depth t) u) :
    splitAtDepth separator depth (t ++ u) = front ++ [last ++ u] := by
  induction t generalizing depth front last with
  | nil =>
    obtain ⟨rfl, hlast⟩ := List.append_eq_singleton_iff.1 ht.symm |>.resolve_right (by simp)
    obtain rfl := List.singleton_inj.1 hlast
    exact hu
  | cons c cs ih =>
    change Whole separator (depthAfter (bracketStep depth c) cs) u at hu
    rw [List.cons_append, splitAtDepth_cons]
    rw [splitAtDepth_cons] at ht
    split at ht
    · next hc =>
      obtain ⟨-, hopen, hclose⟩ := plain_of_splitsAt hc
      rw [bracketStep_of_plain hopen hclose] at hu
      rw [if_pos hc]
      cases front with
      | nil => exact absurd (List.cons.inj ht).2 (splitAtDepth_ne_nil separator depth cs)
      | cons head rest =>
        obtain ⟨rfl, hrest⟩ := List.cons.inj ht
        rw [ih hrest hu]
        rfl
    · next hc =>
      obtain ⟨first, more, hsplit⟩ := exists_splitAtDepth separator (bracketStep depth c) cs
      rw [hsplit, consHead] at ht
      rw [if_neg hc]
      cases front with
      | nil =>
        obtain ⟨rfl, rfl⟩ := List.cons.inj ht
        have hcs : splitAtDepth separator (bracketStep depth c) cs = [] ++ [first] := hsplit
        rw [ih hcs hu]
        rfl
      | cons head rest =>
        obtain ⟨rfl, rfl⟩ := List.cons.inj ht
        have hcs : splitAtDepth separator (bracketStep depth c) cs = (first :: rest) ++ [last] :=
          hsplit
        rw [ih hcs hu]
        rfl

theorem join_splitAtDepth (separator : Char) (depth : Nat) (t : Text) :
    join [separator] (splitAtDepth separator depth t) = t := by
  induction t generalizing depth with
  | nil => rfl
  | cons c cs ih =>
    rw [splitAtDepth_cons]
    split
    · next hc =>
      obtain ⟨first, more, hsplit⟩ := exists_splitAtDepth separator depth cs
      have hrest := ih depth
      rw [hsplit] at hrest ⊢
      simp only [join, List.intercalate_cons_cons, List.nil_append] at hrest ⊢
      rw [hrest, eq_of_splitsAt hc]
      rfl
    · obtain ⟨first, more, hsplit⟩ := exists_splitAtDepth separator (bracketStep depth c) cs
      have hrest := ih (bracketStep depth c)
      rw [hsplit] at hrest ⊢
      cases more with
      | nil => simpa [consHead, join] using hrest
      | cons next more => simpa [consHead, join] using hrest

/-- A piece cannot be split further. -/
theorem whole_of_splitAtDepth {first : Text} {more : List Text}
    (h : splitAtDepth separator depth t = first :: more) :
    Whole separator depth first ∧ ∀ piece ∈ more, Whole separator 0 piece := by
  induction t generalizing depth first more with
  | nil =>
    obtain ⟨rfl, rfl⟩ := List.cons.inj h
    exact ⟨whole_nil, by simp⟩
  | cons c cs ih =>
    rw [splitAtDepth_cons] at h
    split at h
    · next hc =>
      obtain ⟨rfl, rfl⟩ := List.cons.inj h
      obtain ⟨rfl, -, -⟩ := plain_of_splitsAt hc
      obtain ⟨next, rest, hsplit⟩ := exists_splitAtDepth separator 0 cs
      have hpieces := ih hsplit
      rw [hsplit]
      exact ⟨whole_nil, List.forall_mem_cons.2 hpieces⟩
    · next hc =>
      obtain ⟨next, rest, hsplit⟩ := exists_splitAtDepth separator (bracketStep depth c) cs
      rw [hsplit, consHead] at h
      obtain ⟨rfl, rfl⟩ := List.cons.inj h
      obtain ⟨hnext, hrest⟩ := ih hsplit
      exact ⟨whole_cons.2 ⟨by simpa using hc, hnext⟩, hrest⟩

/-- Pieces have no other separator outside brackets if the text has none. -/
theorem Whole.of_splitAtDepth {other : Char} {first : Text} {more : List Text}
    (ht : Whole other depth t) (h : splitAtDepth separator depth t = first :: more) :
    Whole other depth first ∧ ∀ piece ∈ more, Whole other 0 piece := by
  induction t generalizing depth first more with
  | nil =>
    obtain ⟨rfl, rfl⟩ := List.cons.inj h
    exact ⟨whole_nil, by simp⟩
  | cons c cs ih =>
    obtain ⟨hc, hcs⟩ := whole_cons.1 ht
    rw [splitAtDepth_cons] at h
    split at h
    · next hsplits =>
      obtain ⟨rfl, rfl⟩ := List.cons.inj h
      obtain ⟨rfl, hopen, hclose⟩ := plain_of_splitsAt hsplits
      rw [bracketStep_of_plain hopen hclose] at hcs
      obtain ⟨next, rest, hsplit⟩ := exists_splitAtDepth separator 0 cs
      have hpieces := ih hcs hsplit
      rw [hsplit]
      exact ⟨whole_nil, List.forall_mem_cons.2 hpieces⟩
    · obtain ⟨next, rest, hsplit⟩ := exists_splitAtDepth separator (bracketStep depth c) cs
      rw [hsplit, consHead] at h
      obtain ⟨rfl, rfl⟩ := List.cons.inj h
      obtain ⟨hnext, hrest⟩ := ih hcs hsplit
      exact ⟨whole_cons.2 ⟨hc, hnext⟩, hrest⟩

/-! Cutting. -/

/-- A text is cut where it is first split. -/
theorem cutAtDepth?_eq_some {rest : Text} (hopen : isOpening separator = false)
    (hclose : isClosing separator = false) (h : Whole separator depth t)
    (hdepth : depthAfter depth t = 0) :
    cutAtDepth? [separator] depth (t ++ separator :: rest) = some (t, rest) := by
  induction t generalizing depth with
  | nil =>
    obtain rfl : depth = 0 := hdepth
    simp [cutAtDepth?, hopen, hclose, after?]
  | cons c cs ih =>
    obtain ⟨hc, hcs⟩ := whole_cons.1 h
    have hrest := ih hcs hdepth
    rw [List.cons_append, cutAtDepth?]
    by_cases hbracket : (isOpening c || isClosing c) = true
    · rw [if_pos hbracket, hrest]
      rfl
    · rw [if_neg hbracket]
      rw [Bool.or_eq_true, not_or, Bool.not_eq_true, Bool.not_eq_true] at hbracket
      rw [bracketStep_of_plain hbracket.1 hbracket.2] at hrest
      have hnone : (if depth = 0 then after? [separator] (c :: (cs ++ separator :: rest)) else none) =
          none := by
        split
        · next hzero =>
          have hne : separator ≠ c := by
            rintro rfl
            simp [splitsAt, hzero, hbracket] at hc
          simp [after?, hne]
        · rfl
      rw [hnone, hrest]
      rfl

theorem cutAtDepth?_eq_none (h : separator ∉ t) (depth : Nat) :
    cutAtDepth? [separator] depth t = none := by
  induction t generalizing depth with
  | nil => rfl
  | cons c cs ih =>
    rw [List.mem_cons, not_or] at h
    have hnone : (if depth = 0 then after? [separator] (c :: cs) else none) = none := by
      simp [after?, h.1]
    rw [cutAtDepth?, hnone, ih h.2, ih h.2]
    split <;> rfl

theorem eq_of_cutAtDepth? {mark before rest : Text}
    (h : cutAtDepth? mark depth t = some (before, rest)) : t = before ++ (mark ++ rest) := by
  induction t generalizing depth before with
  | nil => simp [cutAtDepth?] at h
  | cons c cs ih =>
    rw [cutAtDepth?] at h
    split at h
    · obtain ⟨⟨front, behind⟩, hcut, heq⟩ := Option.map_eq_some_iff.1 h
      obtain ⟨rfl, rfl⟩ := Prod.mk.inj heq
      rw [ih hcut, List.cons_append]
    · split at h
      · next behind hafter =>
        obtain ⟨rfl, rfl⟩ := Prod.mk.inj (Option.some.inj h)
        split at hafter
        · have heq := after?_eq_some_iff.1 hafter
          exact heq
        · simp at hafter
      · obtain ⟨⟨front, behind⟩, hcut, heq⟩ := Option.map_eq_some_iff.1 h
        obtain ⟨rfl, rfl⟩ := Prod.mk.inj heq
        rw [ih hcut, List.cons_append]

/-! Proper nesting. -/

/-- The bracket that closes an opening one. -/
def closingOf (c : Char) : Char :=
  if c = '(' then ')' else if c = '[' then ']' else '\x7d'

/-- The closing brackets that are due, from the innermost outwards, behind one more character;
none if it closes a bracket that is not its own. -/
def dueStep (due : List Char) (c : Char) : Option (List Char) :=
  if isOpening c then some (closingOf c :: due)
  else if isClosing c then if due.head? = some c then some due.tail else none
  else some due

def dueAfter (due : List Char) (t : Text) : Option (List Char) := t.foldlM dueStep due

/-- Every bracket is closed by its own, and none is left open. -/
def Nested (t : Text) : Prop := dueAfter [] t = some []

instance : Decidable (Nested t) := inferInstanceAs (Decidable (dueAfter [] t = some []))

variable {due due' : List Char}

theorem dueStep_of_plain {c : Char} (hopen : isOpening c = false) (hclose : isClosing c = false)
    (due : List Char) : dueStep due c = some due := by
  simp [dueStep, hopen, hclose]

theorem length_of_dueStep {c : Char} (h : dueStep due c = some due') :
    due'.length = bracketStep due.length c := by
  unfold dueStep at h
  unfold bracketStep
  split at h
  · next hopen =>
    rw [if_pos hopen, ← Option.some.inj h, List.length_cons]
  · next hopen =>
    rw [if_neg hopen]
    split at h
    · next hclose =>
      rw [if_pos hclose]
      split at h
      · rw [← Option.some.inj h, List.length_tail]
      · simp at h
    · next hclose => rw [if_neg hclose, Option.some.inj h]

theorem dueAfter_cons (due : List Char) (c : Char) (cs : Text) :
    dueAfter due (c :: cs) = (dueStep due c).bind (dueAfter · cs) := List.foldlM_cons

theorem dueAfter_append (due : List Char) (t u : Text) :
    dueAfter due (t ++ u) = (dueAfter due t).bind (dueAfter · u) := List.foldlM_append

/-- Brackets in a given text are looked for by computation. -/
theorem plain_of_all (h : (t.all fun c => !isOpening c && !isClosing c) = true) :
    ∀ c ∈ t, isOpening c = false ∧ isClosing c = false := by
  simpa using h

theorem dueAfter_of_plain (h : ∀ c ∈ t, isOpening c = false ∧ isClosing c = false)
    (due : List Char) : dueAfter due t = some due := by
  induction t with
  | nil => rfl
  | cons c cs ih =>
    obtain ⟨hopen, hclose⟩ := h c List.mem_cons_self
    rw [dueAfter_cons, dueStep_of_plain hopen hclose]
    exact ih fun d hd => h d (List.mem_cons_of_mem _ hd)

theorem depthAfter_of_dueAfter (h : dueAfter due t = some due') :
    depthAfter due.length t = due'.length := by
  induction t generalizing due with
  | nil => rw [Option.some.inj h]; rfl
  | cons c cs ih =>
    rw [dueAfter_cons] at h
    obtain ⟨next, hnext, hrest⟩ := Option.bind_eq_some_iff.1 h
    have hcs := ih hrest
    rwa [length_of_dueStep hnext] at hcs

theorem Nested.depthAfter (h : Nested t) : depthAfter 0 t = 0 := depthAfter_of_dueAfter h

theorem nested_of_plain (h : ∀ c ∈ t, isOpening c = false ∧ isClosing c = false) : Nested t :=
  dueAfter_of_plain h []

/-- A text behind a nested one is nested where both together are. -/
theorem Nested.append_iff (ht : Nested t) : Nested (t ++ u) ↔ Nested u := by
  unfold Nested
  rw [dueAfter_append, show dueAfter [] t = some [] from ht, Option.bind_some]

/-- The pieces of a nested text are nested. -/
theorem nested_of_splitAtDepth {first : Text} {more : List Text}
    (ht : dueAfter due t = some []) (h : splitAtDepth separator due.length t = first :: more) :
    dueAfter due first = some [] ∧ ∀ piece ∈ more, Nested piece := by
  induction t generalizing due first more with
  | nil =>
    obtain ⟨rfl, rfl⟩ := List.cons.inj h
    exact ⟨ht, by simp⟩
  | cons c cs ih =>
    rw [dueAfter_cons] at ht
    obtain ⟨due', hstep, hcs⟩ := Option.bind_eq_some_iff.1 ht
    have hlength := length_of_dueStep hstep
    rw [splitAtDepth_cons] at h
    split at h
    · next hc =>
      obtain ⟨rfl, rfl⟩ := List.cons.inj h
      -- The separator stands outside all brackets, so nothing is due before or behind it.
      obtain ⟨hzero, hopen, hclose⟩ := plain_of_splitsAt hc
      rw [dueStep_of_plain hopen hclose] at hstep
      obtain rfl := Option.some.inj hstep
      obtain rfl := List.length_eq_zero_iff.1 hzero
      obtain ⟨next, rest, hsplit⟩ := exists_splitAtDepth separator 0 cs
      have hpieces := ih hcs hsplit
      rw [List.length_nil, hsplit]
      exact ⟨rfl, List.forall_mem_cons.2 hpieces⟩
    · obtain ⟨next, rest, hsplit⟩ := exists_splitAtDepth separator (bracketStep due.length c) cs
      rw [hsplit, consHead] at h
      obtain ⟨rfl, rfl⟩ := List.cons.inj h
      obtain ⟨hnext, hrest⟩ := ih hcs (hlength ▸ hsplit)
      refine ⟨?_, hrest⟩
      rw [dueAfter_cons, hstep]
      exact hnext

/-! Blanks around a text. -/

theorem plain_of_blank {b : Text} (h : blank b = true) :
    ∀ c ∈ b, isOpening c = false ∧ isClosing c = false := by
  intro c hc
  have hblank := List.all_eq_true.1 h c hc
  exact ⟨isOpening_of_isBlank hblank, isClosing_of_isBlank hblank⟩

theorem depthAfter_of_plain {b : Text} (h : ∀ c ∈ b, isOpening c = false ∧ isClosing c = false)
    (depth : Nat) : depthAfter depth b = depth := by
  induction b with
  | nil => rfl
  | cons c cs ih =>
    obtain ⟨hopen, hclose⟩ := h c List.mem_cons_self
    rw [depthAfter, List.foldl_cons, bracketStep_of_plain hopen hclose]
    exact ih fun d hd => h d (List.mem_cons_of_mem _ hd)

theorem whole_of_blank {b : Text} (hsep : isBlank separator = false) (h : blank b = true)
    (depth : Nat) : Whole separator depth b := by
  refine whole_of_not_mem fun hmem => ?_
  rw [List.all_eq_true.1 h separator hmem] at hsep
  simp at hsep

theorem exists_trim (t : Text) :
    ∃ a b, t = a ++ trim t ++ b ∧ blank a = true ∧ blank b = true := exists_stripWhile isBlank t

theorem nested_trim : Nested (trim t) ↔ Nested t := by
  obtain ⟨a, b, ht, ha, hb⟩ := exists_trim t
  have hdue : dueAfter [] t = dueAfter [] (trim t) := by
    conv_lhs => rw [ht]
    rw [dueAfter_append, dueAfter_append, dueAfter_of_plain (plain_of_blank ha), Option.bind_some]
    have hback : (dueAfter · b) = some := funext (dueAfter_of_plain (plain_of_blank hb))
    rw [hback, Option.bind_fun_some]
  rw [Nested, Nested, hdue]

theorem whole_trim (hsep : isBlank separator = false) :
    Whole separator depth (trim t) ↔ Whole separator depth t := by
  obtain ⟨a, b, ht, ha, hb⟩ := exists_trim t
  conv_rhs => rw [ht]
  rw [whole_append, whole_append, depthAfter_of_plain (plain_of_blank ha)]
  simp [whole_of_blank hsep ha, whole_of_blank hsep hb]

theorem trim_of_blank_append {b : Text} (hb : blank b = true) (t : Text) :
    trim (b ++ t) = trim t := by
  rw [trim_eq, trimStart_append hb, ← trim_eq]

theorem trim_cons_space (t : Text) : trim (' ' :: t) = trim t :=
  trim_of_blank_append (b := [' ']) (by decide) t

theorem trimEnd_append_cons {c : Char} (hc : isBlank c = false) (t u : Text) :
    trimEnd (t ++ c :: u) = t ++ c :: trimEnd u := by
  have hend := dropWhile_append_of_head hc u.reverse t.reverse
  unfold trimEnd dropEndWhile
  simp only [List.reverse_append, List.reverse_cons, List.append_assoc, List.singleton_append]
  rw [hend]
  simp

theorem trim_eq_self_iff : trim t = t ↔ trimStart t = t ∧ trimEnd t = t := by
  constructor
  · intro h
    have hstart : trimStart t = t := by
      refine (List.dropWhile_suffix isBlank).eq_of_length_le ?_
      have hend : (trimEnd (trimStart t)).length ≤ (trimStart t).length :=
        (List.rdropWhile_prefix isBlank _).length_le
      rwa [← trim_eq, h] at hend
    rw [trim_eq, hstart] at h
    exact ⟨hstart, h⟩
  · rintro ⟨hstart, hend⟩
    rw [trim_eq, hstart, hend]

/-- Blanks inside a text are kept. -/
theorem trim_append_append {a b : Text} (ha : a ≠ []) (hb : b ≠ []) (hta : trim a = a)
    (htb : trim b = b) (mid : Text) : trim (a ++ mid ++ b) = a ++ mid ++ b := by
  have hstart := List.dropWhile_eq_self_iff.1 (trim_eq_self_iff.1 hta).1
  have hend := List.rdropWhile_eq_self_iff.1 (trim_eq_self_iff.1 htb).2
  refine trim_eq_self_iff.2 ⟨List.dropWhile_eq_self_iff.2 fun h => ?_,
    List.rdropWhile_eq_self_iff.2 fun h => ?_⟩
  · have hpos := List.length_pos_iff.2 ha
    simpa [List.getElem_append, hpos] using hstart hpos
  · rw [List.getLast_append_of_ne_nil _ hb]
    exact hend hb

/-- Blanks around the separators go away with trimming. -/
theorem map_trim_splitAtDepth_append {a b : Text} (hsep : isBlank separator = false)
    (ha : blank a = true) (hb : blank b = true) (depth : Nat) (t : Text) :
    (splitAtDepth separator depth (a ++ t ++ b)).map trim =
      (splitAtDepth separator depth t).map trim := by
  have hback : ∀ t, (splitAtDepth separator depth (t ++ b)).map trim =
      (splitAtDepth separator depth t).map trim := by
    intro t
    rcases List.eq_nil_or_concat' (splitAtDepth separator depth t) with hnil | ⟨front, last, ht⟩
    · exact absurd hnil (splitAtDepth_ne_nil separator depth t)
    · rw [splitAtDepth_append_last ht (whole_of_blank hsep hb _), ht, List.map_append,
        List.map_append, List.map_singleton, List.map_singleton, trim_append_of_blank hb]
  rw [hback, splitAtDepth_append (whole_of_blank hsep ha depth),
    depthAfter_of_plain (plain_of_blank ha)]
  obtain ⟨first, more, hsplit⟩ := exists_splitAtDepth separator depth t
  rw [hsplit, Token.foldr_consHead, List.map_cons, List.map_cons, trim_of_blank_append ha]

end Text

/-! Lists of arguments. -/

open Text

variable {t : Text}

theorem argumentItems_trim (t : Text) : argumentItems (trim t) = argumentItems t := by
  obtain ⟨a, b, ht, ha, hb⟩ := exists_trim t
  have hpieces : (t.splitOutside ',').map trim = ((trim t).splitOutside ',').map trim := by
    conv_lhs => rw [ht]
    exact map_trim_splitAtDepth_append (by decide) ha hb 0 (trim t)
  rw [argumentItems, argumentItems, hpieces]

/-- An item of a list of arguments, as it stands in the list. -/
structure IsItem (item : Text) : Prop where
  nonempty : item ≠ []
  trimmed : trim item = item
  nested : Nested item
  whole : Whole ',' 0 item

theorem isItem_of_mem {item : Text} (ht : Nested t) (h : item ∈ argumentItems t) :
    IsItem item := by
  obtain ⟨hmem, hne⟩ := List.mem_filter.1 h
  obtain ⟨piece, hpiece, rfl⟩ := List.mem_map.1 hmem
  obtain ⟨first, more, hsplit⟩ := exists_splitAtDepth ',' 0 t
  have hnested : ∀ piece ∈ t.splitOutside ',', Nested piece := by
    rw [splitOutside, hsplit]
    exact List.forall_mem_cons.2 (nested_of_splitAtDepth ht hsplit)
  have hwhole : ∀ piece ∈ t.splitOutside ',', Whole ',' 0 piece := by
    rw [splitOutside, hsplit]
    exact List.forall_mem_cons.2 (whole_of_splitAtDepth hsplit)
  exact {
    nonempty := by simpa using hne
    trimmed := trim_trim piece
    nested := nested_trim.2 (hnested piece hpiece)
    whole := (whole_trim (by decide)).2 (hwhole piece hpiece) }

/-- Pieces that leave no bracket open are split as they have been joined. -/
theorem splitOutside_join {first : Text} {more : List Text}
    (hwhole : ∀ piece ∈ first :: more, Whole ',' 0 piece)
    (hclosed : ∀ piece ∈ (first :: more).dropLast, depthAfter 0 piece = 0) :
    (join ", " (first :: more)).splitOutside ',' = first :: more.map (' ' :: ·) := by
  induction more generalizing first with
  | nil =>
    rw [join, List.intercalate_singleton]
    exact hwhole first List.mem_cons_self
  | cons next more ih =>
    obtain ⟨hfirst, hnext, hmore⟩ : Whole ',' 0 first ∧ Whole ',' 0 next ∧
        ∀ piece ∈ more, Whole ',' 0 piece := by simpa using hwhole
    have hzero : depthAfter 0 first = 0 := hclosed first List.mem_cons_self
    -- The blank behind the comma goes to the next piece.
    have hnext' : Whole ',' 0 (' ' :: next) := whole_cons.2 ⟨by decide, hnext⟩
    have hclosed' : ∀ piece ∈ ((' ' :: next) :: more).dropLast, depthAfter 0 piece = 0 := by
      intro piece hpiece
      cases more with
      | nil => simp at hpiece
      | cons last more =>
        rcases List.mem_cons.1 hpiece with rfl | hpiece
        · exact hclosed next (by simp)
        · exact hclosed piece (by simp [hpiece])
    have hrest := ih (List.forall_mem_cons.2 ⟨hnext', hmore⟩) hclosed'
    have hjoin : join ", " (first :: next :: more) =
        first ++ ',' :: join ", " ((' ' :: next) :: more) := by
      cases more with
      | nil => simp [join]
      | cons last more => simp [join]
    rw [hjoin, splitOutside, splitAtDepth_append hfirst, hzero, splitAtDepth_cons,
      if_pos (by decide)]
    rw [splitOutside] at hrest
    rw [hrest, Token.foldr_consHead, List.append_nil, List.map_cons]

/-- A list whose items leave no bracket open, the last one apart, is read item by item. -/
theorem argumentItems_join_closed {pieces : List Text}
    (hwhole : ∀ piece ∈ pieces, Whole ',' 0 piece)
    (hclosed : ∀ piece ∈ pieces.dropLast, depthAfter 0 piece = 0) :
    argumentItems (join ", " pieces) = (pieces.map trim).filter fun item => !item.isEmpty := by
  cases pieces with
  | nil => rfl
  | cons first more =>
    have htrim : trim ∘ (' ' :: ·) = trim := funext trim_cons_space
    rw [argumentItems, splitOutside_join hwhole hclosed, List.map_cons, List.map_cons, List.map_map,
      htrim]

theorem argumentItems_join {pieces : List Text} (h : ∀ piece ∈ pieces, Nested piece)
    (hwhole : ∀ piece ∈ pieces, Whole ',' 0 piece) :
    argumentItems (join ", " pieces) = (pieces.map trim).filter fun item => !item.isEmpty :=
  argumentItems_join_closed hwhole fun piece hpiece =>
    (h piece (List.dropLast_subset _ hpiece)).depthAfter

theorem filter_map_trim {items : List Text} (h : ∀ item ∈ items, item ≠ [] ∧ trim item = item) :
    ((items.map trim).filter fun item => !item.isEmpty) = items := by
  have hmap : items.map trim = items := by
    rw [List.map_congr_left fun item hitem => (h item hitem).2, List.map_id']
  rw [hmap, List.filter_eq_self]
  intro item hitem
  have hne := (h item hitem).1
  simpa using hne

theorem argumentItems_join_items {items : List Text} (h : ∀ item ∈ items, IsItem item) :
    argumentItems (join ", " items) = items := by
  rw [argumentItems_join (fun item hitem => (h item hitem).nested)
    (fun item hitem => (h item hitem).whole)]
  exact filter_map_trim fun item hitem => ⟨(h item hitem).nonempty, (h item hitem).trimmed⟩

theorem nested_join {pieces : List Text} (h : ∀ piece ∈ pieces, Nested piece) :
    Nested (join ", " pieces) := by
  induction pieces with
  | nil => rfl
  | cons first more ih =>
    obtain ⟨hfirst, hmore⟩ := List.forall_mem_cons.1 h
    cases more with
    | nil =>
      rw [join, List.intercalate_singleton]
      exact hfirst
    | cons next more =>
      rw [join_cons_cons, List.append_assoc, hfirst.append_iff,
        Nested.append_iff (t := ", ".toList) (by decide)]
      exact ih hmore

theorem join_items_ne_nil {items : List Text} (hne : items ≠ []) (h : ∀ item ∈ items, IsItem item) :
    join ", " items ≠ [] := by
  cases items with
  | nil => exact absurd rfl hne
  | cons first more =>
    have hfirst := (h first List.mem_cons_self).nonempty
    cases more <;> simp [join, hfirst]

theorem trim_join_items {items : List Text} (h : ∀ item ∈ items, IsItem item) :
    trim (join ", " items) = join ", " items := by
  induction items with
  | nil => rfl
  | cons first more ih =>
    obtain ⟨hfirst, hmore⟩ := List.forall_mem_cons.1 h
    cases more with
    | nil =>
      rw [join, List.intercalate_singleton]
      exact hfirst.trimmed
    | cons next more =>
      have hne := join_items_ne_nil (List.cons_ne_nil next more) hmore
      rw [join_cons_cons]
      exact trim_append_append hfirst.nonempty hne hfirst.trimmed (ih hmore) _

end Offload
