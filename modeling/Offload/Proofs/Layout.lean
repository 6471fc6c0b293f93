import Offload.Proofs.Nest
import Offload.Text.Writer

/-!
Lines that are joined and split again, moved to the left, and written one level deep. Joining and
splitting loses a carriage return before a line end and an empty line at the very end, and nothing
else.
-/
namespace Offload

namespace Text

variable {t l : Text}

/-- A line without the carriage return that belongs to its end. -/
def chomp (t : Text) : Text := if t.getLast? = some '\r' then t.dropLast else t

theorem chomp_of_ne (h : t.getLast? ≠ some '\r') : chomp t = t := if_neg h

theorem chomp_of_eq (h : t.getLast? = some '\r') : chomp t ++ ['\r'] = t := by
  obtain ⟨init, rfl⟩ := List.getLast?_eq_some_iff.1 h
  rw [chomp, if_pos h, List.dropLast_concat]

theorem chomp_cons (c : Char) {t : Text} (h : t ≠ []) : chomp (c :: t) = c :: chomp t := by
  obtain ⟨d, ds, rfl⟩ := List.exists_cons_of_ne_nil h
  rw [chomp, chomp, List.getLast?_cons_cons]
  split <;> rfl

/-! Splitting and joining. -/

theorem newline_not_mem_of_mem_lines (h : l ∈ lines t) : '\n' ∉ l := by
  fun_induction lines t generalizing l with
  | case1 => simp at h
  | case2 rest ih | case3 rest ih =>
    rcases List.mem_cons.1 h with rfl | h
    · simp
    · exact ih h
  | case4 c rest hnewline _ ih =>
    have hc : '\n' ≠ c := fun hc => hnewline hc.symm
    cases hrest : lines rest with
    | nil =>
      rw [hrest, consHead, List.mem_singleton] at h
      simp [h, hc]
    | cons first others =>
      rw [hrest, consHead] at h
      have hfirst := ih (l := first) (by simp [hrest])
      rcases List.mem_cons.1 h with rfl | h
      · simp [hc, hfirst]
      · exact ih (by simp [hrest, h])

theorem lines_append_newline (h : '\n' ∉ l) (rest : Text) :
    lines (l ++ '\n' :: rest) = chomp l :: lines rest := by
  induction l with
  | nil => rfl
  | cons c cs ih =>
    have hc : c ≠ '\n' := fun hc => h (hc ▸ List.mem_cons_self)
    have hcs : '\n' ∉ cs := fun hmem => h (List.mem_cons_of_mem c hmem)
    cases cs with
    | nil =>
      by_cases hr : c = '\r'
      · subst hr
        rfl
      · rw [chomp_of_ne (by simpa using hr)]
        simp [lines, consHead, hr]
    | cons d ds =>
      have hd : d ≠ '\n' := fun hd => hcs (hd ▸ List.mem_cons_self)
      rw [chomp_cons c (by simp)]
      simp only [List.cons_append] at ih ⊢
      rw [lines, ih hcs, consHead]
      · exact hc
      · rintro rest rfl hrest
        simp [hd] at hrest

theorem lines_append_line (t rest : Text) :
    lines (t ++ '\n' :: rest) = lines (t ++ ['\n']) ++ lines rest := by
  induction hlength : t.length using Nat.strongRecOn generalizing t with
  | ind n ih =>
    by_cases hnewline : '\n' ∈ t
    · obtain ⟨first, more, rfl, hfirst⟩ := List.eq_append_cons_of_mem hnewline
      have hmore := ih more.length (by simp at hlength; omega) more rfl
      simp only [List.append_assoc, List.cons_append]
      rw [lines_append_newline hfirst, lines_append_newline hfirst, hmore]
      rfl
    · rw [lines_append_newline hnewline, lines_append_newline hnewline]
      simp [lines]

theorem lines_of_newline_not_mem (h : '\n' ∉ l) (hne : l ≠ []) : lines l = [l] := by
  induction l with
  | nil => exact absurd rfl hne
  | cons c cs ih =>
    have hc : c ≠ '\n' := fun hc => h (hc ▸ List.mem_cons_self)
    have hcs : '\n' ∉ cs := fun hmem => h (List.mem_cons_of_mem c hmem)
    cases cs with
    | nil => simp [lines, consHead]
    | cons d ds =>
      have hd : d ≠ '\n' := fun hd => hcs (hd ▸ List.mem_cons_self)
      rw [lines, ih hcs (by simp), consHead]
      · exact hc
      · rintro rest rfl hrest
        simp [hd] at hrest

/-- Lines that are joined and split again. -/
theorem lines_unlines {init : List Text} {last : Text} (hinit : ∀ l ∈ init, '\n' ∉ l)
    (hlast : '\n' ∉ last) :
    lines (unlines (init ++ [last])) = init.map chomp ++ if last = [] then [] else [last] := by
  have hend : lines (unlines [last]) = if last = [] then [] else [last] := by
    rw [show unlines [last] = last by simp [unlines, join]]
    split
    · next hnil =>
      rw [hnil]
      rfl
    · next hne => exact lines_of_newline_not_mem hlast hne
  induction init with
  | nil => exact hend
  | cons l init ih =>
    have hl := hinit l List.mem_cons_self
    have hrest := ih fun l hmem => hinit l (List.mem_cons_of_mem _ hmem)
    have hjoin : unlines (l :: init ++ [last]) = l ++ '\n' :: unlines (init ++ [last]) := by
      rw [List.cons_append, ← List.singleton_append, unlines_append (by simp) (by simp)]
      simp [unlines, join]
    rw [hjoin, lines_append_newline hl, hrest]
    rfl

theorem not_mem_join {c : Char} {separator : Text} {pieces : List Text} (hsep : c ∉ separator)
    (h : ∀ piece ∈ pieces, c ∉ piece) : c ∉ join separator pieces := by
  induction pieces with
  | nil => simp [join]
  | cons piece pieces ih =>
    have hpiece := h piece List.mem_cons_self
    have hrest := ih fun p hp => h p (List.mem_cons_of_mem _ hp)
    cases pieces with
    | nil => simpa [join] using hpiece
    | cons next pieces =>
      have hjoin : join separator (piece :: next :: pieces) =
          piece ++ separator ++ join separator (next :: pieces) := by
        simp [join]
      rw [hjoin]
      simp [hpiece, hsep, hrest]

/-! Margins. -/

theorem margin_append_trimStart (t : Text) : margin t ++ trimStart t = t :=
  List.takeWhile_append_dropWhile

theorem blank_margin (t : Text) : blank (margin t) = true := List.all_takeWhile

theorem trimStart_append (h : blank t = true) (u : Text) : trimStart (t ++ u) = trimStart u :=
  dropWhile_append_of_blank h u

theorem trim_eq (t : Text) : trim t = trimEnd (trimStart t) := rfl

theorem blank_iff_trimStart : blank t = true ↔ trimStart t = [] := by
  rw [← isEmpty_dropWhile, List.isEmpty_iff, trimStart]

theorem blank_trimStart (t : Text) : blank (trimStart t) = blank t := by
  have happend := blank_append (margin t) (trimStart t)
  rw [margin_append_trimStart, blank_margin, Bool.true_and] at happend
  exact happend.symm

theorem blank_chomp (t : Text) : blank (chomp t) = blank t := by
  by_cases hend : t.getLast? = some '\r'
  · have hblank := blank_append (chomp t) ['\r']
    rw [chomp_of_eq hend, show blank ['\r'] = true by decide, Bool.and_true] at hblank
    exact hblank.symm
  · rw [chomp_of_ne hend]

theorem spaces_append_drop {m : Nat} (h : m ≤ leadingSpaces t) :
    spaces m ++ t.drop m = t := by
  induction t generalizing m with
  | nil =>
    obtain rfl : m = 0 := by simpa [leadingSpaces] using h
    rfl
  | cons c cs ih =>
    cases m with
    | zero => rfl
    | succ m =>
      have hc : c = ' ' := by
        by_cases hc : c = ' '
        · exact hc
        · simp [leadingSpaces, hc] at h
      subst hc
      have hle : m ≤ leadingSpaces cs := by
        simpa [leadingSpaces] using h
      have hrest := ih hle
      rw [spaces] at hrest ⊢
      rw [List.replicate_succ, List.drop_succ_cons, List.cons_append, hrest]

theorem blank_spaces (m : Nat) : blank (spaces m) = true := by
  rw [blank, List.all_eq_true]
  intro c hc
  rw [(List.mem_replicate.1 hc).2]
  decide

/-- Spaces at the front are no part of what is trimmed. -/
theorem trimStart_drop {n : Nat} (h : n ≤ leadingSpaces t) :
    trimStart (t.drop n) = trimStart t := by
  have hsplit := trimStart_append (blank_spaces n) (t.drop n)
  rw [spaces_append_drop h] at hsplit
  exact hsplit.symm

theorem blank_drop {m : Nat} (h : m ≤ leadingSpaces t) : blank (t.drop m) = blank t := by
  rw [← blank_trimStart (t.drop m), trimStart_drop h, blank_trimStart]

theorem commonMargin_le {ls : List Text} (h : l ∈ ls) (hl : blank l = false) :
    commonMargin ls ≤ leadingSpaces l := by
  have hmem : leadingSpaces l ∈ (ls.filter fun line => !blank line).map leadingSpaces :=
    List.mem_map_of_mem (List.mem_filter.2 ⟨h, by simp [hl]⟩)
  rw [commonMargin]
  cases hmin : ((ls.filter fun line => !blank line).map leadingSpaces).min? with
  | none => simp [List.min?_eq_none_iff.1 hmin] at hmem
  | some m => exact (List.min?_eq_some_iff.1 hmin).2 _ hmem

/-- What a line becomes when a block is moved to the left. -/
def moved (margin : Nat) (line : Text) : Text := if blank line then [] else line.drop margin

theorem unindent_eq (ls : List Text) : unindent ls = ls.map (moved (commonMargin ls)) := rfl

theorem trimStart_moved {ls : List Text} (h : l ∈ ls) :
    trimStart (moved (commonMargin ls) l) = trimStart l := by
  rw [moved]
  cases hl : blank l with
  | true =>
    rw [if_pos rfl, blank_iff_trimStart.1 hl]
    rfl
  | false =>
    rw [if_neg (by simp)]
    exact trimStart_drop (commonMargin_le h hl)

theorem moved_of_blank {ls : List Text} (h : l ∈ ls)
    (hb : blank (moved (commonMargin ls) l) = true) : moved (commonMargin ls) l = [] := by
  rw [blank_iff_trimStart, trimStart_moved h, ← blank_iff_trimStart] at hb
  rw [moved, if_pos hb]

theorem newline_not_mem_moved {m : Nat} (h : '\n' ∉ l) : '\n' ∉ moved m l := by
  rw [moved]
  split
  · simp
  · exact fun hmem => h (List.mem_of_mem_drop hmem)

end Text

/-! Writing one level deep. -/

namespace Writer

/-- A writer behind the head of a block. -/
def within (out : Text) : Writer := { level := 1, output := out }

/-- The lines of a text, one level deep. -/
def inset (t : Text) : Text := (padded "    " true t).1 ++ ['\n']

/-- A line one level deep; a blank line becomes empty. -/
def insetLine (line : Text) : Text := if Text.blank line then [] else "    " ++ line

theorem padded_nil (atStart : Bool) (t : Text) : (padded [] atStart t).1 = t := by
  fun_induction padded [] atStart t with
  | case1 => rfl
  | case2 _ cs out atEnd hrest ih =>
    rw [hrest] at ih
    rw [← ih]
  | case3 atStart c cs hc out atEnd hrest ih =>
    rw [hrest] at ih
    cases atStart <;> simp [← ih]

theorem padded_of_newline_not_mem (pad : Text) {t : Text} (h : '\n' ∉ t) :
    (padded pad false t).1 = t := by
  induction t with
  | nil => rfl
  | cons c cs ih =>
    have hc : c ≠ '\n' := fun hc => h (hc ▸ List.mem_cons_self)
    have hcs : '\n' ∉ cs := fun hmem => h (List.mem_cons_of_mem c hmem)
    rw [padded]
    · simp [ih hcs]
    · exact hc

theorem inset_eq {t : Text} (h : '\n' ∉ t) (hb : Text.blank t = false) :
    inset t = insetLine t ++ ['\n'] := by
  cases t with
  | nil => simp [Text.blank] at hb
  | cons c cs =>
    have hc : c ≠ '\n' := fun hc => h (hc ▸ List.mem_cons_self)
    have hcs : '\n' ∉ cs := fun hmem => h (List.mem_cons_of_mem c hmem)
    rw [inset, insetLine, hb, if_neg (by simp), padded]
    · simp [padded_of_newline_not_mem _ hcs]
    · exact hc

theorem writeLine_within (out t : Text) : (within out).writeLine t = within (out ++ inset t) := by
  simp [writeLine, write, within, inset, padded]

theorem newLine_within (out : Text) : (within out).newLine = within (out ++ ['\n']) := rfl

theorem writeBlock_within (out t : Text) :
    (within out).writeBlock t =
      within (out ++ (t.lines.map insetLine).flatMap (· ++ ['\n'])) := by
  have hlines : ∀ l ∈ t.lines, '\n' ∉ l := fun l => Text.newline_not_mem_of_mem_lines
  rw [writeBlock]
  generalize t.lines = ls at hlines ⊢
  induction ls generalizing out with
  | nil => simp
  | cons l ls ih =>
    have hl := hlines l List.mem_cons_self
    have hls := fun l hmem => hlines l (List.mem_cons_of_mem _ hmem)
    rw [List.foldl_cons]
    cases hb : Text.blank l with
    | true =>
      rw [if_pos rfl, newLine_within, ih _ hls]
      simp [insetLine, hb]
    | false =>
      rw [if_neg (by simp), writeLine_within, inset_eq hl hb, ih _ hls]
      simp

/-- A writer at the left margin. -/
structure Flush (w : Writer) : Prop where
  unit : w.unit = "    "
  level : w.level = 0

namespace Flush

variable {w : Writer}

theorem writeLine (h : w.Flush) (t : Text) : (w.writeLine t).Flush := ⟨h.unit, h.level⟩

theorem newLine (h : w.Flush) : w.newLine.Flush := ⟨h.unit, h.level⟩

theorem separated (h : w.Flush) (separate : Bool) :
    (if separate then w.newLine else w).Flush := by
  split
  · exact h.newLine
  · exact h

theorem writeBlock (h : w.Flush) (t : Text) : (w.writeBlock t).Flush := by
  unfold Writer.writeBlock
  induction t.lines generalizing w with
  | nil => exact h
  | cons line rest ih =>
    rw [List.foldl_cons]
    apply ih
    split
    · exact h.newLine
    · exact h.writeLine line

/-- What is written into a block at the left margin, behind other output. -/
theorem output_block (h : w.Flush) (header : Text) (body : Writer → Writer) :
    (w.block header body).output = (body (within (w.output ++ (header ++ ":\n")))).output := by
  have hhead : { (w.write header).writeLine [':'] with level := w.level + 1 } =
      within (w.output ++ (header ++ ":\n")) := by
    simp only [write, Writer.writeLine, within, padded, h.unit, h.level, List.replicate_zero,
      List.flatten_nil, padded_nil]
    simp
  rw [block, hhead]

end Flush

theorem output_block (header : Text) (body : Writer → Writer) :
    (({} : Writer).block header body).output = (body (within (header ++ ":\n"))).output :=
  Flush.output_block ⟨rfl, rfl⟩ header body

theorem trimStart_insetLine (line : Text) :
    Text.trimStart (insetLine line) = Text.trimStart line := by
  rw [insetLine]
  cases hb : Text.blank line with
  | true => exact (Text.blank_iff_trimStart.1 hb).symm
  | false =>
    rw [if_neg (by simp)]
    exact Text.trimStart_append (by decide) line

theorem insetLine_of_blank {line : Text} (h : Text.blank (insetLine line) = true) :
    insetLine line = [] := by
  rw [Text.blank_iff_trimStart, trimStart_insetLine, ← Text.blank_iff_trimStart] at h
  rw [insetLine, if_pos h]

end Writer

end Offload
