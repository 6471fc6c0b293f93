import Offload.Proofs.Origin
import Offload.Proofs.Tiling
import Mathlib.Data.List.Basic

/-!
The entry function. Lines of the body that no patch replaces are printed once and in order, moved
from their common margin to a margin of four spaces. This goes for lines inside block literals as
well, which changes what the literals hold.
-/
namespace Offload

open Outcome

/-! Carriage returns. -/

namespace Text

variable {t : Text}

/-- A text that starts itself with a character in front holds no other character. -/
theorem eq_of_append_eq_cons {a : Char} {u v : Text} (h : t ++ u = a :: t ++ v) :
    ∀ b ∈ t, b = a := by
  induction t with
  | nil => simp
  | cons c cs ih =>
    simp only [List.cons_append, List.cons.injEq] at h
    obtain ⟨rfl, hcs⟩ := h
    intro b hb
    rcases List.mem_cons.1 hb with rfl | hb
    · rfl
    · exact ih hcs b hb

/-- Only a blank line can lose a carriage return at its end and be the end of itself again. -/
theorem blank_of_append_chomp {u v : Text} (hend : t.getLast? = some '\r')
    (h : u ++ chomp t = v ++ t) : blank t = true := by
  have hreverse : (chomp t).reverse ++ u.reverse = '\r' :: (chomp t).reverse ++ v.reverse := by
    have hlast : t.reverse = '\r' :: (chomp t).reverse := by
      rw [← List.reverse_concat, chomp_of_eq hend]
    rw [← List.reverse_append, h, List.reverse_append, hlast]
  have hall := eq_of_append_eq_cons hreverse
  rw [← blank_chomp, blank, List.all_eq_true]
  intro c hc
  rw [hall c (List.mem_reverse.2 hc)]
  decide

end Text

namespace Writer

variable {line : Text} {m : Nat}

theorem insetLine_moved (hsolid : Text.blank line = false) (hm : m ≤ Text.leadingSpaces line) :
    insetLine (Text.moved m line) = "    " ++ line.drop m := by
  have hrest : Text.blank (line.drop m) = false := (Text.blank_drop hm).trans hsolid
  rw [Text.moved, hsolid, if_neg (by simp), insetLine, hrest, if_neg (by simp)]

theorem insetLine_chomp_moved (hsolid : Text.blank line = false)
    (hm : m ≤ Text.leadingSpaces line) :
    insetLine (Text.chomp (Text.moved m line)) = "    " ++ Text.chomp (line.drop m) := by
  have hrest : Text.blank (Text.chomp (line.drop m)) = false := by
    rw [Text.blank_chomp, Text.blank_drop hm, hsolid]
  rw [Text.moved, hsolid, if_neg (by simp), insetLine, hrest, if_neg (by simp)]

end Writer

/-! Lines of a body with their numbers. -/

namespace PatchedBody

variable {b : PatchedBody} {s : Source} {l m : Nat} {line : Text}

/-- The lines of the body that no patch replaces. -/
def keptLines (b : PatchedBody) : List Nat :=
  (List.range' b.span.start b.span.length).filter fun l => !b.isPatched l

/-- The lines of a piece. A line that has been kept is marked with its number. -/
def Piece.marked (s : Source) : Piece → List (Option Nat × Text)
  | kept line => [(some line, s.textAt line)]
  | patched p => p.lines.map (none, ·)

def marked (b : PatchedBody) (s : Source) : List (Option Nat × Text) :=
  (walk b.patches b.span.start b.span.stop).flatMap (Piece.marked s)

theorem Sound.map_snd_marked (h : b.Sound) (s : Source) :
    (b.marked s).map Prod.snd = b.render s := by
  rw [h.render_eq_walk, marked, List.map_flatMap]
  congr 1
  funext piece
  cases piece <;> simp [Piece.marked, Piece.lines, Function.comp_def]

theorem Sound.filterMap_fst_marked (h : b.Sound) (s : Source) :
    (b.marked s).filterMap Prod.fst = b.keptLines := by
  have hkept := h.kept_walk h.clear_first rfl
  rw [keptLines, Span.length, ← hkept, marked, List.filterMap_flatMap]
  induction walk b.patches b.span.start b.span.stop with
  | nil => rfl
  | cons piece pieces ih =>
    rw [List.flatMap_cons, ih]
    cases piece with
    | kept l => rfl
    | patched p =>
      have hnone : (Piece.marked s (.patched p)).filterMap Prod.fst = [] := by simp [Piece.marked]
      rw [hnone]
      rfl

theorem eq_textAt_of_mem_marked (h : (some l, line) ∈ b.marked s) : line = s.textAt l := by
  obtain ⟨piece, -, hpiece⟩ := List.mem_flatMap.1 h
  cases piece with
  | kept l' => simp_all [Piece.marked]
  | patched p => simp [Piece.marked] at hpiece

/-! Printing. -/

/-- What is printed for a line that others follow. -/
def printInner (m : Nat) (e : Option Nat × Text) : List (Option Nat × Text) :=
  (Text.moved m e.2 ++ ['\n']).lines.map fun line => (e.1, Writer.insetLine line)

/-- What is printed for the last line. -/
def printLast (m : Nat) (e : Option Nat × Text) : List (Option Nat × Text) :=
  (Text.moved m e.2).lines.map fun line => (e.1, Writer.insetLine line)

/-- The lines that are printed, with the marks of the lines that they are printed for. -/
def printMarked (m : Nat) (es : List (Option Nat × Text)) : List (Option Nat × Text) :=
  es.dropLast.flatMap (printInner m) ++ es.getLast?.toList.flatMap (printLast m)

theorem printMarked_concat (m : Nat) (init : List (Option Nat × Text)) (last : Option Nat × Text) :
    printMarked m (init ++ [last]) = init.flatMap (printInner m) ++ printLast m last := by
  simp [printMarked]

/-- Apart from the marks, these are the lines of the body joined, split again and put one level
deep. -/
theorem map_snd_printMarked (m : Nat) (es : List (Option Nat × Text)) :
    (printMarked m es).map Prod.snd =
      (Text.unlines ((es.map Prod.snd).map (Text.moved m))).lines.map Writer.insetLine := by
  rcases List.eq_nil_or_concat' es with rfl | ⟨init, last, rfl⟩
  · rfl
  · rw [printMarked_concat]
    induction init with
    | nil => simp [printLast, Text.unlines, Text.join, Function.comp_def]
    | cons e init ih =>
      obtain ⟨next, rest, hrest⟩ := List.exists_cons_of_ne_nil
        (show ((init ++ [last]).map Prod.snd).map (Text.moved m) ≠ [] by simp)
      rw [hrest] at ih
      rw [List.flatMap_cons, List.append_assoc, List.map_append, ih, List.cons_append,
        List.map_cons, List.map_cons, hrest, Text.unlines_cons_cons, Text.lines_append_line,
        List.map_append]
      simp [printInner, Function.comp_def]

/-- The lines of the entry function for a body, with their marks. -/
def printed (b : PatchedBody) (s : Source) : List (Option Nat × Text) :=
  printMarked (Text.commonMargin (b.render s)) (b.marked s)

theorem Sound.map_snd_printed (h : b.Sound) (s : Source) :
    (b.printed s).map Prod.snd =
      (Text.unlines (Text.unindent (b.render s))).lines.map Writer.insetLine := by
  rw [printed, map_snd_printMarked, h.map_snd_marked, Text.unindent_eq]

theorem printInner_kept (h : '\n' ∉ line) :
    printInner m (some l, line) =
      [(some l, Writer.insetLine (Text.chomp (Text.moved m line)))] := by
  rw [printInner, Text.lines_append_newline (Text.newline_not_mem_moved h)]
  rfl

theorem printLast_kept (h : '\n' ∉ line)
    (hm : Text.blank line = false → m ≤ Text.leadingSpaces line) :
    printLast m (some l, line) =
      if Text.blank line then [] else [(some l, Writer.insetLine (Text.moved m line))] := by
  rw [printLast]
  cases hblank : Text.blank line with
  | true =>
    rw [Text.moved, hblank]
    rfl
  | false =>
    have hne : Text.moved m line ≠ [] := by
      intro hnil
      have hdrop := Text.blank_drop (hm hblank)
      rw [Text.moved, hblank, if_neg (by simp)] at hnil
      rw [hnil, hblank] at hdrop
      exact absurd hdrop (by decide)
    rw [Text.lines_of_newline_not_mem (Text.newline_not_mem_moved h) hne]
    rfl

/-- The lines that have been kept fill one line each, and are not left of the margin. -/
def Fit (m : Nat) (es : List (Option Nat × Text)) : Prop :=
  ∀ l line, (some l, line) ∈ es →
    '\n' ∉ line ∧ (Text.blank line = false → m ≤ Text.leadingSpaces line)

theorem mem_printInner {es : List (Option Nat × Text)} {e : Option Nat × Text} (h : Fit m es)
    (he : e ∈ es) :
    (some l, line) ∈ printInner m e ↔
      ∃ text, e = (some l, text) ∧ line = Writer.insetLine (Text.chomp (Text.moved m text)) := by
  obtain ⟨mark, text⟩ := e
  cases mark with
  | none => simp [printInner]
  | some l' =>
    rw [printInner_kept (h l' text he).1]
    simp only [List.mem_singleton, Prod.mk.injEq, Option.some.injEq]
    constructor
    · rintro ⟨rfl, rfl⟩
      exact ⟨text, ⟨rfl, rfl⟩, rfl⟩
    · rintro ⟨_, ⟨rfl, rfl⟩, rfl⟩
      exact ⟨rfl, rfl⟩

theorem mem_printLast {es : List (Option Nat × Text)} {e : Option Nat × Text} (h : Fit m es)
    (he : e ∈ es) :
    (some l, line) ∈ printLast m e ↔ ∃ text, e = (some l, text) ∧ Text.blank text = false ∧
      line = Writer.insetLine (Text.moved m text) := by
  obtain ⟨mark, text⟩ := e
  cases mark with
  | none => simp [printLast]
  | some l' =>
    obtain ⟨hsingle, hm⟩ := h l' text he
    rw [printLast_kept hsingle hm]
    cases hblank : Text.blank text with
    | true => simp [hblank]
    | false =>
      simp only [Bool.false_eq_true, if_false, List.mem_singleton, Prod.mk.injEq,
        Option.some.injEq]
      constructor
      · rintro ⟨rfl, rfl⟩
        exact ⟨text, ⟨rfl, rfl⟩, hblank, rfl⟩
      · rintro ⟨_, ⟨rfl, rfl⟩, -, rfl⟩
        exact ⟨rfl, rfl⟩

theorem filterMap_fst_printInner {es : List (Option Nat × Text)} (h : Fit m es) :
    (es.flatMap (printInner m)).filterMap Prod.fst = es.filterMap Prod.fst := by
  induction es with
  | nil => rfl
  | cons e es ih =>
    have hrest := ih fun l line hmem => h l line (List.mem_cons_of_mem _ hmem)
    rw [List.flatMap_cons, List.filterMap_append, hrest]
    obtain ⟨mark, line⟩ := e
    cases mark with
    | none =>
      have hnone : (printInner m (none, line)).filterMap Prod.fst = [] := by simp [printInner]
      rw [hnone]
      rfl
    | some l =>
      rw [printInner_kept (h l line List.mem_cons_self).1]
      rfl

/-- All lines are printed but a blank one at the end. -/
theorem filterMap_fst_printMarked {es : List (Option Nat × Text)} (h : Fit m es) :
    (printMarked m es).filterMap Prod.fst = es.filterMap Prod.fst ↔
      ∀ e ∈ es.getLast?, e.1.isSome = true → Text.blank e.2 = false := by
  rcases List.eq_nil_or_concat' es with rfl | ⟨init, ⟨mark, line⟩, rfl⟩
  · simp [printMarked]
  · have hinit : Fit m init := fun l line hmem => h l line (List.mem_append_left _ hmem)
    rw [printMarked_concat, List.filterMap_append, List.filterMap_append,
      filterMap_fst_printInner hinit, List.append_cancel_left_eq, List.getLast?_concat]
    cases mark with
    | none => simp [printLast]
    | some l =>
      obtain ⟨hsingle, hm⟩ := h l line (by simp)
      rw [printLast_kept hsingle hm]
      cases hblank : Text.blank line <;> simp [hblank]

/-- What holds of all printed lines, said of the lines that they are printed for. -/
theorem forall_printMarked_iff {es : List (Option Nat × Text)} {P : Nat → Text → Prop}
    (h : Fit m es) :
    (∀ l line, (some l, line) ∈ printMarked m es → P l line) ↔
      (∀ l text, (some l, text) ∈ es.dropLast →
        P l (Writer.insetLine (Text.chomp (Text.moved m text)))) ∧
      ∀ l text, es.getLast? = some (some l, text) → Text.blank text = false →
        P l (Writer.insetLine (Text.moved m text)) := by
  rcases List.eq_nil_or_concat' es with rfl | ⟨init, last, rfl⟩
  · simp [printMarked]
  · have hinit : ∀ e ∈ init, e ∈ init ++ [last] := fun e => List.mem_append_left _
    have hlast : last ∈ init ++ [last] := by simp
    rw [printMarked_concat, List.dropLast_concat, List.getLast?_concat]
    constructor
    · intro hall
      constructor
      · intro l text hmem
        refine hall l _ (List.mem_append_left _ (List.mem_flatMap.2 ⟨_, hmem, ?_⟩))
        exact (mem_printInner h (hinit _ hmem)).2 ⟨text, rfl, rfl⟩
      · intro l text hsome hsolid
        refine hall l _ (List.mem_append_right _ ?_)
        exact (mem_printLast h hlast).2 ⟨text, Option.some.inj hsome, hsolid, rfl⟩
    · rintro ⟨hinner, hend⟩ l line hmem
      rcases List.mem_append.1 hmem with hmem | hmem
      · obtain ⟨e, he, hmem⟩ := List.mem_flatMap.1 hmem
        obtain ⟨text, rfl, rfl⟩ := (mem_printInner h (hinit e he)).1 hmem
        exact hinner l text he
      · obtain ⟨text, rfl, hsolid, rfl⟩ := (mem_printLast h hlast).1 hmem
        exact hend l text rfl hsolid

end PatchedBody

/-! What it means for a line to be kept. -/

/-- A printed line stands for a line of the source: it is the same inside a block literal; elsewhere
it has four spaces in the place of the margin, and it is blank if the line is. -/
inductive KeptAs (margin : Text) (inLiteral : Bool) (source line : Text) : Prop
  | literal (inside : inLiteral = true) (same : line = source)
  | code (outside : inLiteral = false) (solid : Text.blank source = false) (rest : Text)
    (source_eq : source = margin ++ rest) (line_eq : line = "    " ++ rest)
  | blank (outside : inLiteral = false) (source_blank : Text.blank source = true)
    (line_blank : Text.blank line = true)

namespace KeptAs

variable {margin source : Text} {inLiteral : Bool} {m : Nat}

/-- The text behind the four spaces is the end of the source line. -/
theorem exists_append {rest : Text} (hsolid : Text.blank source = false)
    (h : KeptAs margin inLiteral source ("    " ++ rest)) : ∃ front, front ++ rest = source := by
  cases h with
  | literal inside same => exact ⟨_, same⟩
  | code outside solid rest' source_eq line_eq =>
    obtain rfl := List.append_cancel_left line_eq
    exact ⟨margin, source_eq.symm⟩
  | blank outside source_blank line_blank => simp [hsolid] at source_blank

theorem iff_of_solid (hsolid : Text.blank source = false) (hm : m ≤ Text.leadingSpaces source) :
    KeptAs margin inLiteral source ("    " ++ source.drop m) ↔
      (inLiteral = true → m = 4) ∧ (inLiteral = false → margin = Text.spaces m) := by
  have hsource := Text.spaces_append_drop hm
  constructor
  · intro h
    cases h with
    | literal inside same =>
      have hlength : List.length source - m + 4 = m + (List.length source - m) := by
        simpa [Text.spaces] using congrArg List.length (same.trans hsource.symm)
      exact ⟨fun _ => by omega, by simp [inside]⟩
    | code outside solid rest source_eq line_eq =>
      obtain rfl := List.append_cancel_left line_eq
      have hmargin := List.append_cancel_right (source_eq.symm.trans hsource.symm)
      exact ⟨by simp [outside], fun _ => hmargin⟩
    | blank outside source_blank line_blank => simp [hsolid] at source_blank
  · rintro ⟨hin, hout⟩
    cases inLiteral with
    | true =>
      obtain rfl := hin rfl
      exact .literal rfl hsource
    | false => exact .code rfl hsolid (source.drop m) (by rw [hout rfl, hsource]) rfl

/-- A line that has lost a carriage return at its end does not stand for its source. -/
theorem chomp_iff_of_solid (hsolid : Text.blank source = false)
    (hm : m ≤ Text.leadingSpaces source) :
    KeptAs margin inLiteral source ("    " ++ Text.chomp (source.drop m)) ↔
      source.getLast? ≠ some '\r' ∧
        (inLiteral = true → m = 4) ∧ (inLiteral = false → margin = Text.spaces m) := by
  have hsource := Text.spaces_append_drop hm
  have hrest : Text.blank (source.drop m) = false := (Text.blank_drop hm).trans hsolid
  have hne : source.drop m ≠ [] := by
    intro hnil
    simp [hnil, Text.blank] at hrest
  have hlast : (source.drop m).getLast? = source.getLast? := by
    conv_rhs => rw [← hsource]
    exact (List.getLast?_append_of_ne_nil _ hne).symm
  by_cases hend : source.getLast? = some '\r'
  · have hnot : ¬ KeptAs margin inLiteral source ("    " ++ Text.chomp (source.drop m)) := by
      intro h
      obtain ⟨front, hfront⟩ := h.exists_append hsolid
      have hblank := Text.blank_of_append_chomp (hlast.trans hend) (hfront.trans hsource.symm)
      simp [hrest] at hblank
    exact iff_of_false hnot fun hright => hright.1 hend
  · rw [Text.chomp_of_ne (hlast.symm ▸ hend), iff_of_solid hsolid hm]
    simp [hend]

theorem nil_iff_of_blank (hblank : Text.blank source = true) :
    KeptAs margin inLiteral source [] ↔ (inLiteral = true → source = []) := by
  constructor
  · rintro h inside
    cases h with
    | literal _ same => exact same.symm
    | code outside => simp [inside] at outside
    | blank outside => simp [inside] at outside
  · intro h
    cases inLiteral with
    | true => exact .literal rfl (h rfl).symm
    | false => exact .blank rfl hblank rfl

/-- A line that others follow is kept, or its last character is lost, or it is changed inside a
literal. -/
theorem inner_iff (hm : Text.blank source = false → m ≤ Text.leadingSpaces source) :
    KeptAs margin inLiteral source (Writer.insetLine (Text.chomp (Text.moved m source))) ↔
      (Text.blank source = true → inLiteral = true → source = []) ∧
        (Text.blank source = false → source.getLast? ≠ some '\r' ∧
          (inLiteral = true → m = 4) ∧ (inLiteral = false → margin = Text.spaces m)) := by
  cases hblank : Text.blank source with
  | true =>
    have hnil : Writer.insetLine (Text.chomp (Text.moved m source)) = [] := by
      rw [Text.moved, hblank]
      rfl
    rw [hnil, nil_iff_of_blank hblank]
    simp
  | false =>
    rw [Writer.insetLine_chomp_moved hblank (hm hblank), chomp_iff_of_solid hblank (hm hblank)]
    simp

end KeptAs

/-! The body as a whole. -/

namespace PatchedBody

variable {b : PatchedBody} {s : Source}

/-- The lines that no patch replaces are printed once and in order, and stand for themselves. -/
def KeepsLines (b : PatchedBody) (s : Source) : Prop :=
  (b.printed s).filterMap Prod.fst = b.keptLines ∧
    ∃ margin, Text.blank margin = true ∧ ∀ l line, (some l, line) ∈ b.printed s →
      KeptAs margin (s.has Line.inString l) (s.textAt l) line

/-- The last line comes from a patch, or it is not blank. -/
@[reducible] def EndsSolid (b : PatchedBody) (s : Source) : Prop :=
  ∀ e ∈ (b.marked s).getLast?, e.1.isSome = true → Text.blank e.2 = false

/-- No line of code that others follow ends in a carriage return, patches apart. -/
@[reducible] def FreeOfReturns (b : PatchedBody) (s : Source) : Prop :=
  ∀ e ∈ (b.marked s).dropLast, e.1.isSome = true → Text.blank e.2 = false →
    e.2.getLast? ≠ some '\r'

/-- A line inside a block literal is empty, or it is not blank and the common margin of all lines is
that of the entry function. -/
@[reducible] def LiteralsInPlace (b : PatchedBody) (s : Source) : Prop :=
  ∀ l ∈ b.keptLines, s.has Line.inString l = true →
    s.textAt l = [] ∨ Text.blank (s.textAt l) = false ∧ Text.commonMargin (b.render s) = 4

theorem mem_keptLines_iff (h : b.Sound) {l : Nat} :
    l ∈ b.keptLines ↔ (some l, s.textAt l) ∈ b.marked s := by
  rw [← h.filterMap_fst_marked s, List.mem_filterMap]
  constructor
  · rintro ⟨⟨mark, line⟩, hmem, hmark⟩
    obtain rfl : mark = some l := hmark
    rwa [← eq_textAt_of_mem_marked hmem]
  · intro hmem
    exact ⟨_, hmem, rfl⟩

theorem Sound.fit_marked (h : b.Sound) (hsingle : ∀ l, '\n' ∉ s.textAt l) :
    Fit (Text.commonMargin (b.render s)) (b.marked s) := by
  intro l line hmem
  have hline := eq_textAt_of_mem_marked hmem
  have hrender : line ∈ b.render s := by
    rw [← h.map_snd_marked s]
    exact List.mem_map_of_mem hmem
  exact ⟨hline ▸ hsingle l, fun hsolid => Text.commonMargin_le hrender hsolid⟩

theorem mem_dropLast_or_getLast? {α : Type} {es : List α} {e : α} (h : e ∈ es) :
    e ∈ es.dropLast ∨ es.getLast? = some e := by
  rcases List.eq_nil_or_concat' es with rfl | ⟨init, last, rfl⟩
  · simp at h
  · rw [List.dropLast_concat, List.getLast?_concat]
    rcases List.mem_append.1 h with h | h
    · exact .inl h
    · exact .inr (by rw [List.mem_singleton.1 h])

theorem keepsLines_iff (h : b.Sound) (hsingle : ∀ l, '\n' ∉ s.textAt l) :
    b.KeepsLines s ↔ b.EndsSolid s ∧ b.FreeOfReturns s ∧ b.LiteralsInPlace s := by
  have hfit := h.fit_marked hsingle
  have hinner : ∀ {e}, e ∈ (b.marked s).dropLast → e ∈ b.marked s := (List.dropLast_subset _ ·)
  have hend : ∀ {e}, (b.marked s).getLast? = some e → e ∈ b.marked s := List.mem_of_getLast?
  unfold KeepsLines printed LiteralsInPlace
  rw [← h.filterMap_fst_marked s, filterMap_fst_printMarked hfit, h.filterMap_fst_marked s]
  generalize Text.commonMargin (b.render s) = m at hfit ⊢
  refine and_congr_right fun hlast => ?_
  constructor
  · rintro ⟨margin, -, hall⟩
    obtain ⟨hall, hallEnd⟩ := (forall_printMarked_iff hfit).1 hall
    have hkept : ∀ l line, (some l, line) ∈ (b.marked s).dropLast →
        (Text.blank line = true → s.has Line.inString l = true → line = []) ∧
          (Text.blank line = false → line.getLast? ≠ some '\r' ∧
            (s.has Line.inString l = true → m = 4) ∧
            (s.has Line.inString l = false → margin = Text.spaces m)) := by
      intro l line hmem
      rw [← KeptAs.inner_iff (hfit l line (hinner hmem)).2]
      have hline := hall l line hmem
      rwa [← eq_textAt_of_mem_marked (hinner hmem)] at hline
    constructor
    · rintro ⟨mark, line⟩ hmem hmark hsolid
      obtain ⟨l, rfl⟩ := Option.isSome_iff_exists.1 hmark
      exact ((hkept l line hmem).2 hsolid).1
    · intro l hl hinside
      have hmem := (mem_keptLines_iff (s := s) h).1 hl
      have hm := (hfit l _ hmem).2
      rcases mem_dropLast_or_getLast? hmem with hmem | hmem
      · cases hblank : Text.blank (s.textAt l) with
        | true => exact .inl ((hkept l _ hmem).1 hblank hinside)
        | false => exact .inr ⟨rfl, ((hkept l _ hmem).2 hblank).2.1 hinside⟩
      · have hsolid := hlast _ hmem rfl
        have hline := hallEnd l _ hmem hsolid
        rw [Writer.insetLine_moved hsolid (hm hsolid), KeptAs.iff_of_solid hsolid (hm hsolid)]
          at hline
        exact .inr ⟨hsolid, hline.1 hinside⟩
  · rintro ⟨hreturn, hliteral⟩
    -- What the condition on literals says of a line of the body.
    have hinside : ∀ l line, (some l, line) ∈ b.marked s → s.has Line.inString l = true →
        line = [] ∨ Text.blank line = false ∧ m = 4 := by
      intro l line hmem hin
      obtain rfl := eq_textAt_of_mem_marked hmem
      exact hliteral l ((mem_keptLines_iff h).2 hmem) hin
    have hfour : ∀ l line, (some l, line) ∈ b.marked s → Text.blank line = false →
        s.has Line.inString l = true → m = 4 := by
      intro l line hmem hsolid hin
      rcases hinside l line hmem hin with rfl | hfour
      · simp [Text.blank] at hsolid
      · exact hfour.2
    refine ⟨Text.spaces m, ?_, (forall_printMarked_iff hfit).2 ⟨?_, ?_⟩⟩
    · exact Text.blank_spaces m
    · intro l line hmem
      rw [← eq_textAt_of_mem_marked (hinner hmem), KeptAs.inner_iff (hfit l line (hinner hmem)).2]
      constructor
      · intro hblank hin
        rcases hinside l line (hinner hmem) hin with hnil | ⟨hsolid, -⟩
        · exact hnil
        · simp [hsolid] at hblank
      · intro hsolid
        exact ⟨hreturn _ hmem rfl hsolid, hfour l line (hinner hmem) hsolid, fun _ => rfl⟩
    · intro l line hmem hsolid
      have hm := (hfit l line (hend hmem)).2 hsolid
      rw [← eq_textAt_of_mem_marked (hend hmem), Writer.insetLine_moved hsolid hm,
        KeptAs.iff_of_solid hsolid hm]
      exact ⟨hfour l line (hend hmem) hsolid, fun _ => rfl⟩

end PatchedBody

/-! The whole module. -/

namespace Target

variable {t : Target} {f : FunctionContext}

/-- The head of the entry function. -/
def entryHead (t : Target) (f : FunctionContext) : Text :=
  "def " ++ t.entry ++ "(" ++ Text.join ", " f.parameters ++ ")" ++ ":\n"

/-- The entry function has no code of its own. -/
def entryTail (t : Target) : Text :=
  if (Text.unindent (t.body.render t.source)).all isIdle then "    pass\n" else []

theorem output_writeEntry (h : t.body.Sound) {w : Writer} (hw : w.Flush) :
    (t.writeEntry f w).output =
      w.output ++ t.entryHead f ++ (t.body.printed t.source).flatMap (·.2 ++ ['\n']) ++
        t.entryTail := by
  have hprinted : (t.body.printed t.source).flatMap (·.2 ++ ['\n']) =
      ((Text.unlines (Text.unindent (t.body.render t.source))).lines.map
        Writer.insetLine).flatMap (· ++ ['\n']) := by
    rw [← h.map_snd_printed, List.flatMap_map]
  have hpass : Writer.inset "pass" = "    pass\n".toList := by decide
  unfold writeEntry entryHead entryTail
  rw [hprinted, hw.output_block, Writer.writeBlock_within]
  split
  · rw [Writer.writeLine_within, hpass]
    rfl
  · rw [List.append_nil]
    rfl

/-- The entry function is written at the left margin, behind all else. -/
theorem exists_finalize_eq (t : Target) (f : FunctionContext) :
    ∃ w : Writer, w.Flush ∧ t.finalize f = (t.writeEntry f w).output := by
  unfold finalize
  refine ⟨_, ?_, rfl⟩
  apply Writer.Flush.separated
  refine List.foldlRecOn (motive := fun parts : Writer × Bool => parts.1.Flush) _ _ ?_ ?_
  · refine List.foldlRecOn (motive := Writer.Flush) _ _ ⟨rfl, rfl⟩ ?_
    intro w hw line _
    exact hw.writeLine line
  · intro parts hparts part _
    exact (hparts.separated parts.2).writeBlock _

end Target

namespace Host

/-- The target from which the code of a function is written. -/
def Generates (config : Config) (f : FunctionContext) (target : Target) : Prop :=
  ∃ tree, (parse config f.source).outcome = .ok tree ∧
    ((backend config.gangs).dispatch tree
      (.ofContext f config.tabWidth config.entry)).outcome = .ok target

theorem Generates.eq {config : Config} {f : FunctionContext} {target target' : Target}
    (h : Generates config f target) (h' : Generates config f target') : target = target' := by
  obtain ⟨tree, hparse, hdispatch⟩ := h
  obtain ⟨tree', hparse', hdispatch'⟩ := h'
  obtain rfl := Except.ok.inj (hparse.symm.trans hparse')
  exact Except.ok.inj (hdispatch.symm.trans hdispatch')

/-- The entry function holds the body line by line. The lines that no rewrite covers are kept as
they should be if and only if the last line is not a blank one among them, no other line of code
ends in a carriage return, and text inside block literals is empty or has the margin of the entry
function already. -/
theorem untouched_lines_kept_iff {config : Config} {f : FunctionContext} {code : Text}
    (h : (compile config f).outcome = .ok code) :
    ∃ target front, Generates config f target ∧
      target.source = .ofText config.tabWidth f.source ∧
      target.body.span = ⟨min f.bodyStart target.source.size, target.source.size⟩ ∧
      code = front ++ target.entryHead f ++
        (target.body.printed target.source).flatMap (·.2 ++ ['\n']) ++ target.entryTail ∧
      (target.body.KeepsLines target.source ↔ target.body.EndsSolid target.source ∧
        target.body.FreeOfReturns target.source ∧ target.body.LiteralsInPlace target.source) := by
  obtain ⟨tree, target, hparse, htarget, rfl⟩ := compile_eq_ok.1 h
  have hrun := htarget
  rw [outcome_dispatch] at hrun
  have hdiffers := differs_run hrun
  have hsource : target.source = .ofText config.tabWidth f.source := hdiffers.source
  have hsound : target.body.Sound := hdiffers.sound (PatchedBody.Sound.empty _)
  have hspan : target.body.span = ⟨min f.bodyStart target.source.size, target.source.size⟩ := by
    rw [hdiffers.span, hsource]
    rfl
  have hsingle : ∀ l, '\n' ∉ target.source.textAt l := by
    rw [hsource]
    exact Source.newline_not_mem_textAt config.tabWidth f.source
  obtain ⟨w, hw, hfinalize⟩ := target.exists_finalize_eq f
  refine ⟨target, w.output, ⟨tree, hparse, htarget⟩, hsource, hspan, ?_,
    PatchedBody.keepsLines_iff hsound hsingle⟩
  rw [hfinalize, Target.output_writeEntry hsound hw]

theorem exists_generates_of_check (f : FunctionContext) {P : Target → Prop} [DecidablePred P]
    (h : ((parse {} f.source).outcome.toOption.any fun tree =>
      ((backend defaultGangs).dispatch tree (.ofContext f Source.defaultTabWidth
        Target.defaultEntry)).outcome.toOption.any fun target => decide (P target)) = true) :
    ∃ code target, (compile {} f).outcome = .ok code ∧ Generates {} f target ∧ P target := by
  obtain ⟨tree, hparse, h⟩ := exists_of_any h
  obtain ⟨target, hdispatch, hp⟩ := exists_of_any h
  exact ⟨target.finalize f, target, compile_eq_ok.2 ⟨tree, target, hparse, hdispatch, rfl⟩,
    ⟨tree, hparse, hdispatch⟩, of_decide_eq_true hp⟩

/-- A block literal with a line at the left margin. -/
def flushLiteral : FunctionContext where
  source := Text.unlines ["def f():", "    s = \"\"\"", "a", "    \"\"\"", "    return s"]

/-- A block literal at the margin of the body, and a loop that is moved into a kernel. -/
def insetLiteral : FunctionContext where
  source := Text.unlines ["def f(x, a):", "    s = \"\"\"", "    b", "    \"\"\"",
    "    # acc parallel loop", "    for i in x:", "        a[i] = s", "", "    return a"]

theorem flushLiteral_changed_insetLiteral_kept :
    (∃ code target, (compile {} flushLiteral).outcome = .ok code ∧
      Generates {} flushLiteral target ∧ ¬ target.body.KeepsLines target.source) ∧
    ∃ code target, (compile {} insetLiteral).outcome = .ok code ∧
      Generates {} insetLiteral target ∧ target.body.isPatched 5 = true ∧
        target.body.KeepsLines target.source := by
  constructor
  · obtain ⟨code, target, hcode, hgenerates, hline⟩ := exists_generates_of_check flushLiteral
      (P := fun target => 2 ∈ target.body.keptLines ∧ target.source.has Line.inString 2 = true ∧
        target.source.textAt 2 = "a" ∧
        Text.commonMargin (target.body.render target.source) = 0) (by decide +kernel)
    obtain ⟨target', -, hgenerates', -, -, -, hiff⟩ := untouched_lines_kept_iff hcode
    obtain rfl := hgenerates.eq hgenerates'
    refine ⟨code, target, hcode, hgenerates, ?_⟩
    rw [hiff]
    rintro ⟨-, -, hliteral⟩
    obtain ⟨hkept, hinside, htext, hmargin⟩ := hline
    rcases hliteral 2 hkept hinside with hnil | ⟨-, hfour⟩
    · simp [htext] at hnil
    · omega
  · obtain ⟨code, target, hcode, hgenerates, hpatched, hright⟩ :=
      exists_generates_of_check insetLiteral
      (P := fun target => target.body.isPatched 5 = true ∧ target.body.EndsSolid target.source ∧
        target.body.FreeOfReturns target.source ∧ target.body.LiteralsInPlace target.source)
      (by decide +kernel)
    obtain ⟨target', -, hgenerates', -, -, -, hiff⟩ := untouched_lines_kept_iff hcode
    obtain rfl := hgenerates.eq hgenerates'
    exact ⟨code, target, hcode, hgenerates, hpatched, hiff.2 hright⟩

end Host

end Offload
