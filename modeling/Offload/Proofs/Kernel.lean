import Offload.Proofs.Control
import Offload.Proofs.Origin
import Mathlib.Data.List.Forall2

/-!
Kernels against the loop bodies that they run. A kernel takes up the lines of the body in order, and
more where an atomic region reaches beyond the body; writing them down loses carriage returns at
line ends and an empty last line.
-/
namespace Offload

open Outcome

namespace Identifier

variable {c : Char}

/-- No blank is part of an identifier. -/
theorem isXidContinue_of_isBlank (h : isBlank c = true) : isXidContinue c = false :=
  unicode.blank c h

/-- The ASCII characters that are no part of an identifier. -/
def isSign (c : Char) : Bool := c.toNat < 128 && !(c.isAlphanum || c == '_')

theorem isXidContinue_of_isSign (h : isSign c = true) : isXidContinue c = false := by
  rw [isSign, Bool.and_eq_true, decide_eq_true_eq, Bool.not_eq_true'] at h
  rw [isXidContinue, (unicode.ascii c h.1).2, h.2]

theorem ne_of_isXidContinue {d : Char} (h : isXidContinue c = true) (hd : isSign d = true) :
    c ≠ d := by
  rintro rfl
  simp [isXidContinue_of_isSign hd] at h

theorem isXidContinue_underscore : isXidContinue '_' = true := (unicode.ascii '_' (by decide)).2

theorem isXidContinue_of_isXidStart (h : isXidStart c = true) : isXidContinue c = true :=
  unicode.follows_of_starts c h

theorem isXidContinue_of_isStart (h : isStart c = true) : isXidContinue c = true := by
  rcases Bool.or_eq_true_iff.1 h with hunderscore | hstart
  · rw [beq_iff_eq.1 hunderscore]
    exact isXidContinue_underscore
  · exact isXidContinue_of_isXidStart hstart

theorem isXidContinue_of_isIdentifier {name : Text} (h : isIdentifier name = true)
    (hc : c ∈ name) : isXidContinue c = true := by
  cases name with
  | nil => simp at hc
  | cons first rest =>
    rw [isIdentifier, Bool.and_eq_true, List.all_eq_true] at h
    rcases List.mem_cons.1 hc with rfl | hc
    · exact isXidContinue_of_isStart h.1
    · exact h.2 c hc

end Identifier

namespace Host

/-! The text of a kernel. -/

namespace Kernel

/-- The head of a kernel, with its parameters. -/
def head (k : Kernel) : Text :=
  "def " ++ k.name ++ "(" ++ Text.join ", " (k.captured ++ [indexName]) ++ ")" ++ ":\n"

/-- The head, and the lines that set the targets and the accumulators. -/
def opening (k : Kernel) : Text :=
  k.head ++ Writer.inset (targetPattern k.headers ++ " = " ++ indexName) ++
    k.reductions.flatMap fun r => Writer.inset (r.name ++ " = " ++ r.operator.identity)

/-- The lines of the loop body as they are written. -/
def printed (k : Kernel) : List Text := (Text.unlines k.body).lines.map Writer.insetLine

/-- The return at the end. -/
def closing (k : Kernel) : Text :=
  if (resultTuple k.reductions).isEmpty then []
  else Writer.inset ("return" ++ resultTuple k.reductions)

theorem foldl_writeLine (rs : List ReductionVar) (out : Text) :
    rs.foldl (fun w r => w.writeLine (r.name ++ " = " ++ r.operator.identity))
        (Writer.within out) =
      Writer.within
        (out ++ rs.flatMap fun r => Writer.inset (r.name ++ " = " ++ r.operator.identity)) := by
  induction rs generalizing out with
  | nil => simp
  | cons r rs ih => rw [List.foldl_cons, Writer.writeLine_within, ih, List.flatMap_cons,
      List.append_assoc]

theorem render_eq (k : Kernel) :
    k.render = k.opening ++ k.printed.flatMap (· ++ ['\n']) ++ k.closing := by
  simp only [render, Writer.output_block, Writer.writeLine_within, foldl_writeLine,
    Writer.writeBlock_within]
  unfold opening head printed closing
  cases hresult : resultTuple k.reductions with
  | nil => simp only [Writer.within, List.isEmpty_nil, if_true, List.append_nil]
  | cons c cs => simp only [Writer.within, List.isEmpty_cons, Bool.false_eq_true, if_false]

end Kernel

/-! Lines of a kernel and lines of the source. -/

/-- A line of a kernel stands for a line of the source: it is the same but for the indentation, and
empty if it is blank, or it is a return in the place of a `continue`. -/
inductive Renders (returned source line : Text) : Prop
  | kept (same : Text.trimStart line = Text.trimStart source)
    (bare : Text.blank line = true → line = [])
  | returns (jump : Text.trim source = "continue".toList)
    (same : Text.trimStart line = "return".toList ++ returned)

namespace Renders

variable {returned source line : Text}

theorem eq_nil_of_blank (h : Renders returned source line) (hb : Text.blank line = true) :
    line = [] := by
  cases h with
  | kept same bare => exact bare hb
  | returns jump same =>
    rw [Text.blank_iff_trimStart.1 hb] at same
    simp at same

theorem eq_nil_iff (h : Renders returned source line) : line = [] ↔ Text.blank source = true := by
  have hline : line = [] ↔ Text.trimStart line = [] := by
    rw [← Text.blank_iff_trimStart]
    exact ⟨fun hnil => hnil ▸ rfl, h.eq_nil_of_blank⟩
  rw [hline, Text.blank_iff_trimStart]
  cases h with
  | kept same bare => rw [same]
  | returns jump same =>
    have hsource : Text.trimStart source ≠ [] := by
      intro hnil
      rw [Text.trim_eq, hnil] at jump
      exact absurd jump (by decide)
    simp [same, hsource]

theorem insetLine (h : Renders returned source line) :
    Renders returned source (Writer.insetLine line) := by
  cases h with
  | kept same bare =>
    exact .kept (by rw [Writer.trimStart_insetLine, same]) Writer.insetLine_of_blank
  | returns jump same => exact .returns jump (by rw [Writer.trimStart_insetLine, same])

/-- A line that loses a carriage return at its end no longer stands for its source. -/
theorem not_chomp (h : Renders returned source line) (hreturned : returned.getLast? ≠ some '\r')
    (hline : line.getLast? = some '\r') :
    ¬ Renders returned source (Writer.insetLine (Text.chomp line)) := by
  have hsplit := Text.chomp_of_eq hline
  -- Something other than blanks stands before the carriage return.
  have hchomp : Text.blank (Text.chomp line) = false := by
    cases hb : Text.blank (Text.chomp line) with
    | false => rfl
    | true =>
      have hblank : Text.blank line = true := by rw [← Text.blank_chomp, hb]
      rw [h.eq_nil_of_blank hblank] at hline
      simp at hline
  have htrim : Text.trimStart line = Text.trimStart (Text.chomp line) ++ ['\r'] := by
    have happend := Text.dropWhile_append_of_not_blank hchomp ['\r']
    rwa [hsplit] at happend
  intro hless
  cases h with
  | kept same bare =>
    cases hless with
    | kept same' bare' =>
      rw [Writer.trimStart_insetLine, ← same, htrim] at same'
      simp at same'
    | returns jump same' =>
      obtain ⟨rest, hrest⟩ := Text.exists_trim_append source
      rw [Writer.trimStart_insetLine] at same'
      rw [← same, htrim, same', jump] at hrest
      simp at hrest
  | returns jump same =>
    have hlast : ("return".toList ++ returned).getLast? = some '\r' := by
      rw [← same, htrim, List.getLast?_concat]
    cases returned with
    | nil => exact absurd hlast (by decide)
    | cons c cs =>
      rw [List.getLast?_append_of_ne_nil _ (by simp)] at hlast
      exact hreturned hlast

end Renders

/-- What a line of a kernel looks like, given its origin. -/
structure Origin.Stands (s : Source) (returned : Text) (o : Origin) (line : Text) : Prop where
  single : '\n' ∉ line
  lock : o.line? = none → Text.trimStart line = "with ".toList ++ lockName ++ ":".toList
  own : ∀ l, o.line? = some l → Renders returned (s.textAt l) line

/-- The lines of a kernel that come from the source. -/
def ownLines (os : List Origin) (lines : List Text) : List Text :=
  ((os.zip lines).filter fun pair => pair.1.line?.isSome).map Prod.snd

section

variable {os : List Origin} {lines : List Text} {Q : Nat → Text → Prop}

theorem forall₂_ownLines (h : os.length = lines.length) :
    List.Forall₂ Q (os.filterMap Origin.line?) (ownLines os lines) ↔
      List.Forall₂ (fun o line => ∀ l, o.line? = some l → Q l line) os lines := by
  induction os generalizing lines with
  | nil =>
    obtain rfl : lines = [] := List.length_eq_zero_iff.1 h.symm
    simp [ownLines]
  | cons o os ih =>
    cases lines with
    | nil => simp at h
    | cons line lines =>
      have hrest := @ih lines (by simpa using h)
      cases hline : o.line? with
      | none => simpa [ownLines, hline] using hrest
      | some l => simp [ownLines, hline, ← hrest]

theorem length_ownLines (h : os.length = lines.length) :
    (ownLines os lines).length = (os.filterMap Origin.line?).length := by
  have htrue : List.Forall₂ (fun _ _ => True) (os.filterMap Origin.line?) (ownLines os lines) := by
    rw [forall₂_ownLines h, List.forall₂_iff_get]
    exact ⟨h, fun _ _ _ _ _ => trivial⟩
  exact htrue.length_eq.symm

/-- Without its last line, a list of lines gives the lines of the origins before it. -/
theorem ownLines_concat (h : os.length = lines.length) (o : Origin) :
    ownLines (os ++ [o]) lines = ownLines os lines := by
  have hzip : (os ++ [o]).zip (lines ++ []) = os.zip lines ++ [o].zip [] := List.zip_append h
  rw [List.append_nil, List.zip_nil_right, List.append_nil] at hzip
  rw [ownLines, hzip, ownLines]

/-- The own lines answer to consecutive numbers exactly if there are as many of them and each
answers to its own. -/
theorem forall₂_range'_ownLines {first n m : Nat} (h : os.length = lines.length)
    (hos : os.filterMap Origin.line? = List.range' first n) :
    List.Forall₂ Q (List.range' first m) (ownLines os lines) ↔
      m = n ∧ List.Forall₂ (fun o line => ∀ l, o.line? = some l → Q l line) os lines := by
  rw [← forall₂_ownLines h, hos]
  constructor
  · intro hall
    have hlength := hall.length_eq
    rw [length_ownLines h, hos, List.length_range', List.length_range'] at hlength
    exact ⟨hlength, hlength ▸ hall⟩
  · rintro ⟨rfl, hall⟩
    exact hall

end

/-! What a return gives back. -/

theorem isIdentifier_of_reductionsOf {d : Directive} {rs : List ReductionVar} {r : ReductionVar}
    (h : reductionsOf d = .ok rs) (hr : r ∈ rs) : isIdentifier r.name = true := by
  obtain ⟨r', -, hr'⟩ := exists_of_mem_mapM h hr
  split at hr'
  · next hname => exact Except.ok.inj hr' ▸ hname
  · simp at hr'

theorem not_mem_resultTuple {rs : List ReductionVar} {c : Char}
    (h : ∀ r ∈ rs, isIdentifier r.name = true) (hc : Identifier.isXidContinue c = false)
    (hsign : c ∉ " (),".toList) : c ∉ resultTuple rs := by
  have hname : ∀ r ∈ rs, c ∉ r.name := by
    intro r hr hmem
    simp [Identifier.isXidContinue_of_isIdentifier (h r hr) hmem] at hc
  simp only [String.reduceToList, List.mem_cons, List.not_mem_nil, not_or, or_false] at hsign
  unfold resultTuple
  split
  · simp
  · simpa [hsign] using hname
  · have hjoin : c ∉ Text.join ", " (rs.map ReductionVar.name) := by
      refine Text.not_mem_join (by simp [hsign]) fun name hmem => ?_
      obtain ⟨r, hr, rfl⟩ := List.mem_map.1 hmem
      exact hname r hr
    simpa [hsign] using hjoin

/-! The body of a kernel, line by line. -/

section

variable {s : Source} {returned : Text} {o : Origin} {line line' : Text} {before : List Text}

theorem Origin.trimStart_lock (h : o.line? = none) :
    Text.trimStart (o.text s) = "with ".toList ++ lockName ++ ":".toList := by
  cases o with
  | lock region =>
    rw [text, List.append_assoc, List.append_assoc, Text.trimStart_append (Text.blank_margin _)]
    rfl
  | own l locked => simp [line?] at h

theorem Origin.trimStart_own {l : Nat} (h : o.line? = some l) :
    Text.trimStart (o.text s) = Text.trimStart (s.textAt l) := by
  cases o with
  | lock region => simp [line?] at h
  | own l' locked =>
    obtain rfl := Option.some.inj h
    rw [text]
    cases locked with
    | true => exact Writer.trimStart_insetLine _
    | false => rfl

theorem Origin.newline_not_mem_text (h : ∀ i, '\n' ∉ s.textAt i) (o : Origin) :
    '\n' ∉ o.text s := by
  cases o with
  | lock region =>
    have hmargin : ∀ i, '\n' ∉ Text.margin (s.textAt i) := fun i hmem =>
      h i ((List.takeWhile_sublist _).subset hmem)
    simp only [text, List.mem_append, hmargin, false_or]
    decide
  | own l locked =>
    have hl := h l
    rw [text, Writer.insetLine]
    split
    · split <;> simp [hl]
    · exact hl

/-- A line that has been moved to the left goes into the function. -/
theorem Origin.stands_of_lineResult (hreturned : '\n' ∉ returned) (hsingle : '\n' ∉ line)
    (hsame : Text.trimStart line = Text.trimStart (o.text s))
    (hbare : Text.blank line = true → line = [])
    (h : lineResult returned before line = .ok line') : o.Stands s returned line' := by
  rcases eq_or_eq_of_lineResult h with rfl | ⟨hcontinue, rfl⟩
  · constructor
    · exact hsingle
    · intro hnone
      rw [hsame, trimStart_lock hnone]
    · intro l hl
      exact .kept (by rw [hsame, trimStart_own hl]) hbare
  · rw [Text.trim_eq, hsame] at hcontinue
    constructor
    · have hmargin : '\n' ∉ Text.margin line := fun hmem =>
        hsingle ((List.takeWhile_sublist _).subset hmem)
      simp [hmargin, hreturned]
    · intro hnone
      rw [trimStart_lock hnone] at hcontinue
      exact absurd hcontinue (by decide)
    · intro l hl
      rw [trimStart_own hl] at hcontinue
      refine .returns hcontinue ?_
      rw [List.append_assoc, Text.trimStart_append (Text.blank_margin line)]
      rfl

theorem forall₂_stands {tree : DirectiveTree} {nest : LoopNest} {stop : Nat} {body : List Text}
    (hwalk : Walked s tree nest stop) (hreturned : '\n' ∉ returned)
    (h : functionBody returned (kernelLines s tree nest) = .ok body) :
    List.Forall₂ (Origin.Stands s returned) (origins tree nest) body := by
  rw [kernelLines_eq hwalk, functionBody_eq_ok] at h
  obtain ⟨hlength, hresult⟩ := h
  rw [List.length_map, List.length_map] at hlength
  rw [List.forall₂_iff_get]
  refine ⟨hlength.symm, fun i h₁ h₂ => ?_⟩
  change (origins tree nest)[i].Stands s returned body[i]
  have hline := hresult i _ body[i]
    (by rw [List.getElem?_map, List.getElem?_map, List.getElem?_eq_getElem h₁]; rfl)
    (List.getElem?_eq_getElem h₂)
  have hmem : (origins tree nest)[i].text s ∈ (origins tree nest).map (Origin.text s) :=
    List.mem_map_of_mem (List.getElem_mem h₁)
  have htext := Origin.newline_not_mem_text hwalk.newline_not_mem (origins tree nest)[i]
  exact Origin.stands_of_lineResult hreturned (Text.newline_not_mem_moved htext)
    (Text.trimStart_moved hmem) (Text.moved_of_blank hmem) hline

theorem newline_not_mem_of_stands {os : List Origin} {lines : List Text}
    (h : List.Forall₂ (Origin.Stands s returned) os lines) : ∀ line ∈ lines, '\n' ∉ line := by
  intro line hmem
  obtain ⟨i, hi, rfl⟩ := List.getElem_of_mem hmem
  have hlength := h.length_eq
  exact ((List.forall₂_iff_get.1 h).2 i (by omega) hi).single

theorem Origin.Stands.chomp_iff (h : o.Stands s returned line)
    (hreturned : returned.getLast? ≠ some '\r') :
    (∀ l, o.line? = some l →
        Renders returned (s.textAt l) (Writer.insetLine (Text.chomp line))) ↔
      line.getLast? ≠ some '\r' := by
  cases ho : o.line? with
  | none =>
    have hend : line.getLast? = some ':' := by
      rw [← Text.margin_append_trimStart line, h.lock ho, List.getLast?_append_of_ne_nil]
      · rfl
      · simp
    simp [hend]
  | some l =>
    have hown := h.own l ho
    simp only [Option.some.injEq, forall_eq']
    constructor
    · intro hchomp hend
      exact hown.not_chomp hreturned hend hchomp
    · intro hend
      rw [Text.chomp_of_ne hend]
      exact hown.insetLine

/-- All lines but the last go through a line end when they are written. -/
theorem forall₂_chomp_iff {os : List Origin} {lines : List Text}
    (h : List.Forall₂ (Origin.Stands s returned) os lines)
    (hreturned : returned.getLast? ≠ some '\r') :
    List.Forall₂ (fun o line => ∀ l, o.line? = some l → Renders returned (s.textAt l) line) os
        (lines.map fun line => Writer.insetLine (Text.chomp line)) ↔
      ∀ line ∈ lines, line.getLast? ≠ some '\r' := by
  induction h with
  | nil => simp
  | cons ho _ ih => rw [List.map_cons, List.forall₂_cons, ih, ho.chomp_iff hreturned,
      List.forall_mem_cons]

end

theorem Kernel.printed_eq {k : Kernel} {init : List Text} {last : Text}
    (hbody : k.body = init ++ [last]) (hsingle : ∀ line ∈ k.body, '\n' ∉ line) :
    k.printed = (init.map fun line => Writer.insetLine (Text.chomp line)) ++
      if last = [] then [] else [Writer.insetLine last] := by
  have hinit : ∀ line ∈ init, '\n' ∉ line := fun line hmem =>
    hsingle line (hbody ▸ List.mem_append_left _ hmem)
  have hlast : '\n' ∉ last := hsingle last (hbody ▸ List.mem_append_right _ List.mem_cons_self)
  rw [printed, hbody, Text.lines_unlines hinit hlast, List.map_append, List.map_map]
  congr 1
  split <;> rfl

/-- The own lines of a kernel are the lines of the loop body. -/
def HoldsBody (s : Source) (tree : DirectiveTree) (nest : LoopNest) (kernel : Kernel) : Prop :=
  List.Forall₂ (Renders (resultTuple kernel.reductions)) (s.slice nest.body)
    (ownLines (origins tree nest) kernel.printed)

theorem forall₂_concat {α β : Type} {R : α → β → Prop} {as : List α} {bs : List β} {a : α} {b : β} :
    List.Forall₂ R (as ++ [a]) (bs ++ [b]) ↔ List.Forall₂ R as bs ∧ R a b := by
  rw [← List.forall₂_reverse_iff, List.reverse_concat, List.reverse_concat, List.forall₂_cons,
    List.forall₂_reverse_iff, and_comm]

/-- A kernel holds the body of its loop exactly if the walk over the body ends with it, up to an
empty last line, and no line end takes a carriage return with it. -/
theorem holdsBody_iff {s : Source} {tree : DirectiveTree} {nest : LoopNest} {kernel : Kernel}
    {stop : Nat} (hwalk : Walked s tree nest stop)
    (hstands : List.Forall₂ (Origin.Stands s (resultTuple kernel.reductions)) (origins tree nest)
      kernel.body)
    (hreturned : (resultTuple kernel.reductions).getLast? ≠ some '\r') :
    HoldsBody s tree nest kernel ↔
      (stop = nest.body.stop ∧ Text.blank (s.textAt (stop - 1)) = false ∨
        stop = nest.body.stop + 1 ∧ Text.blank (s.textAt (stop - 1)) = true) ∧
      ∀ line ∈ kernel.body.dropLast, line.getLast? ≠ some '\r' := by
  obtain ⟨init, locked, hinit⟩ := hwalk.last
  have hlines := hwalk.lines
  have hbody := hwalk.body
  have hle := hwalk.le
  rw [hinit] at hstands hlines
  obtain ⟨lines, last, hconcat⟩ : ∃ lines last, kernel.body = lines ++ [last] := by
    rcases List.eq_nil_or_concat' kernel.body with hnil | hconcat
    · have hlength := hstands.length_eq
      simp [hnil] at hlength
    · exact hconcat
  have hsingle := newline_not_mem_of_stands hstands
  rw [hconcat, forall₂_concat] at hstands
  obtain ⟨hrest, hlast⟩ := hstands
  have hown := hlast.own (stop - 1) rfl
  have hempty := hown.eq_nil_iff
  have hlength : init.length =
      (lines.map fun line => Writer.insetLine (Text.chomp line)).length := by
    rw [List.length_map]
    exact hrest.length_eq
  have hspan : nest.body.length = nest.body.stop - nest.body.start := rfl
  rw [HoldsBody, Source.slice_eq_map hwalk.size, List.forall₂_map_left_iff, Span.lines, hinit,
    Kernel.printed_eq hconcat hsingle, hconcat, List.dropLast_concat]
  by_cases hnil : last = []
  · have hblank := hempty.1 hnil
    have hbefore : init.filterMap Origin.line? =
        List.range' nest.body.start (stop - 1 - nest.body.start) := by
      have hcount : stop - nest.body.start = stop - 1 - nest.body.start + 1 := by omega
      rw [List.filterMap_append, hcount, List.range'_concat] at hlines
      exact (List.append_inj' hlines rfl).1
    rw [if_pos hnil, List.append_nil, ownLines_concat hlength,
      forall₂_range'_ownLines hlength hbefore, forall₂_chomp_iff hrest hreturned, hblank]
    have hstop : nest.body.length = stop - 1 - nest.body.start ↔ stop = nest.body.stop + 1 := by
      omega
    simp [hstop]
  · have hblank : Text.blank (s.textAt (stop - 1)) = false := by
      rw [← Bool.not_eq_true, ← hempty]
      exact hnil
    have hinset : ∀ l, (Origin.own (stop - 1) locked).line? = some l →
        Renders (resultTuple kernel.reductions) (s.textAt l) (Writer.insetLine last) := by
      intro l hl
      obtain rfl := Option.some.inj hl
      exact hown.insetLine
    rw [if_neg hnil, forall₂_range'_ownLines (by simp [hrest.length_eq]) hlines, forall₂_concat,
      forall₂_chomp_iff hrest hreturned, and_iff_left hinset, hblank]
    have hstop : nest.body.length = stop - nest.body.start ↔ stop = nest.body.stop := by
      omega
    simp [hstop]

/-- The kernels of a generated function are those of its changes. -/
theorem mem_kernels_iff {config : Config} {f : FunctionContext} {tree : DirectiveTree}
    {ids : List Nat} {target : Target} {text : Text}
    (hrun : run (poolSize config.gangs) tree (.ofContext f config.tabWidth config.entry) ids =
      .ok target) :
    text ∈ target.kernels ↔ ∃ nest kernel gangs, Change.moved nest kernel gangs ∈
      changesFrom (poolSize config.gangs) tree (.ofContext f config.tabWidth config.entry) ids ∧
      kernel.render = text := by
  have hnone : (Target.ofContext f config.tabWidth config.entry).kernels = [] := rfl
  rw [(differs_run hrun).kernels, hnone, List.nil_append, List.mem_filterMap]
  constructor
  · rintro ⟨c, hc, htext⟩
    cases c with
    | moved nest kernel gangs => exact ⟨nest, kernel, gangs, hc, Option.some.inj htext⟩
    | locked region => cases htext
  · rintro ⟨nest, kernel, gangs, hmoved, htext⟩
    exact ⟨_, hmoved, congrArg some htext⟩

/-- For every loop that is moved into a kernel: the kernel takes up the lines from the start of the
body to where the walk over it ends, and what it prints is the body of the loop exactly if the walk
ends with the body, up to an empty last line, and no line end takes a carriage return with it. -/
theorem kernel_holds_body_iff {config : Config} {f : FunctionContext} {tree : DirectiveTree}
    {ids : List Nat} {target : Target} {nest : LoopNest} {kernel : Kernel} {gangs : Nat}
    (hparse : (parse config f.source).outcome = .ok tree)
    (hrun : run (poolSize config.gangs) tree (.ofContext f config.tabWidth config.entry) ids =
      .ok target)
    (hmoved : .moved nest kernel gangs ∈ changesFrom (poolSize config.gangs) tree
      (.ofContext f config.tabWidth config.entry) ids) :
    kernel.render ∈ target.kernels ∧
      kernel.render = kernel.opening ++ kernel.printed.flatMap (· ++ ['\n']) ++ kernel.closing ∧
      ∃ stop, WalkStop tree nest stop ∧
        List.Forall₂ (Renders (resultTuple kernel.reductions))
          (target.source.slice ⟨nest.body.start, stop⟩)
          (ownLines (origins tree nest) kernel.body) ∧
        (HoldsBody target.source tree nest kernel ↔
          (stop = nest.body.stop ∧ Text.blank (target.source.textAt (stop - 1)) = false ∨
            stop = nest.body.stop + 1 ∧ Text.blank (target.source.textAt (stop - 1)) = true) ∧
          ∀ line ∈ kernel.body.dropLast, line.getLast? ≠ some '\r') := by
  obtain ⟨id, -, region, hmade⟩ := exists_made hmoved
  have hsource : target.source = .ofText config.tabWidth f.source := (differs_run hrun).source
  rw [hsource]
  obtain ⟨stop, hwalk⟩ := exists_walked hparse rfl hmade.found
  have hnames := fun r => isIdentifier_of_reductionsOf (r := r) hmade.reductions
  have hnewline := not_mem_resultTuple (c := '\n') hnames
    (Identifier.isXidContinue_of_isSign (by decide)) (by decide)
  have hreturn := not_mem_resultTuple (c := '\r') hnames
    (Identifier.isXidContinue_of_isSign (by decide)) (by decide)
  have hstands := forall₂_stands hwalk hnewline hmade.body
  refine ⟨?_, kernel.render_eq, stop, hwalk.toWalkStop, ?_, ?_⟩
  · exact (mem_kernels_iff hrun).2 ⟨nest, kernel, gangs, hmoved, rfl⟩
  · rw [Source.slice_eq_map hwalk.le_size, List.forall₂_map_left_iff, Span.lines]
    refine (forall₂_range'_ownLines hstands.length_eq hwalk.lines).2 ⟨rfl, ?_⟩
    exact hstands.imp fun o line h => h.own
  · exact holdsBody_iff hwalk hstands fun h => hreturn (List.mem_of_getLast? h)

/-- A function whose only change is the given one, with the parts of its kernel. -/
theorem exists_run_of_check (f : FunctionContext) (nest : LoopNest) (kernel : Kernel) (gangs : Nat)
    (parts : List Part)
    (h : ((parse {} f.source).outcome.toOption.any fun tree =>
      ((run (poolSize defaultGangs) tree (.ofContext f Source.defaultTabWidth Target.defaultEntry)
        tree.breadthFirst).toOption.any fun _ => true) &&
        changesOf {} f tree == [.moved nest kernel gangs] && kernelParts tree nest == parts) =
          true) :
    ∃ tree target, (parse {} f.source).outcome = .ok tree ∧
      run (poolSize defaultGangs) tree (.ofContext f Source.defaultTabWidth Target.defaultEntry)
        tree.breadthFirst = .ok target ∧
      target.source = .ofText Source.defaultTabWidth f.source ∧
      .moved nest kernel gangs ∈ changesOf {} f tree ∧ kernelParts tree nest = parts := by
  obtain ⟨tree, htree, hfacts⟩ := exists_of_any h
  simp only [Bool.and_eq_true, beq_iff_eq] at hfacts
  obtain ⟨⟨hrun, hchanges⟩, hparts⟩ := hfacts
  obtain ⟨target, htarget, -⟩ := exists_of_any hrun
  refine ⟨tree, target, htree, htarget, (differs_run htarget).source, ?_, hparts⟩
  rw [hchanges]
  exact List.mem_cons_self

/-- A loop with an atomic statement and a `continue`. -/
def guardedLoop : FunctionContext where
  source := Text.unlines ["# acc parallel loop reduction(+:s)", "for i in x:", "    # acc atomic",
    "    a[0] += i", "    if i:", "        continue", "    s += i"]

def guardedNest : LoopNest where
  headers := [⟨"i", "x"⟩]
  span := ⟨1, 7⟩
  body := ⟨2, 7⟩

def guardedKernel : Kernel where
  line := 0
  captured := []
  headers := guardedNest.headers
  reductions := [⟨.add, "s"⟩]
  body := ["# acc atomic", "with _acc_lock:", "    a[0] += i", "if i:", "    return s", "s += i"]

/-- An atomic region in markers that reaches from the body of the loop to behind it. -/
def spillingLoop : FunctionContext where
  source := Text.unlines ["# acc parallel loop", "for i in x:", "    # acc atomic", "    #\x7b",
    "    a[0] += i", "b[0] += 1", "#\x7d"]

def spillingNest : LoopNest where
  headers := [⟨"i", "x"⟩]
  span := ⟨1, 5⟩
  body := ⟨2, 5⟩

def spillingKernel : Kernel where
  line := 0
  captured := []
  headers := spillingNest.headers
  reductions := []
  body := ["# acc atomic", "#\x7b", "with _acc_lock:", "    a[0] += i", "b[0] += 1"]

/-- The first kernel holds the body of its loop; the second one also runs the line behind it. -/
theorem guardedLoop_held_spillingLoop_not_held :
    (∃ tree target, (parse {} guardedLoop.source).outcome = .ok tree ∧
      run (poolSize defaultGangs) tree (.ofContext guardedLoop Source.defaultTabWidth
        Target.defaultEntry) tree.breadthFirst = .ok target ∧
      .moved guardedNest guardedKernel 4 ∈ changesOf {} guardedLoop tree ∧
      HoldsBody target.source tree guardedNest guardedKernel) ∧
    ∃ tree target, (parse {} spillingLoop.source).outcome = .ok tree ∧
      run (poolSize defaultGangs) tree (.ofContext spillingLoop Source.defaultTabWidth
        Target.defaultEntry) tree.breadthFirst = .ok target ∧
      .moved spillingNest spillingKernel 4 ∈ changesOf {} spillingLoop tree ∧
      ¬ HoldsBody target.source tree spillingNest spillingKernel := by
  constructor
  · obtain ⟨tree, target, htree, htarget, hsource, hmoved, hparts⟩ := exists_run_of_check
      guardedLoop guardedNest guardedKernel 4
      [.line 2, .changed (.locked ⟨3, 4⟩), .line 4, .line 5, .line 6] (by decide +kernel)
    refine ⟨tree, target, htree, htarget, hmoved, ?_⟩
    obtain ⟨-, -, stop, hwalk, -, hiff⟩ := kernel_holds_body_iff htree htarget hmoved
    have hle : 7 ≤ stop := hwalk.le
    obtain rfl : stop = 7 := by
      rcases hwalk.attained with hstop | ⟨r, hr, hstop⟩
      · exact hstop
      · obtain rfl : r = ⟨3, 4⟩ := by simpa [hparts] using hr
        have : 4 = stop := hstop
        omega
    rw [hiff, hsource]
    exact ⟨.inl ⟨rfl, by decide +kernel⟩, by decide⟩
  · obtain ⟨tree, target, htree, htarget, hsource, hmoved, hparts⟩ := exists_run_of_check
      spillingLoop spillingNest spillingKernel 4 [.line 2, .line 3, .changed (.locked ⟨4, 6⟩)]
      (by decide +kernel)
    refine ⟨tree, target, htree, htarget, hmoved, ?_⟩
    obtain ⟨-, -, stop, hwalk, -, hiff⟩ := kernel_holds_body_iff htree htarget hmoved
    have hreach : 6 ≤ stop := hwalk.taken ⟨4, 6⟩ (by simp [hparts])
    rw [hiff, hsource]
    rintro ⟨⟨hstop, -⟩ | ⟨hstop, hblank⟩, -⟩
    · have : stop = 5 := hstop
      omega
    · obtain rfl : stop = 6 := hstop
      exact absurd hblank (by decide +kernel)

end Host
end Offload
