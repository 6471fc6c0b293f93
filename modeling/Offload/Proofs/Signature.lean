import Offload.Proofs.Parameter
import Offload.Proofs.Spanning

/-!
Signatures that are written down and read again. The parameters of a definition, their annotations
and their defaults are told apart by counting brackets, and literals are not known. They are kept as
they were written exactly if their brackets, those in literals too, close what they open and the
separators stand inside them.
-/
namespace Offload

namespace Signature

open Text

/-! A definition. -/

/-- The text of a definition up to its parameters. -/
def opening (margin name : Text) : Text := margin ++ ("def " ++ (name ++ ['(']))

/-- The text of a definition up to the closing parenthesis. -/
def definitionText (margin name : Text) (ps : List Parameter) : Text :=
  opening margin name ++ (join "," (ps.map Parameter.text) ++ [')'])

/-- The parameters that stand between the parentheses. -/
def readParameters (inner : Text) : List Text :=
  ((inner.splitOutside ',').map parameter).filter fun p => !p.isEmpty

section

variable {ordinary : Char → Bool} {noted given : List (Bool × Text)} {ps : List Parameter}
  {margin name : Text}

theorem parse?_opening (hmargin : blank margin = true) (hname : isIdentifier name = true)
    (rest : Text) :
    parse? (opening margin name ++ rest) =
      (beforeClose? 1 rest).map fun inner => (name, readParameters inner) := by
  have hne := ne_nil_of_isIdentifier hname
  have hsolid : ∀ c ∈ name, isBlank c = false := fun c hc => isBlank_of_mem_identifier hname hc
  have hstart : trimStart (opening margin name ++ rest) = "def " ++ (name ++ '(' :: rest) := by
    rw [opening, List.append_assoc, trimStart_append hmargin, List.append_assoc,
      List.append_assoc]
    exact List.dropWhile_cons_of_neg (by decide)
  have hasync : after? "async " ("def " ++ (name ++ '(' :: rest)) = none := rfl
  have hdef : after? "def " ("def " ++ (name ++ '(' :: rest)) = some (name ++ '(' :: rest) := rfl
  have htitle : trimStart (name ++ '(' :: rest) = name ++ '(' :: rest := by
    obtain ⟨c, cs, rfl⟩ := List.exists_cons_of_ne_nil hne
    exact List.dropWhile_cons_of_neg (by simp [hsolid c])
  have hparen : '(' ∉ name := Countable.sign_not_mem_of_isIdentifier hname (by decide)
  have hcut := cut?_append hparen rest
  simp only [parse?, hstart, hasync, Option.getD_none, hdef, Option.bind_eq_bind, Option.bind_some,
    htitle, hcut, trim_of_solid hne hsolid]
  cases beforeClose? 1 rest <;> rfl

/-- Parameters that counting brackets keeps apart are read one by one. -/
theorem readParameters_join (hps : ∀ p ∈ ps, p.Proper ordinary noted given)
    (hnotes : ∀ p ∈ ps, p.NoteSealed) (hdefaults : ∀ p ∈ ps, p.DefaultSealed) :
    readParameters (join "," (ps.map Parameter.text)) = ps.map Parameter.kept ∧
      Sealed [] 0 (join "," (ps.map Parameter.text)) := by
  cases ps with
  | nil => exact ⟨rfl, sealed_nil.2 rfl⟩
  | cons first more =>
    have hpieces : ∀ piece ∈ (first :: more).map Parameter.text, Sealed [','] 0 piece := by
      intro piece hpiece
      obtain ⟨p, hp, rfl⟩ := List.mem_map.1 hpiece
      exact (hps p hp).sealed_text (hnotes p hp) (hdefaults p hp)
    obtain ⟨hsplit, hsealed⟩ := splitOutside_join_sealed (by simp) hpieces
    refine ⟨?_, hsealed⟩
    have hread : ((first :: more).map Parameter.text).map parameter =
        (first :: more).map Parameter.kept := by
      rw [List.map_map]
      exact List.map_congr_left fun p hp => (hps p hp).parameter_text (hnotes p hp)
    rw [readParameters, hsplit, hread, List.filter_eq_self]
    intro t ht
    obtain ⟨p, hp, rfl⟩ := List.mem_map.1 ht
    simp [Parameter.kept, (hps p hp).title_ne_nil]

/-- Defaults that are read as they were written are sealed. -/
theorem defaultSealed_of_parse? {rest : Text} (hmargin : blank margin = true)
    (hname : isIdentifier name = true) (hps : ∀ p ∈ ps, p.Proper ordinary noted given)
    (h : parse? (opening margin name ++ rest) = some (name, ps.map Parameter.kept)) :
    ∀ p ∈ ps, p.DefaultSealed := by
  intro p hp t ht
  rw [parse?_opening hmargin hname, Option.map_eq_some_iff] at h
  obtain ⟨inner, hinner, hread⟩ := h
  have hsealed := (beforeClose?_eq_some_iff.1 hinner).1
  have hkept : p.kept ∈ readParameters inner := by
    rw [(Prod.mk.inj hread).2]
    exact List.mem_map_of_mem hp
  obtain ⟨piece, hpiece, heq⟩ := List.mem_map.1 (List.mem_filter.1 hkept).1
  have hpieces : Sealed [','] 0 piece := by
    obtain ⟨first, more, hsplit⟩ := exists_splitAtDepth ',' 0 inner
    obtain ⟨hfirst, hmore⟩ := sealed_of_splitAtDepth rfl rfl hsealed hsplit
    rw [splitOutside, hsplit] at hpiece
    rcases List.mem_cons.1 hpiece with rfl | hmem
    · exact hfirst
    · exact hmore piece hmem
  rw [Parameter.kept, ht] at heq
  have hproper := hps p hp
  have hplain : ∀ c ∈ p.title, isOpening c = false ∧ isClosing c = false := fun c hc =>
    hproper.plain_front c (by simp [Parameter.front, hc])
  have hmark : '=' ∉ p.title := hproper.not_mem_title (by decide)
  have htrimmed : Sealed [','] 0 (trim t) := sealed_of_parameter hpieces hplain hmark heq
  exact (sealed_trim (List.forall_mem_singleton.2 rfl)).1 htrimmed

/-- A beginning of the definition that stops before its closing parenthesis is not read. -/
theorem parse?_iff_of_sealed {statement behind : Text} (hmargin : blank margin = true)
    (hname : isIdentifier name = true) (hps : ∀ p ∈ ps, p.Proper ordinary noted given)
    (hnotes : ∀ p ∈ ps, p.NoteSealed) (hdefaults : ∀ p ∈ ps, p.DefaultSealed)
    (hopening : opening margin name <+: statement)
    (hstatement : statement <+: definitionText margin name ps ++ behind) :
    parse? statement = some (name, ps.map Parameter.kept) ↔
      definitionText margin name ps <+: statement := by
  obtain ⟨rest, rfl⟩ := hopening
  obtain ⟨hread, hsealed⟩ := readParameters_join hps hnotes hdefaults
  rw [definitionText, List.append_assoc, List.prefix_append_right_inj] at hstatement
  rw [definitionText, List.prefix_append_right_inj, parse?_opening hmargin hname,
    Option.map_eq_some_iff]
  generalize join "," (ps.map Parameter.text) = inner at hread hsealed hstatement ⊢
  constructor
  · rintro ⟨inner', hinner, -⟩
    obtain ⟨hsealed', c, rest, rfl, hclose⟩ := beforeClose?_eq_some_iff.1 hinner
    obtain ⟨more, hmore⟩ := hstatement
    rw [List.append_assoc, List.append_assoc] at hmore
    obtain ⟨rfl, hend⟩ := hsealed'.eq_of_append hsealed hclose (by decide) hmore
    obtain ⟨rfl, -⟩ := List.cons.inj hend
    exact ⟨rest, by simp⟩
  · rintro ⟨more, rfl⟩
    refine ⟨inner, beforeClose?_eq_some_iff.2 ⟨hsealed, ')', more, by simp, by decide⟩, ?_⟩
    rw [hread]

/-! Reading over the lines of a definition. -/

theorem leads_marked {separators : Text} {mark : Char} {part : Option Text} {rest : Text}
    {literals : List (Bool × Text)} (hordinary : ordinary '#' = false)
    (hlines : ∀ l ∈ literals, EndsOnLine l.2)
    (hmark : (isOpening mark = false ∧ isClosing mark = false) ∧ mark ≠ '#' ∧ isQuote mark = false)
    (h : ∀ t, part = some t → ∃ used, (∀ l ∈ used, l ∈ literals) ∧
      Closed (Parameter.admits ordinary separators) false used t)
    (hrest : ∀ c, rest.head? = some c → isQuote c = false) :
    Lexer.Leads 1 rest ⟨.code, 1, 0⟩ (marked mark part) ⟨.code, 1, 0⟩ := by
  cases part with
  | none => exact .nil (Nat.le_refl 1)
  | some t =>
    obtain ⟨used, hused, hclosed⟩ := h t rfl
    refine .of_step (Nat.le_refl 1) (Lexer.step_code hmark.2.1 hmark.2.2 1 _) ?_
    rw [bracketStep_of_plain hmark.1.1 hmark.1.2]
    refine Lexer.leads_closed hclosed ?_ (fun l hl => hlines l (hused l hl)) hrest (Nat.le_refl 1)
    intro inside
    simp [Parameter.admits, hordinary]

theorem leads_text {p : Parameter} {rest : Text} (h : p.Proper ordinary noted given)
    (hordinary : ordinary '#' = false) (hnoted : ∀ l ∈ noted, EndsOnLine l.2)
    (hgiven : ∀ l ∈ given, EndsOnLine l.2)
    (hrest : ∀ c, rest.head? = some c → isQuote c = false) :
    Lexer.Leads 1 rest ⟨.code, 1, 0⟩ p.text ⟨.code, 1, 0⟩ := by
  have hdefault : Lexer.Leads 1 rest ⟨.code, 1, 0⟩ (marked '=' p.default?) ⟨.code, 1, 0⟩ :=
    leads_marked hordinary hgiven (by decide) (fun t ht => (h.default t ht).2) hrest
  have hnote : Lexer.Leads 1 (marked '=' p.default? ++ rest) ⟨.code, 1, 0⟩
      (marked ':' p.note?) ⟨.code, 1, 0⟩ := by
    refine leads_marked hordinary hnoted (by decide) h.note fun c hc => ?_
    cases hpart : p.default? with
    | none => exact hrest c (by rwa [hpart] at hc)
    | some t =>
      rw [hpart] at hc
      obtain rfl := Option.some.inj hc
      decide
  have hcode : ∀ c ∈ p.front, c ≠ '#' ∧ isQuote c = false := fun c hc =>
    (plain_of_isNameText (h.isNameText_front c hc)).2
  exact (Lexer.leads_plain (Nat.le_refl 1) h.plain_front hcode).append (hnote.append hdefault)

theorem leads_join {rest : Text} (hps : ∀ p ∈ ps, p.Proper ordinary noted given)
    (hordinary : ordinary '#' = false) (hnoted : ∀ l ∈ noted, EndsOnLine l.2)
    (hgiven : ∀ l ∈ given, EndsOnLine l.2)
    (hrest : ∀ c, rest.head? = some c → isQuote c = false) :
    Lexer.Leads 1 rest ⟨.code, 1, 0⟩ (join "," (ps.map Parameter.text)) ⟨.code, 1, 0⟩ := by
  induction ps with
  | nil => exact .nil (Nat.le_refl 1)
  | cons p more ih =>
    obtain ⟨hp, hmore⟩ := List.forall_mem_cons.1 hps
    cases more with
    | nil =>
      have hjoin : join "," ([p].map Parameter.text) = p.text := by simp [join]
      rw [hjoin]
      exact leads_text hp hordinary hnoted hgiven hrest
    | cons next more =>
      have hjoin : join "," ((p :: next :: more).map Parameter.text) =
          p.text ++ ',' :: join "," ((next :: more).map Parameter.text) := by
        rw [List.map_cons, List.map_cons, join_cons_cons, List.append_assoc]
        rfl
      rw [hjoin]
      refine (leads_text hp hordinary hnoted hgiven fun c hc => ?_).append ?_
      · obtain rfl := Option.some.inj hc
        decide
      · exact .of_step (Nat.le_refl 1) (Lexer.step_code (by decide) (by decide) 1 _) (ih hmore)

theorem bareName_kept {p : Parameter} (h : p.Proper ordinary noted given) :
    bareName p.kept = p.name := by
  have htitle : ∀ c ∈ p.title, (c != '=') = true := by
    intro c hc
    rw [bne_iff_ne]
    rintro rfl
    exact h.not_mem_title (by decide) hc
  have htake : p.kept.takeWhile (· != '=') = p.title := by
    rw [Parameter.kept, List.takeWhile_append_of_pos htitle]
    cases p.default? <;> simp [marked]
  have hname : p.name.dropWhile (· == '*') = p.name := by
    obtain ⟨c, cs, hcons⟩ := List.exists_cons_of_ne_nil (ne_nil_of_isIdentifier h.name)
    have hne : c ≠ '*' := by
      rintro rfl
      have hstar : '*' ∉ p.name := Countable.sign_not_mem_of_isIdentifier h.name (by decide)
      exact hstar (by simp [hcons])
    rw [hcons]
    exact List.dropWhile_cons_of_neg (by simp [hne])
  rw [bareName, htake, h.trim_title, Parameter.title, List.dropWhile_append_of_pos ?_, hname]
  intro c hc
  simp [List.eq_of_mem_replicate hc]

end

/-- The first definition of a source is the given one, and it starts on the given line. -/
structure Defines (source : Text) (line : Nat) (margin name : Text) (ps : List Parameter) :
    Prop where
  first : (Source.ofText Source.defaultTabWidth source).definition? = some line
  indented : blank margin = true ∧ '\n' ∉ margin
  named : isIdentifier name = true
  text : ∃ behind, unlines (source.lines.drop line) = definitionText margin name ps ++ behind

/-- The statement that starts on the given line reaches to the closing parenthesis. -/
def Reached (source : Text) (line : Nat) (margin name : Text) (ps : List Parameter) : Prop :=
  definitionText margin name ps <+:
    (Source.ofText Source.defaultTabWidth source).statementText line

/-- The source is read as a function with the given name and parameters. -/
def ReadAs (source name : Text) (ps : List Parameter) : Prop :=
  ∃ f, FunctionContext.ofSource source = .ok f ∧ f.name = name ∧
    f.parameters = ps.map Parameter.kept ∧ f.bareParameters = ps.map Parameter.name

section

variable {ordinary : Char → Bool} {noted given : List (Bool × Text)} {ps : List Parameter}
  {source margin name : Text} {line : Nat}

/-- What is read depends on the text of one statement. -/
theorem ofSource_eq (h : (Source.ofText Source.defaultTabWidth source).definition? = some line) :
    FunctionContext.ofSource source =
      ((parse? ((Source.ofText Source.defaultTabWidth source).statementText line)).map
        fun read => { source, name := read.1, parameters := read.2 }).elim
          (.error (.malformed line .malformedSignature)) .ok := by
  simp only [FunctionContext.ofSource, h, Source.statementText]
  cases parse? _ <;> rfl

theorem readAs_iff (hdef : Defines source line margin name ps)
    (hps : ∀ p ∈ ps, p.Proper ordinary noted given) :
    ReadAs source name ps ↔
      parse? ((Source.ofText Source.defaultTabWidth source).statementText line) =
        some (name, ps.map Parameter.kept) := by
  rw [ReadAs, ofSource_eq hdef.first]
  cases parse? ((Source.ofText Source.defaultTabWidth source).statementText line) with
  | none => simp
  | some read =>
    obtain ⟨name', parameters⟩ := read
    constructor
    · rintro ⟨f, hf, rfl, hparameters, -⟩
      obtain rfl := Except.ok.inj hf
      exact congrArg (fun parameters => some (name', parameters)) hparameters
    · intro h
      obtain ⟨rfl, rfl⟩ := Prod.mk.inj (Option.some.inj h)
      refine ⟨_, rfl, rfl, rfl, ?_⟩
      have hnames : (ps.map Parameter.kept).map bareName = ps.map Parameter.name := by
        rw [List.map_map]
        exact List.map_congr_left fun p hp => bareName_kept (hps p hp)
      rw [FunctionContext.bareParameters, hnames, List.filter_eq_self]
      intro t ht
      obtain ⟨p, hp, rfl⟩ := List.mem_map.1 ht
      have hslash : p.name ≠ ['/'] := by
        intro heq
        have hmem : '/' ∈ p.name := by simp [heq]
        exact Countable.sign_not_mem_of_isIdentifier (hps p hp).name (by decide) hmem
      simp [ne_nil_of_isIdentifier (hps p hp).name, hslash]

/-- A definition starts a statement. -/
theorem Defines.starts (hdef : Defines source line margin name ps) :
    line < (Source.ofText Source.defaultTabWidth source).size ∧
      (Source.ofText Source.defaultTabWidth source).has Line.continuation line = false := by
  have hhas := (Source.findFrom?_eq_some_iff.1 hdef.first).2.1
  obtain ⟨l, hl, hdefines⟩ := Source.has_eq_true.1 hhas
  refine ⟨Source.lt_size_of_has hhas, ?_⟩
  simp only [Source.definesFunction, Line.startsStatement, Bool.and_eq_true,
    Bool.not_eq_true'] at hdefines
  rw [Source.has_of_getElem? hl]
  exact hdefines.1.2

theorem Defines.newline_not_mem (hdef : Defines source line margin name ps) :
    '\n' ∉ opening margin name := by
  have hname : '\n' ∉ name := Countable.sign_not_mem_of_isIdentifier hdef.named (by decide)
  simp [opening, hdef.indented.2, hname]

/-- The statement begins with the opening of the definition and stops somewhere behind it. -/
theorem Defines.statementText (hdef : Defines source line margin name ps) :
    opening margin name <+: (Source.ofText Source.defaultTabWidth source).statementText line ∧
      ∃ behind, (Source.ofText Source.defaultTabWidth source).statementText line <+:
        definitionText margin name ps ++ behind := by
  obtain ⟨hline, hfresh⟩ := hdef.starts
  obtain ⟨behind, htext⟩ := hdef.text
  constructor
  · rw [definitionText, List.append_assoc] at htext
    exact Source.statementText_of_line hline hfresh htext hdef.newline_not_mem
  · refine ⟨behind, ?_⟩
    rw [← htext]
    rcases Source.unlines_drop_cases hline hfresh with hall | ⟨more, heq, -⟩
    · exact ⟨[], by rw [hall, List.append_nil]⟩
    · exact ⟨_, heq.symm⟩

theorem Defines.run_opening (hdef : Defines source line margin name ps) (rest : Text) :
    Lexer.run {} rest (opening margin name) = ⟨.code, 1, 0⟩ := by
  have htext : ∀ c ∈ margin ++ ("def " ++ name), isNameText c = true := by
    intro c hc
    rw [List.mem_append, List.mem_append] at hc
    rcases hc with hmargin | hword | hname
    · simp [isNameText, List.all_eq_true.1 hdef.indented.1 c hmargin]
    · have hall : ("def ".toList.all fun c => isBlank c || Countable.isNameRest c) = true := by
        decide
      rcases Bool.or_eq_true_iff.1 (List.all_eq_true.1 hall c hword) with hblank | hrest
      · simp [isNameText, hblank]
      · simp [isNameText, Countable.isXidContinue_of_isNameRest hrest]
    · simp [isNameText, Identifier.isXidContinue_of_isIdentifier hdef.named hname]
  have hplain : Lexer.Leads 0 (['('] ++ rest) ⟨.code, 0, 0⟩ (margin ++ ("def " ++ name))
      ⟨.code, 0, 0⟩ :=
    Lexer.leads_plain (Nat.le_refl 0) (fun c hc => (plain_of_isNameText (htext c hc)).1)
      fun c hc => (plain_of_isNameText (htext c hc)).2
  have hopening : opening margin name = margin ++ ("def " ++ name) ++ ['('] := by simp [opening]
  rw [hopening, Lexer.run_append]
  exact congrArg (fun s : Lexer => s.step '(' rest) hplain.run_eq

theorem Defines.reached (hdef : Defines source line margin name ps)
    (hps : ∀ p ∈ ps, p.Proper ordinary noted given)
    (h : '\n' ∉ definitionText margin name ps ∨
      ordinary '#' = false ∧ ∀ l ∈ noted ++ given, EndsOnLine l.2) :
    Reached source line margin name ps := by
  obtain ⟨hline, hfresh⟩ := hdef.starts
  obtain ⟨behind, htext⟩ := hdef.text
  rcases h with hone | ⟨hordinary, hlines⟩
  · exact Source.statementText_of_line hline hfresh htext hone
  · obtain ⟨hnoted, hgiven⟩ := List.forall_mem_append.1 hlines
    rw [definitionText, List.append_assoc, List.append_assoc] at htext
    have hleads : Lexer.Leads 1 (')' :: behind) ⟨.code, 1, 0⟩ (join "," (ps.map Parameter.text))
        ⟨.code, 1, 0⟩ := by
      refine leads_join hps hordinary hnoted hgiven fun c hc => ?_
      obtain rfl := Option.some.inj hc
      decide
    rw [← hdef.run_opening (join "," (ps.map Parameter.text) ++ ')' :: behind)] at hleads
    exact Source.statementText_of_leads hline hfresh htext hdef.newline_not_mem (by decide) hleads

theorem noteSealed_of_unmistaken (hps : ∀ p ∈ ps, p.Proper ordinary noted given)
    (h : ∀ l ∈ noted, Unmistaken [',', '='] l.1 l.2) : ∀ p ∈ ps, p.NoteSealed := by
  intro p hp t ht
  obtain ⟨literals, hliterals, hclosed⟩ := (hps p hp).note t ht
  exact Parameter.sealed_of_admits (plain_of_all (by decide)) hclosed
    fun l hl => h l (hliterals l hl)

theorem defaultSealed_of_unmistaken (hps : ∀ p ∈ ps, p.Proper ordinary noted given)
    (h : ∀ l ∈ given, Unmistaken [','] l.1 l.2) : ∀ p ∈ ps, p.DefaultSealed := by
  intro p hp t ht
  obtain ⟨-, literals, hliterals, hclosed⟩ := (hps p hp).default t ht
  exact Parameter.sealed_of_admits (plain_of_all (by decide)) hclosed
    fun l hl => h l (hliterals l hl)

/-- A definition whose annotations are sealed is read with all its parameters and their defaults
exactly if its statement reaches to the closing parenthesis and the defaults are sealed, and never
without the latter. Where literals hold no bracket and, outside brackets, no separator, annotations
and defaults are sealed. The parenthesis is reached by a definition on one line, and by one without
comments whose single-quoted literals end on their lines. -/
theorem parameters_kept_iff_sealed (hdef : Defines source line margin name ps)
    (hps : ∀ p ∈ ps, p.Proper ordinary noted given) :
    ((∀ p ∈ ps, p.NoteSealed) → (ReadAs source name ps ↔
      Reached source line margin name ps ∧ ∀ p ∈ ps, p.DefaultSealed)) ∧
    (ReadAs source name ps → ∀ p ∈ ps, p.DefaultSealed) ∧
    ((∀ l ∈ noted, Unmistaken [',', '='] l.1 l.2) → ∀ p ∈ ps, p.NoteSealed) ∧
    ((∀ l ∈ given, Unmistaken [','] l.1 l.2) → ∀ p ∈ ps, p.DefaultSealed) ∧
    (('\n' ∉ definitionText margin name ps ∨
      ordinary '#' = false ∧ ∀ l ∈ noted ++ given, EndsOnLine l.2) →
        Reached source line margin name ps) := by
  obtain ⟨hopening, behind, hbehind⟩ := hdef.statementText
  have hneeds : ReadAs source name ps → ∀ p ∈ ps, p.DefaultSealed := by
    intro hread
    rw [readAs_iff hdef hps] at hread
    obtain ⟨rest, hrest⟩ := hopening
    rw [← hrest] at hread
    exact defaultSealed_of_parse? hdef.indented.1 hdef.named hps hread
  refine ⟨fun hnotes => ?_, hneeds, noteSealed_of_unmistaken hps,
    defaultSealed_of_unmistaken hps, hdef.reached hps⟩
  have hreads : (∀ p ∈ ps, p.DefaultSealed) →
      (ReadAs source name ps ↔ Reached source line margin name ps) := by
    intro hdefaults
    rw [readAs_iff hdef hps]
    exact parse?_iff_of_sealed hdef.indented.1 hdef.named hps hnotes hdefaults hopening hbehind
  constructor
  · intro hread
    have hdefaults := hneeds hread
    exact ⟨(hreads hdefaults).1 hread, hdefaults⟩
  · rintro ⟨hreached, hdefaults⟩
    exact (hreads hdefaults).2 hreached

/-- A definition on two lines, and one with a comma in a literal. -/
def spread : List Parameter :=
  [⟨[], 0, "a", [], some " list[int] ", some " [1, 2]"⟩, ⟨"\n      ", 2, "kw", [], none, none⟩]

def spreadSource : Text := unlines ["def f(a: list[int] = [1, 2],", "      **kw):", "    return a"]

def lone : List Parameter := [⟨[], 0, "a", [], none, some "','"⟩]

def loneSource : Text := unlines ["def f(a=','):", "    return a"]

/-- Commas inside brackets belong to a parameter, and one in a literal outside them does not. -/
theorem spread_read_lone_split : ReadAs spreadSource "f" spread ∧ ¬ ReadAs loneSource "f" lone := by
  constructor
  · have hdef : Defines spreadSource 0 [] "f" spread :=
      ⟨by decide +kernel, by decide, by decide +kernel, ":\n    return a", by decide +kernel⟩
    have hnote : Closed (Parameter.admits (· != '#') [',', '=']) false [] " list[int] " :=
      .plain_append (p := " list".toList) (by decide)
        (.group (c := '[') rfl (.plain_append (p := "int".toList) (by decide) .nil)
          (.plain_append (p := " ".toList) (by decide) .nil))
    have hdefault : Closed (Parameter.admits (· != '#') [',']) false [] " [1, 2]" :=
      .plain_append (p := " ".toList) (by decide)
        (.group (c := '[') rfl (.plain_append (p := "1, 2".toList) (by decide) .nil) .nil)
    have hps : ∀ p ∈ spread, p.Proper (· != '#') [] [] := by
      refine List.forall_mem_cons.2 ⟨⟨by decide, by decide, by decide +kernel, ?_, ?_⟩,
        List.forall_mem_singleton.2 ⟨by decide, by decide, by decide +kernel, by simp, by simp⟩⟩
      · intro t ht
        obtain rfl := Option.some.inj ht
        exact ⟨[], by simp, hnote⟩
      · intro t ht
        obtain rfl := Option.some.inj ht
        exact ⟨by decide, [], by simp, hdefault⟩
    obtain ⟨hiff, -, hnotes, hdefaults, hreached⟩ := parameters_kept_iff_sealed hdef hps
    exact (hiff (hnotes (by simp))).2 ⟨hreached (.inr ⟨by decide, by simp⟩), hdefaults (by simp)⟩
  · have hdef : Defines loneSource 0 [] "f" lone :=
      ⟨by decide +kernel, by decide, by decide +kernel, ":\n    return a", by decide +kernel⟩
    have hquotable : Quotable '\'' "," := .char (by decide) (by decide) .nil
    have hliteral : IsLiteral "','" := .single rfl hquotable
    have hps : ∀ p ∈ lone, p.Proper (· != '#') [] [(false, "','".toList)] := by
      refine List.forall_mem_singleton.2 ⟨by decide, by decide, by decide +kernel, by simp, ?_⟩
      intro t ht
      obtain rfl := Option.some.inj ht
      exact ⟨by decide, _, fun l hl => hl, .literal hliteral (by simp) (by simp) .nil⟩
    obtain ⟨-, hneeds, -⟩ := parameters_kept_iff_sealed hdef hps
    intro hread
    have hsealed := hneeds hread _ (List.mem_singleton.2 rfl) "','" rfl
    exact absurd (hsealed.inside "'" ',' "'" rfl (.inr (by simp))) (by decide)

end

end Signature

end Offload
