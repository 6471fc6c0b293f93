import Offload.Proofs.Replacement

/-!
Loops in code that has been replaced. Whether a loop stays as it is depends on the line behind its
annotation, which is in general not the line of the statement that it governs: a comment or another
annotation may stand between the two. A loop that governs a replaced statement is then rejected, and
one that stands behind a replaced statement may be passed over.
-/
namespace Offload

open Outcome

/-- The first statement of a region. -/
def Source.governed? (s : Source) (region : Span) : Option Span :=
  (s.firstStatement? region).map fun first => ⟨first, s.statementStop first⟩

namespace Source

variable {s : Source} {region statement other : Span}

theorem governed?_eq_some_iff : s.governed? region = some statement ↔
    s.firstStatement? region = some statement.start ∧
      statement.stop = s.statementStop statement.start := by
  unfold governed?
  rw [Option.map_eq_some_iff]
  constructor
  · rintro ⟨first, hfirst, rfl⟩
    exact ⟨hfirst, rfl⟩
  · rintro ⟨hfirst, hstop⟩
    exact ⟨statement.start, hfirst, by rw [← hstop]⟩

/-- What a region governs starts in it, and no statement starts in front of it there. -/
theorem start_of_governed? (h : s.governed? region = some statement) :
    region.start ≤ statement.start ∧ s.has Line.startsStatement statement.start = true ∧
      ∀ m, region.start ≤ m → m < statement.start → s.has Line.startsStatement m = false := by
  have hfirst := (governed?_eq_some_iff.1 h).1
  have hnext := (Option.filter_eq_some_iff.1 hfirst).1
  exact findFrom?_eq_some_iff.1 hnext

theorem lt_of_governed? (hs : s.Scanned) (h : s.governed? region = some statement) :
    statement.start < statement.stop := by
  obtain ⟨-, hstarts, -⟩ := start_of_governed? h
  rw [(governed?_eq_some_iff.1 h).2]
  exact (hs.isExtent_of_startsStatement hstarts).lt

/-- Two statements that start on one line are the same. -/
theorem eq_of_governed? {region' : Span} (h : s.governed? region = some statement)
    (h' : s.governed? region' = some other) (hstart : other.start = statement.start) :
    other = statement := by
  have hstop := (governed?_eq_some_iff.1 h).2
  have hstop' := (governed?_eq_some_iff.1 h').2
  rw [hstart, ← hstop] at hstop'
  cases other
  cases statement
  simp_all

/-- A statement starts behind an undivided one, or lies in it as a whole. -/
theorem Undivided.le_start_or_encloses (hs : s.Scanned) {region' : Span}
    (h : s.governed? region = some statement) (h' : s.governed? region' = some other)
    (hundivided : s.Undivided other.start) (hle : other.start ≤ statement.start) :
    other.stop ≤ statement.start ∨ other.encloses statement = true := by
  obtain ⟨-, hstarts, -⟩ := start_of_governed? h
  obtain ⟨-, hstarts', -⟩ := start_of_governed? h'
  have hstop := (governed?_eq_some_iff.1 h).2
  have hstop' := (governed?_eq_some_iff.1 h').2
  rcases Nat.lt_or_ge statement.start other.stop with hlt | hge
  · right
    rw [Span.encloses_iff]
    refine ⟨hle, ?_⟩
    rcases eq_or_logicalEnd_lt hs hstarts' hle hstarts with heq | hbehind
    · rw [hstop, hstop', heq]
    · have hdeeper := hundivided statement.start hbehind (hstop' ▸ hlt) hstarts
      rw [hstop, hstop']
      exact hs.statementStop_le_of_deeper (lt_size_of_has hstarts) (hstop' ▸ hlt) hdeeper
  · exact .inl hge

end Source

/-! The region of a loop. -/

theorem PragmaLine.scope_of_directives {config : Config} {s : Source} {a : PragmaLine}
    {around : List Directive} {d : Directive} {half : Option Directive}
    (h : (a.directives config s around).outcome = .ok (d, half)) :
    (d.kind = .loop → ∃ span, Region.scope s a.line = .ok span ∧ d.region = some span) ∧
      ∀ loop ∈ half, ∃ span, Region.scope s a.line = .ok span ∧ loop.region = some span := by
  simp only [directives, Logged.outcome_bind, Logged.outcome_lift, Logged.outcome_log, ok_bind] at h
  obtain ⟨p, hp, h⟩ := bind_eq_ok.1 h
  obtain ⟨found, hfound, h⟩ := bind_eq_ok.1 h
  have hcompute := (Pragma.kind_of_read (mapError_eq_ok.1 hp)).2
  have hregion := mapError_eq_ok.1 hfound
  unfold region at hregion
  split at h
  · next hfused =>
    rw [if_pos hfused] at hregion
    obtain ⟨span, hspan, hfound⟩ := bind_eq_ok.1 hregion
    obtain rfl := Except.ok.inj hfound
    simp only [Logged.outcome_bind, Logged.outcome_pure] at h
    obtain ⟨clauses, -, h⟩ := bind_eq_ok.1 h
    obtain ⟨loopClauses, -, h⟩ := bind_eq_ok.1 h
    simp only [Except.ok.injEq, Prod.mk.injEq] at h
    obtain ⟨rfl, rfl⟩ := h
    refine ⟨fun _ => ⟨span, hspan, rfl⟩, fun loop hloop => ?_⟩
    obtain rfl := Option.some.inj hloop
    exact ⟨span, hspan, rfl⟩
  · next hfused =>
    rw [if_neg hfused] at hregion
    simp only [Logged.outcome_bind, Logged.outcome_pure] at h
    obtain ⟨clauses, -, h⟩ := bind_eq_ok.1 h
    simp only [Except.ok.injEq, Prod.mk.injEq] at h
    obtain ⟨rfl, rfl⟩ := h
    refine ⟨fun hkind => ?_, by simp⟩
    have hloop : p.kind = .loop := hkind
    rw [hloop] at hregion
    obtain ⟨span, hspan, hfound⟩ := bind_eq_ok.1 hregion
    obtain rfl := Except.ok.inj hfound
    exact ⟨span, hspan, rfl⟩

theorem ReadAmid.start_of_loop {config : Config} {s : Source} {id : Nat} {d : Directive}
    {around : List Directive} (h : ReadAmid config s id d around) (hkind : d.kind = .loop) :
    ∃ region, d.region = some region ∧ region.start = d.line + 1 := by
  cases h with
  | whole _ _ directives _ =>
    obtain ⟨span, hspan, hregion⟩ := (PragmaLine.scope_of_directives directives).1 hkind
    have hline := (PragmaLine.contributes_of_directives directives).line
    exact ⟨span, hregion, hline ▸ Region.start_of_scope hspan⟩
  | half _ _ directives _ =>
    obtain ⟨span, hspan, hregion⟩ := (PragmaLine.scope_of_directives directives).2 _ rfl
    have hcontributes := PragmaLine.contributes_of_directives directives
    have hline := (hcontributes.halves _ rfl).line.trans hcontributes.line
    exact ⟨span, hregion, hline ▸ Region.start_of_scope hspan⟩

namespace Host

/-- The region of a loop starts on the line behind the annotation. -/
theorem exists_region_of_loop {config : Config} {source : Text} {tree : DirectiveTree} {id : Nat}
    (hparse : (parse config source).outcome = .ok tree) (hkind : (tree.get id).kind = .loop) :
    ∃ region, (tree.get id).region = some region ∧ region.start = (tree.get id).line + 1 := by
  have hget : tree.get? id = some (tree.get id) :=
    DirectiveTree.get?_eq_get_of_kind (by simp [hkind])
  have hgrow := (exists_growTree_of_parseDirectives (mapError_eq_ok.1 hparse)).1
  cases id with
  | zero => simp [DirectiveTree.get_zero, DirectiveTree.root, Directive.root] at hkind
  | succ i =>
    rw [DirectiveTree.get?_succ, Option.map_eq_some_iff] at hget
    obtain ⟨e, he, hd⟩ := hget
    have hread := (recorded_of_growTree hgrow).read he
    rw [hd] at hread
    exact hread.start_of_loop hkind

theorem line_of_region {config : Config} {source : Text} {tree : DirectiveTree} {id : Nat}
    {region : Span} (hparse : (parse config source).outcome = .ok tree)
    (hkind : (tree.get id).kind = .loop) (hregion : (tree.get id).region = some region) :
    region.start = (tree.get id).line + 1 := by
  obtain ⟨region', hregion', hstart⟩ := exists_region_of_loop hparse hkind
  rw [hregion] at hregion'
  rw [Option.some.inj hregion', hstart]

/-! What has been replaced, and on whose behalf. -/

/-- One of the nodes is a loop that governs the statement. -/
def LoopGoverns (tree : DirectiveTree) (ids : List Nat) (s : Source) (statement : Span) : Prop :=
  ∃ id ∈ ids, ∃ region, (tree.get id).kind = .loop ∧ (tree.get id).region = some region ∧
    s.governed? region = some statement

/-- One of the nodes is an atomic directive of the region. -/
def AtomicGoverns (tree : DirectiveTree) (ids : List Nat) (region : Span) : Prop :=
  ∃ id ∈ ids, (tree.get id).kind = .atomic ∧ (tree.get id).region = some region

section

variable {config : Config} {f : FunctionContext} {tree : DirectiveTree} {ids : List Nat} {id : Nat}
  {target : Target} {region : Span} {nest : LoopNest} {p : Patch}

/-- A nest is moved together with the whole statement that the loop governs. -/
theorem LoopNest.governed_of_find (hparse : (parse config f.source).outcome = .ok tree)
    (hkind : (tree.get id).kind = .loop) (hregion : (tree.get id).region = some region)
    (hfind : find (.ofText config.tabWidth f.source) (tree.get id) region = .ok nest) :
    (Source.ofText config.tabWidth f.source).governed? region = some nest.span ∧
      (Source.ofText config.tabWidth f.source).Undivided nest.span.start := by
  obtain ⟨headers, outer, inner, hlocates⟩ := exists_locates_of_parse hparse hkind hregion hfind
  have hkeeps := hlocates.keeps (Source.scanned_ofText config.tabWidth f.source) hfind
  have hmem := hkeeps.first
  constructor
  · exact Source.governed?_eq_some_iff.2 ⟨hlocates.isNest.first _ hmem, hkeeps.whole⟩
  · exact hkeeps.undivided _ (List.mem_of_mem_head? hmem)

/-- Every replaced range is a statement that one of the loops governs, or the region of one of the
atomic directives. -/
theorem loopGoverns_or_atomicGoverns (hparse : (parse config f.source).outcome = .ok tree)
    (hrun : run (poolSize config.gangs) tree (.ofContext f config.tabWidth config.entry) ids =
      .ok target) (hp : p ∈ target.body.patches) :
    LoopGoverns tree ids target.source p.span ∧ target.source.Undivided p.span.start ∨
      AtomicGoverns tree ids p.span := by
  have hdiffers := differs_run hrun
  have hsource : target.source = .ofText config.tabWidth f.source := hdiffers.source
  have hnone : (Target.ofContext f config.tabWidth config.entry).body.patches = [] := rfl
  rw [hdiffers.patches, hnone, List.nil_append, List.mem_map] at hp
  obtain ⟨c, hc, rfl⟩ := hp
  rw [Change.span_patch, hsource]
  cases c with
  | moved nest kernel gangs =>
    left
    obtain ⟨id, hid, region, hkind, hregion, hmade⟩ := exists_loop_of_moved hc
    have hgoverned := LoopNest.governed_of_find hparse hkind hregion hmade.found
    exact ⟨⟨id, hid, region, hkind, hregion, hgoverned.1⟩, hgoverned.2⟩
  | locked region =>
    right
    obtain ⟨id, hid, before, changes, -, hchange⟩ := exists_change?_of_mem hc
    rcases change?_eq_some.1 hchange with ⟨-, hloop⟩ | ⟨hkind, -, region', hregion, hlocked⟩
    · obtain ⟨region', construct, -, -, -, -, hmove⟩ := loopChange?_eq_some.1 hloop
      obtain ⟨nest, kernel, hmoved, -⟩ := exists_made_of_move hmove
      simp at hmoved
    · obtain rfl := Change.locked.inj hlocked
      exact ⟨id, hid, hkind, hregion⟩

end

/-! Generating a loop. -/

section

variable {fallback : Nat} {tree : DirectiveTree} {target : Target} {d construct : Directive}
  {region : Span} {c : Change}

/-- Carries out a change. -/
def carryOut (tree : DirectiveTree) (target : Target) : Change → Except Error Target
  | .moved nest kernel gangs =>
    placeKernel target kernel nest gangs !(atomicsIn tree nest.body).isEmpty
  | .locked region => (requireLock target).patch region (lockedLines target.source region)

/-- A loop is moved by carrying out the change that it asks for. -/
theorem outcome_moveLoop (fallback : Nat) (d construct : Directive) (region : Span)
    (tree : DirectiveTree) (target : Target) :
    (moveLoop fallback d construct region tree target).outcome =
      move fallback d construct region tree target >>= carryOut tree target := by
  simp only [moveLoop, move, Logged.outcome_bind, Logged.outcome_lift, Logged.outcome_log,
    Logged.outcome_pure, ok_bind]
  cases LoopNest.find target.source d region with
  | error e => rfl
  | ok nest =>
    simp only [ok_bind]
    cases reductionsOf d with
    | error e => rfl
    | ok reductions =>
      simp only [ok_bind]
      cases kernelOf d target nest reductions (atomicsIn tree nest.body) with
      | error e => rfl
      | ok kernel =>
        change _ = placeKernel target kernel nest (gangsFor fallback d construct)
          !(atomicsIn tree nest.body).isEmpty
        simp only [ok_bind]
        cases placeKernel target kernel nest (gangsFor fallback d construct)
          !(atomicsIn tree nest.body).isEmpty <;> rfl

theorem body_foldl_addImport (imports : List Text) (target : Target) :
    (imports.foldl Target.addImport target).body = target.body := by
  induction imports generalizing target with
  | nil => rfl
  | cons moduleName imports ih =>
    rw [List.foldl_cons, ih]
    rfl

theorem patch_of_not_fits {ready : Target} {span : Span} (hbody : ready.body = target.body)
    (hsound : target.body.Sound) (h : ¬ target.body.Fits span) (lines : List Text) :
    ready.patch span lines = .error (.generation span.start (.patch span target.body.span)) := by
  rw [Target.patch, hbody, (PatchedBody.patch_eq hsound span lines).2 h]
  rfl

/-- Nothing is replaced twice. -/
theorem carryOut_of_not_fits (hsound : target.body.Sound) (h : ¬ target.body.Fits c.span) :
    carryOut tree target c =
      .error (.generation c.span.start (.patch c.span target.body.span)) := by
  cases c with
  | moved nest kernel gangs =>
    have hbody := body_foldl_addImport kernel.imports target
    simp only [carryOut, placeKernel]
    generalize kernel.imports.foldl Target.addImport target = imported at hbody
    refine patch_of_not_fits ?_ hsound h _
    split
    · exact hbody
    · exact hbody
  | locked region =>
    have hbody : (requireLock target).body = target.body := rfl
    exact patch_of_not_fits hbody hsound h _

/-- Moving a loop changes something. -/
theorem moveLoop_ne_self :
    (moveLoop fallback d construct region tree target).outcome ≠ .ok target := by
  intro hself
  obtain ⟨c, -, hdiffers⟩ := differs_moveLoop hself
  have hlength := congrArg List.length hdiffers.patches
  simp at hlength

theorem generate_loop (hkind : d.kind = .loop) (hregion : d.region = some region)
    (hconstruct : parallelConstruct? tree d = some construct)
    (hseq : d.clauses.contains .seq = false) :
    (generate fallback d tree target).outcome =
      if target.body.isPatched region.start then .ok target
      else (moveLoop fallback d construct region tree target).outcome := by
  unfold generate expandLoop
  rw [hkind, hregion]
  dsimp only
  split
  · rfl
  · rw [hconstruct]
    dsimp only
    rw [if_neg (by simp [hseq])]

/-- A loop is left as it is exactly if the first line of its region has been replaced. -/
theorem generate_loop_eq_self_iff (hkind : d.kind = .loop) (hregion : d.region = some region)
    (hconstruct : parallelConstruct? tree d = some construct)
    (hseq : d.clauses.contains .seq = false) :
    (generate fallback d tree target).outcome = .ok target ↔
      target.body.isPatched region.start = true := by
  rw [generate_loop hkind hregion hconstruct hseq]
  cases hpatched : target.body.isPatched region.start with
  | true => simp
  | false => simpa using moveLoop_ne_self

end

/-! Loops whose statement has been replaced. -/

/-- What generation does with a loop that governs a statement, by where the replaced ranges lie. -/
structure Revisits (fallback : Nat) (tree : DirectiveTree) (ids : List Nat) (target : Target)
    (d construct : Directive) (region statement : Span) : Prop where
  /-- A loop in replaced code stays as it is if that code reaches back to the annotation. -/
  covered : ∀ p ∈ target.body.patches, p.span.encloses statement = true →
    p.span.start ≤ d.line + 1 → (generate fallback d tree target).outcome = .ok target
  /-- If the line behind its annotation is as it was, the loop is rejected: for another reason, or
  since its statement is replaced. -/
  rejected : ∀ p ∈ target.body.patches, p.span.encloses statement = true →
    target.body.isPatched (d.line + 1) = false → (generate fallback d tree target).outcome =
      move fallback d construct region tree target >>= fun _ =>
        .error (.generation statement.start (.patch statement target.body.span))
  /-- This happens if another loop governs the same statement, or in an atomic region. -/
  shared : ∀ p ∈ target.body.patches, p.span.encloses statement = true →
    target.body.isPatched (d.line + 1) = false →
    p.span = statement ∧ LoopGoverns tree ids target.source statement ∨
      AtomicGoverns tree ids p.span
  /-- A loop outside replaced code stays as it is if it is annotated at the end of a loop that has
  been replaced and does not reach to its statement, or in an atomic region. -/
  trailing : ∀ p ∈ target.body.patches, p.span.encloses statement = false →
    p.span.contains (d.line + 1) = true →
    p.span.stop ≤ statement.start ∧ LoopGoverns tree ids target.source p.span ∨
      AtomicGoverns tree ids p.span
  /-- Where the statement follows its annotation at once and only loops have been replaced, a loop
  stays as it is exactly if its statement lies in replaced code. -/
  adjacent : d.line + 1 = statement.start →
    (∀ p ∈ target.body.patches, ¬ AtomicGoverns tree ids p.span) →
    ((generate fallback d tree target).outcome = .ok target ↔
      ∃ p ∈ target.body.patches, p.span.encloses statement = true)

section

variable {tree : DirectiveTree} {ids : List Nat} {target : Target} {region statement : Span}
  {p : Patch}

theorem not_fits_of_encloses (hp : p ∈ target.body.patches)
    (hcovers : p.span.encloses statement = true) : ¬ target.body.Fits statement := by
  intro hfits
  have hsolid := hfits.solid
  have hends := Span.encloses_iff.1 hcovers
  have hfree := hfits.free statement.start (Span.contains_iff.2 ⟨Nat.le_refl _, hsolid⟩)
  have hpatched := PatchedBody.isPatched_iff.2
    ⟨p, hp, Span.contains_iff.2 ⟨hends.1, by omega⟩⟩
  simp [hpatched] at hfree

/-- A replaced loop that starts in a region, and not behind the statement that the region governs, is
that statement. -/
theorem LoopGoverns.eq_statement (hgoverned : target.source.governed? region = some statement)
    (h : LoopGoverns tree ids target.source p.span) (hstart : region.start ≤ p.span.start)
    (hle : p.span.start ≤ statement.start) : p.span = statement := by
  obtain ⟨-, -, hnone⟩ := Source.start_of_governed? hgoverned
  obtain ⟨id, -, other, -, -, hother⟩ := h
  obtain ⟨-, hstarts, -⟩ := Source.start_of_governed? hother
  refine Source.eq_of_governed? hgoverned hother ?_
  by_contra hne
  have hnot := hnone p.span.start hstart (by omega)
  simp [hstarts] at hnot

/-- A replaced loop that starts before a statement ends before it, or holds all of it. -/
theorem LoopGoverns.stop_le (hs : target.source.Scanned)
    (hgoverned : target.source.governed? region = some statement)
    (h : LoopGoverns tree ids target.source p.span)
    (hundivided : target.source.Undivided p.span.start)
    (hpart : p.span.encloses statement = false) (hle : p.span.start ≤ statement.start) :
    p.span.stop ≤ statement.start := by
  obtain ⟨id, -, other, -, -, hother⟩ := h
  rcases hundivided.le_start_or_encloses hs hgoverned hother hle with hstop | hall
  · exact hstop
  · simp [hall] at hpart

end

/-- In every target that generation can come to: a loop in a parallel construct is left as it is
exactly if the line behind its annotation has been replaced, wherever the statement stands that it
governs. -/
theorem loop_unchanged_iff_replaced_behind_annotation {config : Config} {f : FunctionContext}
    {tree : DirectiveTree} {ids : List Nat} {target : Target} {id : Nat} {construct : Directive}
    (hparse : (parse config f.source).outcome = .ok tree)
    (hrun : run (poolSize config.gangs) tree (.ofContext f config.tabWidth config.entry) ids =
      .ok target)
    (hkind : (tree.get id).kind = .loop)
    (hconstruct : parallelConstruct? tree (tree.get id) = some construct)
    (hseq : (tree.get id).clauses.contains .seq = false) :
    ((generate (poolSize config.gangs) (tree.get id) tree target).outcome = .ok target ↔
        target.body.isPatched ((tree.get id).line + 1) = true) ∧
      ∃ region, (tree.get id).region = some region ∧
        ∀ statement, target.source.governed? region = some statement →
          Revisits (poolSize config.gangs) tree ids target (tree.get id) construct region
            statement := by
  obtain ⟨region, hregion, hstart⟩ := exists_region_of_loop hparse hkind
  have hsource : target.source = .ofText config.tabWidth f.source := (differs_run hrun).source
  have hs : target.source.Scanned := hsource ▸ Source.scanned_ofText config.tabWidth f.source
  have hsound : target.body.Sound := (differs_run hrun).sound (.empty _)
  have hself : (generate (poolSize config.gangs) (tree.get id) tree target).outcome = .ok target ↔
      target.body.isPatched ((tree.get id).line + 1) = true :=
    hstart ▸ generate_loop_eq_self_iff hkind hregion hconstruct hseq
  refine ⟨hself, region, hregion, fun statement hgoverned => ?_⟩
  obtain ⟨hle, -, -⟩ := Source.start_of_governed? hgoverned
  have hlt := Source.lt_of_governed? hs hgoverned
  have hcovered : ∀ p ∈ target.body.patches, p.span.encloses statement = true →
      p.span.start ≤ (tree.get id).line + 1 →
      target.body.isPatched ((tree.get id).line + 1) = true := by
    intro p hp hcovers hback
    have hends := Span.encloses_iff.1 hcovers
    exact PatchedBody.isPatched_iff.2 ⟨p, hp, Span.contains_iff.2 ⟨hback, by omega⟩⟩
  have htrailing : ∀ p ∈ target.body.patches, p.span.encloses statement = false →
      p.span.contains ((tree.get id).line + 1) = true →
      p.span.stop ≤ statement.start ∧ LoopGoverns tree ids target.source p.span ∨
        AtomicGoverns tree ids p.span := by
    intro p hp hpart hcontains
    have hback := (Span.contains_iff.1 hcontains).1
    rcases loopGoverns_or_atomicGoverns hparse hrun hp with ⟨hloop, hundivided⟩ | hatomic
    · exact .inl ⟨hloop.stop_le hs hgoverned hundivided hpart (by omega), hloop⟩
    · exact .inr hatomic
  constructor
  case covered =>
    intro p hp hcovers hback
    exact hself.2 (hcovered p hp hcovers hback)
  case rejected =>
    intro p hp hcovers hfree
    rw [generate_loop hkind hregion hconstruct hseq, hstart, if_neg (by simp [hfree]),
      outcome_moveLoop]
    cases hmove : move (poolSize config.gangs) (tree.get id) construct region tree target with
    | error e => rfl
    | ok c =>
      obtain ⟨nest, kernel, rfl, hmade⟩ := exists_made_of_move hmove
      have hnest := (LoopNest.governed_of_find hparse hkind hregion (hsource ▸ hmade.found)).1
      rw [← hsource, hgoverned] at hnest
      obtain rfl : statement = nest.span := Option.some.inj hnest
      have hfits := not_fits_of_encloses hp hcovers
      exact carryOut_of_not_fits (c := .moved nest kernel _) hsound hfits
  case shared =>
    intro p hp hcovers hfree
    have hends := Span.encloses_iff.1 hcovers
    have hbehind : (tree.get id).line + 1 < p.span.start := by
      by_contra hback
      simp [hcovered p hp hcovers (by omega)] at hfree
    rcases loopGoverns_or_atomicGoverns hparse hrun hp with ⟨hloop, -⟩ | hatomic
    · have heq := hloop.eq_statement hgoverned (by omega) hends.1
      exact .inl ⟨heq, heq ▸ hloop⟩
    · exact .inr hatomic
  case trailing => exact htrailing
  case adjacent =>
    intro hadjacent hloops
    rw [hself]
    constructor
    · intro hpatched
      obtain ⟨p, hp, hcontains⟩ := PatchedBody.isPatched_iff.1 hpatched
      refine ⟨p, hp, ?_⟩
      by_contra hpart
      rcases htrailing p hp (by simpa using hpart) hcontains with ⟨hstop, -⟩ | hatomic
      · have hin := (Span.contains_iff.1 hcontains).2
        omega
      · exact hloops p hp hatomic
    · rintro ⟨p, hp, hcovers⟩
      have hends := Span.encloses_iff.1 hcovers
      exact hcovered p hp hcovers (by omega)

/-- A function in which some nodes have been generated, with a loop that could be moved. -/
theorem exists_revisit_of_check (f : FunctionContext) (ids : List Nat) (id : Nat)
    (region statement : Span) (spans : List Span)
    (h : ((parse {} f.source).outcome.toOption.any fun tree =>
      (run (poolSize defaultGangs) tree (.ofContext f Source.defaultTabWidth Target.defaultEntry)
        ids).toOption.any fun target =>
          (tree.get id).kind == .loop && (tree.get id).clauses.contains .seq == false &&
          (tree.get id).region == some region && target.source.governed? region == some statement &&
          target.body.patches.map Patch.span == spans &&
          (parallelConstruct? tree (tree.get id)).any fun construct =>
            (move (poolSize defaultGangs) (tree.get id) construct region tree
              target).toOption.any fun _ => true) = true) :
    ∃ tree target construct c, (parse {} f.source).outcome = .ok tree ∧
      run (poolSize defaultGangs) tree (.ofContext f Source.defaultTabWidth Target.defaultEntry)
        ids = .ok target ∧ (tree.get id).kind = .loop ∧
      (tree.get id).clauses.contains .seq = false ∧ (tree.get id).region = some region ∧
      target.source.governed? region = some statement ∧
      target.body.patches.map Patch.span = spans ∧
      parallelConstruct? tree (tree.get id) = some construct ∧
      move (poolSize defaultGangs) (tree.get id) construct region tree target = .ok c := by
  obtain ⟨tree, htree, hfacts⟩ := exists_of_any h
  obtain ⟨target, htarget, hfacts⟩ := exists_of_any hfacts
  simp only [Bool.and_eq_true, beq_iff_eq, Option.any_eq_true] at hfacts
  obtain ⟨⟨⟨⟨⟨hkind, hseq⟩, hregion⟩, hgoverned⟩, hspans⟩, construct, hconstruct, c, hmove, -⟩ :=
    hfacts
  exact ⟨tree, target, construct, c, htree, htarget, hkind, hseq, hregion, hgoverned, hspans,
    hconstruct, eq_ok_of_toOption hmove⟩

/-- Two annotations of one loop, with a comment behind them. -/
def sharedLoop : FunctionContext where
  source := Text.unlines ["# acc parallel loop", "# acc loop", "# note", "for i in x:", "    g(i)"]

/-- A comment behind the second annotation belongs to the loop before it. -/
def abuttingLoops : FunctionContext where
  source := Text.unlines ["# acc parallel", "#\x7b", "# acc loop", "for i in x:", "    g(i)",
    "# acc loop", "    # note", "for j in y:", "    h(j)", "#\x7d"]

/-- The second annotation of the first function is rejected although its loop has been moved, and the
second loop of the second function is passed over although it has not been moved. -/
theorem sharedLoop_rejected_abuttingLoops_unchanged :
    (∃ tree target, (parse {} sharedLoop.source).outcome = .ok tree ∧
      run (poolSize defaultGangs) tree (.ofContext sharedLoop Source.defaultTabWidth
        Target.defaultEntry) [1, 2] = .ok target ∧
      target.body.patches.map Patch.span = [⟨3, 5⟩] ∧
      (generate (poolSize defaultGangs) (tree.get 3) tree target).outcome =
        .error (.generation 3 (.patch ⟨3, 5⟩ target.body.span))) ∧
    ∃ tree target, (parse {} abuttingLoops.source).outcome = .ok tree ∧
      run (poolSize defaultGangs) tree (.ofContext abuttingLoops Source.defaultTabWidth
        Target.defaultEntry) [1, 2] = .ok target ∧
      (tree.get 3).region = some ⟨6, 9⟩ ∧ target.source.governed? ⟨6, 9⟩ = some ⟨7, 9⟩ ∧
      target.body.patches.map Patch.span = [⟨3, 7⟩] ∧
      (generate (poolSize defaultGangs) (tree.get 3) tree target).outcome = .ok target := by
  constructor
  · obtain ⟨tree, target, construct, c, htree, htarget, hkind, hseq, hregion, hgoverned, hspans,
      hconstruct, hmove⟩ := exists_revisit_of_check sharedLoop [1, 2] 3 ⟨2, 5⟩ ⟨3, 5⟩ [⟨3, 5⟩]
        (by decide +kernel)
    obtain ⟨p, hpatches, hspan⟩ := List.map_eq_singleton_iff.1 hspans
    have hline := line_of_region htree hkind hregion
    obtain ⟨-, region, hregion', hrevisits⟩ :=
      loop_unchanged_iff_replaced_behind_annotation htree htarget hkind hconstruct hseq
    obtain rfl : region = ⟨2, 5⟩ := Option.some.inj (hregion'.symm.trans hregion)
    have hfree : target.body.isPatched ((tree.get 3).line + 1) = false := by
      rw [← hline, PatchedBody.isPatched_eq_false, hpatches, List.forall_mem_singleton, hspan]
      rfl
    have hrejected := (hrevisits _ hgoverned).rejected p (by simp [hpatches]) (by rw [hspan]; rfl)
      hfree
    refine ⟨tree, target, htree, htarget, hspans, ?_⟩
    rw [hrejected, hmove]
    rfl
  · obtain ⟨tree, target, construct, c, htree, htarget, hkind, hseq, hregion, hgoverned, hspans,
      hconstruct, -⟩ := exists_revisit_of_check abuttingLoops [1, 2] 3 ⟨6, 9⟩ ⟨7, 9⟩ [⟨3, 7⟩]
        (by decide +kernel)
    obtain ⟨p, hpatches, hspan⟩ := List.map_eq_singleton_iff.1 hspans
    have hline := line_of_region htree hkind hregion
    obtain ⟨hself, -⟩ :=
      loop_unchanged_iff_replaced_behind_annotation htree htarget hkind hconstruct hseq
    refine ⟨tree, target, htree, htarget, hregion, hgoverned, hspans, hself.2 ?_⟩
    rw [← hline, PatchedBody.isPatched_iff]
    exact ⟨p, by simp [hpatches], by rw [hspan]; rfl⟩

end Host
end Offload
