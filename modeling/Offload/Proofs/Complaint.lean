import Offload.Proofs.Growth

/-!
What the reading of an annotation complains of, and where. Each complaint points at the line of the
annotation, but for one: a loop of a nest that has no countable range is named by its own line. Only
directives of kind `loop` look at nests, and they govern a statement.
-/
namespace Offload

open Outcome

namespace ClauseContext

/-- The complaints of a directive whose clauses are read. -/
inductive Blames (ctx : ClauseContext) : Error → Prop
  | clause (fault : ClauseFault) : Blames ctx (.clause ctx.line fault)
  | malformed (fault : SyntaxFault) : Blames ctx (.malformed ctx.line fault)
  | loop {span : Span} {l : NestedLoop} (kind : ctx.kind = .loop) (region : ctx.region = some span)
    (mem : l ∈ NestedLoop.nestIn ctx.source span) :
    Blames ctx (.malformed l.line (.uncountable l.header.iterable))

variable (ctx : ClauseContext)

theorem blames_located {α : Type} (x : Except SyntaxFault α) :
    FailsWith ctx.Blames (ctx.located x) := .mapError Blames.malformed x

theorem blames_associateLoops {span : Span} (hkind : ctx.kind = .loop)
    (hspan : ctx.region = some span) (count : Nat) :
    FailsWith ctx.Blames (associateLoops ctx.source span count ctx.line) := by
  unfold associateLoops
  dsimp only
  split
  · apply FailsWith.mapM
    intro l hl
    unfold NestedLoop.associate
    split
    · exact .ok _
    · exact .error (.loop hkind hspan hl)
  · exact .error (.malformed _)

theorem blames_checkSize (clause constructClause : ClauseKind) (argument : Text) :
    FailsWith ctx.Blames (ctx.checkSize clause constructClause argument) := by
  unfold checkSize
  dsimp only
  split
  · exact .error (.clause _)
  · exact .ok _

theorem blames_checkSizeAllowed (clause : ClauseKind) (argument : Text) :
    FailsWith ctx.Blames (ctx.checkSizeAllowed clause argument) := by
  unfold checkSizeAllowed
  split
  · exact .ok _
  · exact ctx.blames_located _

theorem blames_size (clause constructClause : ClauseKind) (modifier : Text)
    (argument : Option Text) :
    FailsWith ctx.Blames (ctx.size clause constructClause modifier argument) := by
  cases argument with
  | none => exact .ok _
  | some argument =>
    apply FailsWith.bind (ctx.blames_checkSizeAllowed clause argument)
    intro _
    apply FailsWith.bind (ctx.blames_located _)
    intro _
    exact .bind (ctx.blames_checkSize clause constructClause argument) fun _ => .ok _

theorem blames_gang (argument : Option Text) : FailsWith ctx.Blames (ctx.gang argument) := by
  cases argument with
  | none => exact .ok _
  | some argument =>
    apply FailsWith.bind (ctx.blames_checkSizeAllowed .gang argument)
    intro _
    apply FailsWith.bind (ctx.blames_located _)
    intro gang
    split
    · exact .bind (ctx.blames_checkSize .gang .numGangs argument) fun _ => .ok _
    · exact .ok _

/-- The nest that a clause speaks of lies in the governed lines. -/
theorem blames_loops (hkind : ctx.kind = .loop) (clause : ClauseKind) (count : Nat)
    (f : List AssociatedLoop → Clause) :
    FailsWith ctx.Blames (do
      let span ← ctx.located (ctx.loopSpan clause)
      return f (← associateLoops ctx.source span count ctx.line)) := by
  apply FailsWith.bind_of_eq (ctx.blames_located _)
  intro span hspan
  have hregion : ctx.region = some span := by
    have hloops := mapError_eq_ok.1 hspan
    unfold loopSpan at hloops
    split at hloops
    · next found hfound => rw [hfound, Except.ok.inj hloops]
    · simp at hloops
  exact .bind (ctx.blames_associateLoops hkind hregion count) fun _ => .ok _

theorem blames_collapse (hkind : ctx.kind = .loop) (argument : Option Text) :
    FailsWith ctx.Blames (ctx.collapse argument) := by
  apply FailsWith.bind (ctx.blames_located _)
  intro _
  apply FailsWith.bind (ctx.blames_located _)
  intro count
  exact ctx.blames_loops hkind .collapse count.toNat (.collapse count)

theorem blames_tile (hkind : ctx.kind = .loop) (argument : Option Text) :
    FailsWith ctx.Blames (ctx.tile argument) := by
  apply FailsWith.bind (ctx.blames_located _)
  intro _
  apply FailsWith.bind (ctx.blames_located _)
  intro sizes
  have hrest := ctx.blames_loops hkind .tile sizes.length (.tile sizes)
  split
  · exact .error (.malformed _)
  · exact hrest

/-- Nests belong to loops. -/
theorem kind_of_accepts {kind : DirectiveKind} {clause : ClauseKind}
    (h : kind.accepts clause = true) (hclause : clause = .collapse ∨ clause = .tile) :
    kind = .loop := by
  rcases hclause with rfl | rfl
  · cases kind <;> first | rfl | exact absurd h (by decide)
  · cases kind <;> first | rfl | exact absurd h (by decide)

theorem blames_read {clause : ClauseKind} (haccepts : ctx.kind.accepts clause = true)
    (argument : Option Text) : FailsWith ctx.Blames (ctx.read clause argument) := by
  unfold read
  split
  case h_1 => exact ctx.blames_collapse (kind_of_accepts haccepts (.inl rfl)) argument
  case h_2 => exact ctx.blames_tile (kind_of_accepts haccepts (.inr rfl)) argument
  case h_3 => exact .map (ctx.blames_gang argument)
  case h_4 => exact .map (ctx.blames_size _ _ _ argument)
  case h_5 => exact .map (ctx.blames_size _ _ _ argument)
  case h_15 =>
    split
    · exact ctx.blames_located _
    · exact .ok _
  case h_6 | h_7 => exact .ok _
  all_goals exact ctx.blames_located _

theorem blames_readWritten (w : WrittenClause) : FailsWith ctx.Blames (ctx.readWritten w) := by
  unfold readWritten resolve
  split
  · next kind hkind =>
    have haccepts := (Option.filter_eq_some_iff.1 hkind).2
    rw [ok_bind]
    exact .bind (ctx.blames_read haccepts w.argument) fun _ => .ok _
  · exact .error (.clause _)

theorem blames_add (set : ClauseSet) (kind : ClauseKind) (clause : Clause) :
    FailsWith ctx.Blames (ctx.add set kind clause) := by
  unfold add
  split
  · exact .ok _
  · split
    · exact .ok _
    · exact .error (.clause _)

theorem blames_readAll (tokens : List Text) : FailsWith ctx.Blames (ctx.readAll tokens).outcome := by
  simp only [readAll, Logged.outcome_bind, Logged.outcome_foldlM, Logged.outcome_lift]
  apply FailsWith.bind
  · apply FailsWith.foldlM
    intro set w
    simp only [readAndAdd, readLogged, Logged.outcome_bind, Logged.outcome_lift,
      Logged.outcome_log, Logged.outcome_pure]
    exact .bind (.bind (ctx.blames_readWritten w) fun _ => .ok _) fun _ => ctx.blames_add _ _ _
  · intro set
    unfold check
    split
    · exact .error (.clause _)
    · exact .ok _

end ClauseContext

namespace PragmaLine

variable {config : Config} {s : Source} {a : PragmaLine}

/-- The complaints of an annotation. A loop that it blames belongs to the nest in its region. -/
inductive Blames (config : Config) (s : Source) (a : PragmaLine) : Error → Prop
  | clause (fault : ClauseFault) : Blames config s a (.clause a.line fault)
  | malformed (fault : SyntaxFault) : Blames config s a (.malformed a.line fault)
  | loop {p : Pragma} {span : Span} {l : NestedLoop} (read : Pragma.read a.body = .ok p)
    (region : PragmaLine.region config s a.line p = .ok (some ⟨span, false⟩))
    (scope : Region.scope s a.line = .ok span) (mem : l ∈ NestedLoop.nestIn s span) :
    Blames config s a (.malformed l.line (.uncountable l.header.iterable))

/-- Loops and fused annotations govern the next statement. -/
theorem exists_scope_of_region {p : Pragma} {found : Option Region} {span : Span}
    (h : PragmaLine.region config s a.line p = .ok found)
    (hkind : p.fused = true ∨ p.kind = .loop) (hspan : found.map Region.span = some span) :
    found = some ⟨span, false⟩ ∧ Region.scope s a.line = .ok span := by
  have hscope : (do return some ⟨← Region.scope s a.line, false⟩) = Except.ok found := by
    unfold PragmaLine.region at h
    split at h
    · exact h
    · next hfused =>
      rw [hkind.resolve_left hfused] at h
      exact h
  obtain ⟨own, hown, h⟩ := bind_eq_ok.1 hscope
  obtain rfl := Except.ok.inj h
  obtain rfl : own = span := Option.some.inj hspan
  exact ⟨rfl, hown⟩

/-- The complaints of a half of an annotation are complaints of the annotation. -/
theorem blames_readClauses {p : Pragma} {found : Option Region} {d : Directive}
    (hread : Pragma.read a.body = .ok p) (h : PragmaLine.region config s a.line p = .ok found)
    (hline : d.line = a.line) (hregion : d.region = found.map Region.span)
    (hkind : d.kind = .loop → p.fused = true ∨ p.kind = .loop) (around : List Directive)
    (tokens : List Text) :
    FailsWith (Blames config s a) (readClauses s d around tokens).outcome := by
  intro e he
  cases ClauseContext.blames_readAll _ tokens e he with
  | clause fault => exact hline ▸ .clause fault
  | malformed fault => exact hline ▸ .malformed fault
  | loop hloop hspan hmem =>
    obtain ⟨rfl, hscope⟩ := exists_scope_of_region h (hkind hloop) (hregion.symm.trans hspan)
    exact .loop hread h hscope hmem

theorem blames_directives (config : Config) (s : Source) (around : List Directive)
    (a : PragmaLine) : FailsWith (Blames config s a) (a.directives config s around).outcome := by
  simp only [directives, Logged.outcome_bind, Logged.outcome_lift, Logged.outcome_log, ok_bind]
  apply FailsWith.bind_of_eq (.mapError Blames.malformed _)
  intro p hp
  apply FailsWith.bind_of_eq (.mapError Blames.malformed _)
  intro found hfound
  have hread := mapError_eq_ok.1 hp
  have hregion := mapError_eq_ok.1 hfound
  split
  · next hfused =>
    simp only [Logged.outcome_bind, Logged.outcome_pure]
    apply FailsWith.bind (blames_readClauses hread hregion rfl rfl (fun _ => .inl hfused) _ _)
    intro clauses
    apply FailsWith.bind (blames_readClauses hread hregion rfl rfl (fun _ => .inl hfused) _ _)
    exact fun _ => .ok _
  · simp only [Logged.outcome_bind, Logged.outcome_pure]
    apply FailsWith.bind (blames_readClauses hread hregion rfl rfl (fun hloop => .inr hloop) _ _)
    exact fun _ => .ok _

end PragmaLine

/-- Before the final check, reading fails only with complaints of an annotation: the first one that
cannot be added. -/
theorem exists_blames_of_growTree {config : Config} {s : Source} {e : Error}
    (h : growTree config s = .error e) :
    ∃ before a behind tree, PragmaLine.scan config.framework s = before ++ a :: behind ∧
      before.foldlM (fun t b => (b.addTo config s t).outcome) (.empty s.size) = .ok tree ∧
      (a.addTo config s tree).outcome = .error e ∧ a.Blames config s e := by
  obtain ⟨before, a, behind, tree, hscan, htree, hfails⟩ := exists_of_foldlM_error h
  refine ⟨before, a, behind, tree, hscan, htree, hfails, ?_⟩
  have hgrowing : Growing config s (a :: behind) tree := by
    have hinv := foldlM_ok (f := fun t b => (b.addTo config s t).outcome)
      (fun rest t => Growing config s (rest ++ a :: behind) t)
      (fun b rest t t' ht hstep => Growing.step b _ t t' ht hstep) (hscan ▸ .start config s) htree
    exact hinv
  rw [hgrowing.addTo_outcome, map_eq_error] at hfails
  exact PragmaLine.blames_directives config s _ a e hfails

end Offload
