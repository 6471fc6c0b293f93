import Offload.Proofs.Renumbering

/-!
Trivia and nesting. A line of trivia leaves the tree of directives as it is, up to the numbers of
lines, unless it makes the region of a construct reach over an annotation behind it.
-/
namespace Offload

open Outcome Source

theorem Region.Alike.contains_shift {s : Source} {k line j : Nat} {x : Line} {r r' : Region}
    (h : Region.Alike s k x line r r')
    (hquiet : ¬ (Region.TakesIn s k x line r ∧ r.span.stop ≤ j ∧ j < k)) :
    r'.span.contains (shiftLine k j) = r.span.contains j := by
  have hstop : shiftLine k j < r'.span.stop ↔ j < r.span.stop := by
    rcases h.stop with ⟨-, hstop⟩ | ⟨htakes, hstop⟩
    · exact hstop j
    · obtain ⟨-, first, -, hin⟩ := id htakes
      have hle := hin.le
      have hout : ¬ (r.span.stop ≤ j ∧ j < k) := fun hj => hquiet ⟨htakes, hj⟩
      rw [hstop]
      unfold shiftLine
      split <;> omega
  rw [Bool.eq_iff_iff]
  simp only [Span.contains, Bool.and_eq_true, decide_eq_true_eq, hstop, h.code.start j]

/-- A directive and the same one under its new number. -/
structure Directive.Renumbered (config : Config) (s : Source) (k : Nat) (d d' : Directive) :
    Prop where
  kind : d'.kind = d.kind
  line : d'.line = shiftLine k d.line
  fused : d'.fused = d.fused
  clauses : d.clauses.Alike d'.clauses
  governs : d.kind.isCompute = true → ∀ a ∈ PragmaLine.scan config.framework s,
    d'.governs (shiftLine k a.line) = d.governs a.line

theorem Directive.Renumbered.sameClauses {config : Config} {s : Source} {k : Nat}
    {d d' : Directive} (h : d.Renumbered config s k d') : d.SameClauses d' :=
  ⟨h.kind, h.clauses.contains⟩

namespace PragmaLine

variable {config : Config} {s s' : Source} {k : Nat} {x : Line} {a : PragmaLine}
  {around around' : List Directive}

/-- The region of the annotation, if it is that of a construct, does not come to reach over another
annotation. -/
def Quiet (config : Config) (s : Source) (k : Nat) (x : Line) (a : PragmaLine) : Prop :=
  ∀ p r, Pragma.read a.body = .ok p → p.kind.isCompute = true →
    region config s a.line p = .ok (some r) → ∀ b ∈ scan config.framework s,
      ¬ (Region.TakesIn s k x a.line r ∧ r.span.stop ≤ b.line ∧ b.line < k)

theorem follows_readClauses (d d' : Directive) (h : Inserted s s' k x)
    (hfor : x.kind = .comment → ¬ s.InForHeader k) (hkind : d'.kind = d.kind)
    (hregion : Option.Rel (Inserted.SameCode s k) d.region d'.region)
    (haround : Option.Rel Directive.SameClauses (around.find? (·.kind.isCompute))
      (around'.find? (·.kind.isCompute))) (tokens : List Text) :
    Follows ClauseSet.Alike (readClauses s d around tokens).outcome
      (readClauses s' d' around' tokens).outcome := by
  have hloops : Option.Rel (fun span span' => NestedLoop.counts (NestedLoop.nestIn s' span') =
      NestedLoop.counts (NestedLoop.nestIn s span)) d.region d'.region := by
    generalize d.region = r at hregion ⊢
    generalize d'.region = r' at hregion ⊢
    cases hregion with
    | none => exact .none
    | some hspan => exact .some (NestedLoop.counts_nestIn h hfor hspan)
  have halike : ClauseContext.Alike
      { kind := d.kind, line := d.line, region := d.region, source := s, ancestors := around }
      { kind := d'.kind, line := d'.line, region := d'.region, source := s',
        ancestors := around' } := ⟨hkind, hloops, haround⟩
  exact halike.readAll tokens

/-- What the annotation says, without its clauses, is said again. -/
theorem renumbered_bare {p : Pragma} {found found' : Option Region}
    (hread : Pragma.read a.body = .ok p) (hregion : region config s a.line p = .ok found)
    (hquiet : a.Quiet config s k x) (hfound : Option.Rel (Region.Alike s k x a.line) found found') :
    (a.bare p found).Renumbered config s k ((a.shift k).bare p found') := by
  refine ⟨rfl, rfl, rfl, fun _ => .none, fun hcompute b hb => ?_⟩
  cases hfound with
  | none => rfl
  | some halike =>
    next r r' =>
    exact halike.contains_shift (hquiet p r hread hcompute hregion b hb)

theorem sameCode_region {found found' : Option Region} {line : Nat}
    (hfound : Option.Rel (Region.Alike s k x line) found found') :
    Option.Rel (Inserted.SameCode s k) (found.map Region.span) (found'.map Region.span) := by
  cases hfound with
  | none => exact .none
  | some halike => exact .some halike.code

/-- An annotation that can be read can be read again. -/
theorem follows_directives (h : Inserted s s' k x)
    (hfor : x.kind = .comment → ¬ s.InForHeader k)
    (hopens : config.markers.opens x.text = false)
    (hcloses : config.markers.closes x.text = false) (hnext : a.line + 1 ≠ k)
    (hquiet : a.Quiet config s k x)
    (haround : Option.Rel Directive.SameClauses (around.find? (·.kind.isCompute))
      (around'.find? (·.kind.isCompute))) :
    Follows (fun q q' => q.1.Renumbered config s k q'.1 ∧
        Option.Rel (Directive.Renumbered config s k) q.2 q'.2)
      (a.directives config s around).outcome ((a.shift k).directives config s' around').outcome := by
  simp only [directives, Logged.outcome_bind, Logged.outcome_lift, Logged.outcome_log, ok_bind]
  refine Follows.bind_of_eq ((Follows.refl _).mapError _ _) fun p p' hread hp => ?_
  subst hp
  refine Follows.bind_of_eq ((follows_region h hopens hcloses hnext p).mapError _ _)
    fun found found' hregion hfound => ?_
  have hbare := renumbered_bare (mapError_eq_ok.1 hread) (mapError_eq_ok.1 hregion) hquiet hfound
  have hcode := sameCode_region hfound
  have hconstruct : ∀ clauses clauses' : ClauseSet, clauses.Alike clauses' →
      ((a.bare p found).withClauses clauses).Renumbered config s k
        (((a.shift k).bare p found').withClauses clauses') :=
    fun _ _ hc => ⟨hbare.kind, hbare.line, hbare.fused, hc, hbare.governs⟩
  split
  · simp only [Logged.outcome_bind, Logged.outcome_pure]
    refine Follows.bind (follows_readClauses (a.bare p found)
      ((a.shift k).bare p found') h hfor hbare.kind hcode haround _)
      fun clauses clauses' hc => ?_
    have hd := hconstruct clauses clauses' hc
    refine Follows.bind (follows_readClauses (loopHalf ((a.bare p found).withClauses clauses))
      (loopHalf (((a.shift k).bare p found').withClauses clauses')) h hfor rfl hcode ?_ _)
      fun loop loop' hl => ?_
    · rw [List.find?_cons, List.find?_cons, hd.kind]
      split
      · exact .some hd.sameClauses
      · exact haround
    · have hloop : DirectiveKind.loop.isCompute ≠ true := by decide
      exact .ok ⟨hd, .some ⟨rfl, hd.line, rfl, hl, fun hc => absurd hc hloop⟩⟩
  · simp only [Logged.outcome_bind, Logged.outcome_pure]
    exact Follows.bind (follows_readClauses (a.bare p found)
      ((a.shift k).bare p found') h hfor hbare.kind hcode haround _)
      fun clauses clauses' hc => .ok ⟨hconstruct clauses clauses' hc, .none⟩

end PragmaLine

/-- An entry and the same one under its new number. -/
structure TreeEntry.Renumbered (config : Config) (s : Source) (k : Nat) (e e' : TreeEntry) :
    Prop where
  directive : e.directive.Renumbered config s k e'.directive
  parent : e'.parent = e.parent
  attached : e'.attached = e.attached

namespace DirectiveTree

/-- A tree and the same one under the new numbers. -/
def Renumbered (config : Config) (s : Source) (k : Nat) (t t' : DirectiveTree) : Prop :=
  ∀ i : Nat, Option.Rel (TreeEntry.Renumbered config s k) t.entries[i]? t'.entries[i]?

namespace Renumbered

variable {config : Config} {s : Source} {k i : Nat} {t t' : DirectiveTree} {e e' : TreeEntry}

theorem exists_right (h : t.Renumbered config s k t') (he : t.entries[i]? = some e) :
    ∃ e', t'.entries[i]? = some e' ∧ e.Renumbered config s k e' := by
  have hi := h i
  rw [he] at hi
  generalize t'.entries[i]? = found at hi ⊢
  cases hi with
  | some hee => exact ⟨_, rfl, hee⟩

theorem exists_left (h : t.Renumbered config s k t') (he : t'.entries[i]? = some e') :
    ∃ e, t.entries[i]? = some e ∧ e.Renumbered config s k e' := by
  have hi := h i
  rw [he] at hi
  generalize t.entries[i]? = found at hi ⊢
  cases hi with
  | some hee => exact ⟨_, rfl, hee⟩

theorem length_eq (h : t.Renumbered config s k t') : t'.entries.length = t.entries.length := by
  refine Nat.le_antisymm ?_ ?_
  · rw [← List.getElem?_eq_none_iff]
    cases hi : t'.entries[t.entries.length]? with
    | none => rfl
    | some e' =>
      obtain ⟨e, he, -⟩ := h.exists_left hi
      simp at he
  · rw [← List.getElem?_eq_none_iff]
    cases hi : t.entries[t'.entries.length]? with
    | none => rfl
    | some e =>
      obtain ⟨e', he', -⟩ := h.exists_right hi
      simp at he'

theorem parent?_eq (h : t.Renumbered config s k t') (id : Nat) : t'.parent? id = t.parent? id := by
  cases id with
  | zero => rfl
  | succ i =>
    have hi := h i
    simp only [parent?]
    generalize t.entries[i]? = found at hi ⊢
    generalize t'.entries[i]? = found' at hi ⊢
    cases hi with
    | none => rfl
    | some hee => simp [hee.parent]

theorem sameClauses_get (h : t.Renumbered config s k t') (id : Nat) :
    (t.get id).SameClauses (t'.get id) := by
  have hroot : t.root.SameClauses t'.root := ⟨rfl, fun _ => rfl⟩
  cases id with
  | zero => exact hroot
  | succ i =>
    have hi := h i
    simp only [get, get?_succ]
    generalize t.entries[i]? = found at hi ⊢
    generalize t'.entries[i]? = found' at hi ⊢
    cases hi with
    | none => exact hroot
    | some hee => exact hee.directive.sameClauses

/-- The construct above is found again. -/
theorem find?_map_get (h : t.Renumbered config s k t') (ids : List Nat) :
    Option.Rel Directive.SameClauses ((ids.map t.get).find? (·.kind.isCompute))
      ((ids.map t'.get).find? (·.kind.isCompute)) := by
  induction ids with
  | nil => exact .none
  | cons id ids ih =>
    have hget := h.sameClauses_get id
    rw [List.map_cons, List.map_cons, List.find?_cons, List.find?_cons, hget.1]
    split
    · exact .some hget
    · exact ih

theorem mem_candidates_iff {a : PragmaLine} (ha : a ∈ PragmaLine.scan config.framework s)
    (hg : t.Grown) (hi : t.entries[i]? = some e) (hi' : t'.entries[i]? = some e')
    (hee : e.Renumbered config s k e') :
    (e', i + 1) ∈ t'.candidates (shiftLine k a.line) ↔ (e, i + 1) ∈ t.candidates a.line := by
  have hnumber : (∃ j, i + 1 = j + 1 ∧ t.entries[j]? = some e) ∧
      ∃ j, i + 1 = j + 1 ∧ t'.entries[j]? = some e' := ⟨⟨i, rfl, hi⟩, i, rfl, hi'⟩
  rw [mem_candidates, mem_candidates, hee.attached, hee.directive.kind, hee.directive.line,
    shiftLine_lt_shiftLine]
  simp only [hnumber, true_and]
  refine and_congr_right fun _ => and_congr_right fun _ => and_congr_right fun hkids => ?_
  have hcompute := (DirectiveKind.holdsChildren_iff.1 hkids).resolve_left (hg.written hi)
  rw [hee.directive.governs hcompute a ha]

/-- An annotation gets the parent it had. -/
theorem parentFor_eq (h : t.Renumbered config s k t') (hg : t.Grown) {a : PragmaLine}
    (ha : a ∈ PragmaLine.scan config.framework s) :
    t'.parentFor (shiftLine k a.line) = t.parentFor a.line := by
  rcases t.parentFor_cases a.line with ⟨hzero, hnil⟩ | ⟨e, hmem, hlast⟩
  · rcases t'.parentFor_cases (shiftLine k a.line) with ⟨hzero', -⟩ | ⟨e', hmem', -⟩
    · rw [hzero, hzero']
    · obtain ⟨⟨i, hid, hi'⟩, -⟩ := mem_candidates.1 hmem'
      obtain ⟨e, hi, hee⟩ := h.exists_left hi'
      rw [hid, mem_candidates_iff ha hg hi hi' hee, hnil] at hmem'
      simp at hmem'
  · obtain ⟨⟨i, hid, hi⟩, hnew, -⟩ := mem_candidates.1 hmem
    obtain ⟨e', hi', hee⟩ := h.exists_right hi
    rw [hid] at hmem
    have hcand := (mem_candidates_iff ha hg hi hi' hee).2 hmem
    rcases t'.parentFor_cases (shiftLine k a.line) with ⟨-, hnil⟩ | ⟨w', hmem', hlast'⟩
    · rw [hnil] at hcand
      simp at hcand
    · obtain ⟨⟨j, hjd, hj'⟩, -⟩ := mem_candidates.1 hmem'
      obtain ⟨w, hj, hww⟩ := h.exists_left hj'
      rw [hjd] at hmem'
      have hcandw := (mem_candidates_iff ha hg hj hj' hww).1 hmem'
      -- Both are last, and inserted directives have lines of their own.
      have hwe := hlast _ hcandw
      have hew := hlast' _ hcand
      simp only [hee.directive.line, hww.directive.line, shiftLine_le_shiftLine] at hwe hew
      have hnew' := (mem_candidates.1 hcandw).2.1
      have hij := hg.eq_of_line_eq hi hj hnew hnew' (by omega)
      rw [hid, hjd, hij]

theorem ancestorsAt_eq (h : t.Renumbered config s k t') (hg : t.Grown) {a : PragmaLine}
    (ha : a ∈ PragmaLine.scan config.framework s) :
    t'.ancestorsAt (shiftLine k a.line) = t.ancestorsAt a.line := by
  simp only [ancestorsAt, h.parentFor_eq hg ha, ancestors_congr fun i _ => h.parent?_eq i]

theorem append {more more' : List TreeEntry} {u u' : DirectiveTree}
    (h : t.Renumbered config s k t') (hu : u.entries = t.entries ++ more)
    (hu' : u'.entries = t'.entries ++ more')
    (hmore : ∀ i : Nat, Option.Rel (TreeEntry.Renumbered config s k) more[i]? more'[i]?) :
    u.Renumbered config s k u' := by
  intro i
  rw [hu, hu']
  rcases Nat.lt_or_ge i t.entries.length with hi | hi
  · rw [List.getElem?_append_left hi, List.getElem?_append_left (by rwa [h.length_eq])]
    exact h i
  · rw [List.getElem?_append_right hi, List.getElem?_append_right (by rwa [h.length_eq]),
      h.length_eq]
    exact hmore _

theorem graft (h : t.Renumbered config s k t') (hg : t.Grown) {a : PragmaLine}
    (ha : a ∈ PragmaLine.scan config.framework s) {d d' : Directive} {half half' : Option Directive}
    (hline : d.line = a.line) (hd : d.Renumbered config s k d')
    (hhalf : Option.Rel (Directive.Renumbered config s k) half half') :
    (t.graft d half).Renumbered config s k (t'.graft d' half') := by
  refine h.append (entries_graft d half) (entries_graft d' half') fun i => ?_
  have hparent : t'.parentFor d'.line = t.parentFor d.line := by
    rw [hd.line, hline]
    exact h.parentFor_eq hg ha
  unfold scions
  cases i with
  | zero => exact .some ⟨hd, hparent, rfl⟩
  | succ i =>
    simp only [List.getElem?_cons_succ]
    cases hhalf with
    | none => exact .none
    | some hloop =>
      cases i with
      | zero => exact .some ⟨hloop, congrArg (· + 1) h.length_eq, rfl⟩
      | succ i => exact .none

/-- A tree that passes the final check passes it again. -/
theorem validate (h : t.Renumbered config s k t') (hg : t.Grown) (hg' : t'.Grown)
    (hann : ∀ e ∈ t.entries, ∃ a ∈ PragmaLine.scan config.framework s,
      e.directive.line = a.line) (hv : t.validate = .ok ()) : t'.validate = .ok () := by
  rw [hg'.validate_eq_ok_iff]
  intro i w' hw' id hid
  obtain ⟨w, hw, hww⟩ := h.exists_left hw'
  rw [ancestors_congr fun i _ => h.parent?_eq i] at hid
  have hadmits := hg.validate_eq_ok_iff.1 hv i w hw id hid
  by_cases hzero : id = 0
  · subst hzero
    simp [get_zero, root, Directive.root, Directive.admits, Directive.isRoot]
  · obtain ⟨j, p, rfl, hp, -, hcompute⟩ := hg.exists_of_mem_ancestors hid hzero
    obtain ⟨p', hp', hpp⟩ := h.exists_right hp
    obtain ⟨a, ha, hline⟩ := hann w (List.mem_of_getElem? hw)
    rw [get_succ hp] at hadmits
    rw [get_succ hp']
    have hgoverns : p'.directive.governs w'.directive.line =
        p.directive.governs w.directive.line := by
      rw [hww.directive.line, hline, hpp.directive.governs hcompute a ha]
    have hsame : (p'.directive.line == w'.directive.line) =
        (p.directive.line == w.directive.line) := by
      rw [Bool.eq_iff_iff, beq_iff_eq, beq_iff_eq, hpp.directive.line, hww.directive.line,
        shiftLine_inj]
    have hroot : p'.directive.isRoot = p.directive.isRoot := by
      rw [Directive.isRoot, hpp.directive.kind, Directive.isRoot]
    rw [Directive.admits] at hadmits ⊢
    rw [hpp.directive.fused, hsame, hroot, hgoverns]
    exact hadmits

end Renumbered
end DirectiveTree

/-! Whole trees. -/

section

variable {config : Config} {s s' : Source} {k : Nat} {x : Line}

/-- Two trees that grow side by side. -/
structure GrowingAlike (config : Config) (s s' : Source) (k : Nat) (rest : List PragmaLine)
    (t t' : DirectiveTree) : Prop where
  grows : Growing config s rest t
  grows' : Growing config s' (rest.map (PragmaLine.shift k)) t'
  same : t.Renumbered config s k t'

/-- The new line is neither annotation nor marker and does not stand directly behind an
annotation. If it is a comment, it does not stand in the brackets of a statement that begins with
`for`, whether or not a clause reads the header of that statement. -/
structure Ordinary (config : Config) (s : Source) (k : Nat) (x : Line) : Prop where
  annotation : PragmaLine.body? config.framework x.text = none
  opens : config.markers.opens x.text = false
  closes : config.markers.closes x.text = false
  behind : ∀ a ∈ PragmaLine.scan config.framework s, a.line + 1 ≠ k
  header : x.kind = .comment → ¬ s.InForHeader k

theorem GrowingAlike.follows_addTo {a : PragmaLine} {rest : List PragmaLine} {t t' : DirectiveTree}
    (hboth : GrowingAlike config s s' k (a :: rest) t t') (h : Inserted s s' k x)
    (hx : Ordinary config s k x) (hquiet : a.Quiet config s k x) :
    Follows (GrowingAlike config s s' k rest) (a.addTo config s t).outcome
      ((a.shift k).addTo config s' t').outcome := by
  have ha := hboth.grows.scanned a List.mem_cons_self
  have haround : Option.Rel Directive.SameClauses
      (((t.ancestorsAt a.line).map t.get).find? (·.kind.isCompute))
      (((t'.ancestorsAt (a.shift k).line).map t'.get).find? (·.kind.isCompute)) := by
    simp only [PragmaLine.shift, hboth.same.ancestorsAt_eq hboth.grows.grown ha]
    exact hboth.same.find?_map_get _
  have hread := PragmaLine.follows_directives h hx.header hx.opens hx.closes (hx.behind a ha)
    hquiet haround
  intro u hu
  have hstep := hu
  rw [hboth.grows.addTo_outcome, map_eq_ok] at hu
  obtain ⟨⟨d, half⟩, hd, rfl⟩ := hu
  obtain ⟨⟨d', half'⟩, hd', hdd, hhalf⟩ := hread _ hd
  have hstep' : ((a.shift k).addTo config s' t').outcome = .ok (t'.graft d' half') := by
    rw [hboth.grows'.addTo_outcome, hd']
    rfl
  have hline := (PragmaLine.contributes_of_directives hd).line
  exact ⟨_, hstep', hboth.grows.step _ _ _ _ hstep, hboth.grows'.step _ _ _ _ hstep',
    hboth.same.graft hboth.grows.grown ha hline hdd hhalf⟩

/-- A source whose annotations can be read gives the same tree under the new numbers, if no
construct comes to reach over an annotation behind it. -/
theorem follows_growTree (h : Inserted s s' k x) (hx : Ordinary config s k x)
    (hquiet : ∀ a ∈ PragmaLine.scan config.framework s, a.Quiet config s k x) :
    Follows (GrowingAlike config s s' k []) (growTree config s) (growTree config s') := by
  have hscan := PragmaLine.scan_shift h hx.annotation
  unfold growTree
  rw [hscan]
  refine Follows.foldlM (GrowingAlike config s s' k) (fun a rest t t' hboth => ?_) _ ?_
  · exact hboth.follows_addTo h hx (hquiet a (hboth.grows.scanned a List.mem_cons_self))
  · exact ⟨.start config s, hscan ▸ .start config s', fun _ => .none⟩

end

end Offload
