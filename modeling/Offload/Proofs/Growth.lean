import Offload.Directive.Parser
import Offload.Proofs.Nesting
import Offload.Proofs.Outcome

/-!
How reading annotations makes a tree grow. An annotation contributes a directive, and a loop half if
it is fused; putting them into the tree never fails.
-/
namespace Offload

open Outcome

namespace Pragma

/-- An annotation writes no root, and fuses compute constructs only. -/
theorem kind_of_read {body : Text} {p : Pragma} (h : read body = .ok p) :
    p.kind ≠ .root ∧ (p.fused = true → p.kind.isCompute = true) := by
  obtain ⟨tokens, -, h⟩ := bind_eq_ok.1 h
  cases tokens with
  | nil => simp [ofTokens] at h
  | cons first rest =>
    simp only [ofTokens] at h
    split at h
    · simp at h
    · next kind hkind =>
      obtain ⟨argument, -, h⟩ := bind_eq_ok.1 h
      obtain rfl := Except.ok.inj h
      constructor
      · have hmem : kind ∈ DirectiveKind.written := List.mem_of_find?_eq_some hkind
        rintro rfl
        exact absurd hmem (by decide)
      · simp only [takeLoop]
        split
        · split
          · next hc => exact fun _ => hc.1
          · simp
        · simp

end Pragma

namespace Region

theorem start_of_scope {s : Source} {line : Nat} {span : Span} (h : scope s line = .ok span) :
    span.start = line + 1 := by
  unfold scope at h
  split at h
  · simp at h
  · split at h
    · simp at h
    · exact (Except.ok.inj h) ▸ rfl

theorem start_of_block? {m : Markers} {s : Source} {line : Nat} {span : Span}
    (h : block? m s line = .ok (some span)) :
    span.start = line + 2 ∧ ∃ text, s.text? (line + 1) = some text ∧ m.opens text = true := by
  unfold block? at h
  split at h
  · simp at h
  · next text htext =>
    split at h
    · next hopens =>
      split at h
      · simp only [Except.ok.injEq, Option.some.injEq] at h
        exact ⟨h ▸ rfl, text, htext, hopens⟩
      · simp at h
    · simp at h

/-- A region starts behind its annotation, or behind the marker that follows the annotation. -/
theorem start_of_find {m : Markers} {s : Source} {kind : DirectiveKind} {line : Nat} {r : Region}
    (h : find m s kind line = .ok (some r)) :
    r.span.start = line + 1 ∨
      r.span.start = line + 2 ∧ ∃ text, s.text? (line + 1) = some text ∧ m.opens text = true := by
  unfold find at h
  split at h
  · simp at h
  · obtain ⟨span, hspan, h⟩ := bind_eq_ok.1 h
    simp only [pure, Except.pure, Except.ok.injEq, Option.some.injEq] at h
    exact .inl (h ▸ start_of_scope hspan)
  · obtain ⟨block, hblock, h⟩ := bind_eq_ok.1 h
    cases block with
    | some span =>
      simp only [pure, Except.pure, Except.ok.injEq, Option.some.injEq] at h
      exact .inr (h ▸ start_of_block? hblock)
    | none =>
      obtain ⟨span, hspan, h⟩ := bind_eq_ok.1 h
      simp only [pure, Except.pure, Except.ok.injEq, Option.some.injEq] at h
      exact .inl (h ▸ start_of_scope hspan)

end Region

namespace PragmaLine

theorem start_of_region {config : Config} {s : Source} {line : Nat} {p : Pragma} {r : Region}
    (h : region config s line p = .ok (some r)) :
    r.span.start = line + 1 ∨
      r.span.start = line + 2 ∧
        ∃ text, s.text? (line + 1) = some text ∧ config.markers.opens text = true := by
  unfold region at h
  split at h
  · obtain ⟨span, hspan, h⟩ := bind_eq_ok.1 h
    simp only [pure, Except.pure, Except.ok.injEq, Option.some.injEq] at h
    exact .inl (h ▸ Region.start_of_scope hspan)
  · exact Region.start_of_find h

end PragmaLine

namespace DirectiveTree

theorem insert_eq_ok {t : DirectiveTree} {d : Directive} (hkind : d.kind ≠ .root)
    (hline : d.line < t.lineCount) (hfree : t.atLine? d.line = none) :
    t.insert d = .ok (t.put d) := by
  have hroot : d.isRoot = false := by simpa [Directive.isRoot] using hkind
  rw [insert, hroot, if_neg (by simp), if_neg (by omega), hfree]

theorem put_snd (t : DirectiveTree) (d : Directive) : (t.put d).2 = t.entries.length + 1 := rfl

theorem atLine?_eq_none {t : DirectiveTree} {line : Nat}
    (h : ∀ e ∈ t.entries, e.directive.line < line) : t.atLine? line = none := by
  simp only [atLine?, Option.map_eq_none_iff, List.find?_eq_none]
  rintro ⟨e, id⟩ he
  obtain ⟨i, -, hi⟩ := mem_numbered.1 he
  have := h e (List.mem_of_getElem? hi)
  simp only [Bool.and_eq_true, beq_iff_eq, not_and]
  intro
  omega

theorem attach_put {t : DirectiveTree} {d half : Directive} (hc : d.kind.isCompute = true)
    (hline : d.line = half.line) (hregion : d.region = half.region) :
    (t.put d).1.attach (t.entries.length + 1) half =
      .ok (t.graft d (some half), t.entries.length + 2) := by
  have hle : t.entries.length + 1 ≤ (t.put d).1.entries.length :=
    Nat.le_of_eq (t.length_entries_put d).symm
  have hget : (t.put d).1.get (t.entries.length + 1) = d :=
    get_succ (e := ⟨d, t.parentFor d.line, false⟩) (by simp [entries_put])
  unfold attach
  rw [dif_pos hle]
  simp only [hget]
  rw [if_pos ⟨hc, hline, hregion⟩]
  simp [graft, push, length_entries_put]

end DirectiveTree

namespace PragmaLine

variable {config : Config} {s : Source} {a : PragmaLine} {around : List Directive} {d : Directive}
  {half : Option Directive}

/-- The directive is what the annotation says, apart from the clauses. -/
structure Yields (config : Config) (s : Source) (a : PragmaLine) (d : Directive) : Prop where
  line : d.line = a.line
  read : ∃ p found, Pragma.read a.body = .ok p ∧ PragmaLine.region config s a.line p = .ok found ∧
    d.kind = p.kind ∧ d.region = found.map Region.span ∧ d.delimited = found.any Region.delimited

/-- What an annotation contributes to a tree. -/
structure Contributes (config : Config) (s : Source) (a : PragmaLine) (d : Directive)
    (half : Option Directive) : Prop extends Yields config s a d where
  written : d.kind ≠ .root
  halves : ∀ loop ∈ half, DirectiveTree.Halves d loop

theorem contributes_of_directives (h : (a.directives config s around).outcome = .ok (d, half)) :
    Contributes config s a d half := by
  simp only [directives, Logged.outcome_bind, Logged.outcome_lift, Logged.outcome_log, ok_bind] at h
  obtain ⟨p, hp, h⟩ := bind_eq_ok.1 h
  obtain ⟨found, hfound, h⟩ := bind_eq_ok.1 h
  obtain ⟨hroot, hcompute⟩ := Pragma.kind_of_read (mapError_eq_ok.1 hp)
  have hregion := mapError_eq_ok.1 hfound
  split at h
  · next hfused =>
    simp only [Logged.outcome_bind, Logged.outcome_pure] at h
    obtain ⟨clauses, -, h⟩ := bind_eq_ok.1 h
    obtain ⟨loopClauses, -, h⟩ := bind_eq_ok.1 h
    simp only [Except.ok.injEq, Prod.mk.injEq] at h
    obtain ⟨rfl, rfl⟩ := h
    refine ⟨⟨rfl, p, found, mapError_eq_ok.1 hp, hregion, rfl, rfl, rfl⟩, hroot, ?_⟩
    rintro loop hloop
    obtain rfl := Option.some.inj hloop
    exact ⟨hcompute hfused, rfl, rfl, rfl, hfused, rfl⟩
  · simp only [Logged.outcome_bind, Logged.outcome_pure] at h
    obtain ⟨clauses, -, h⟩ := bind_eq_ok.1 h
    simp only [Except.ok.injEq, Prod.mk.injEq] at h
    obtain ⟨rfl, rfl⟩ := h
    exact ⟨⟨rfl, p, found, mapError_eq_ok.1 hp, hregion, rfl, rfl, rfl⟩, hroot, by simp⟩

/-- Behind all other directives, what an annotation contributes is put into the tree as it is. -/
theorem addTo_outcome {t : DirectiveTree} (hline : a.line < t.lineCount)
    (hnew : ∀ e ∈ t.entries, e.directive.line < a.line) :
    (a.addTo config s t).outcome =
      (a.directives config s ((t.ancestorsAt a.line).map t.get)).outcome.map fun (d, half) =>
        t.graft d half := by
  simp only [addTo, Logged.outcome_bind]
  cases h : (a.directives config s ((t.ancestorsAt a.line).map t.get)).outcome with
  | error e => rfl
  | ok pair =>
    obtain ⟨d, half⟩ := pair
    have hd := contributes_of_directives h
    have hinsert : (t.insertLogged d).outcome =
        .ok (t.put d) := by
      have hfree := DirectiveTree.atLine?_eq_none hnew
      rw [← hd.line] at hline hfree
      simp [DirectiveTree.insertLogged, DirectiveTree.insert_eq_ok hd.written hline hfree]
    simp only [ok_bind, hinsert, Except.map]
    cases half with
    | none => rfl
    | some loop =>
      have hh := hd.halves loop rfl
      have hattach := DirectiveTree.attach_put (t := t) hh.compute hh.line.symm hh.region.symm
      simp [DirectiveTree.attachLogged, DirectiveTree.put_snd, hattach]

/-! Annotations of a source. -/

theorem mem_scan {framework : Text} :
    a ∈ scan framework s ↔ ∃ line, s.lines[a.line]? = some line ∧ line.inString = false ∧
      line.text = a.text ∧ body? framework line.text = some a.body := by
  simp only [scan, List.mem_filterMap, Prod.exists]
  constructor
  · rintro ⟨line, i, hmem, h⟩
    have hi := List.mk_mem_zipIdx_iff_getElem?.1 hmem
    split at h
    · simp at h
    · next hstring =>
      obtain ⟨body, hbody, rfl⟩ := Option.map_eq_some_iff.1 h
      exact ⟨line, hi, by simpa using hstring, rfl, hbody⟩
  · rintro ⟨line, hline, hstring, htext, hbody⟩
    refine ⟨line, a.line, List.mk_mem_zipIdx_iff_getElem?.2 hline, ?_⟩
    rw [if_neg (by simp [hstring]), hbody, htext]
    rfl

theorem line_lt_of_mem_scan {framework : Text} (h : a ∈ scan framework s) : a.line < s.size := by
  obtain ⟨line, hline, -⟩ := mem_scan.1 h
  exact (List.getElem?_eq_some_iff.1 hline).1

theorem pairwise_scan (framework : Text) (s : Source) :
    (scan framework s).Pairwise fun a b => a.line < b.line := by
  have hidx : s.lines.zipIdx.Pairwise fun x y => x.2 < y.2 := by
    rw [← List.pairwise_map, List.zipIdx_map_snd]
    exact List.pairwise_lt_range'
  refine List.Pairwise.filterMap _ ?_ hidx
  rintro ⟨line, i⟩ ⟨line', i'⟩ hlt a ha b hb
  simp only [Option.ite_none_left_eq_some, Option.map_eq_some_iff] at ha hb
  obtain ⟨-, body, -, rfl⟩ := ha
  obtain ⟨-, body', -, rfl⟩ := hb
  exact hlt

end PragmaLine

/-! Whole trees. -/

/-- The tree of all annotations before the final check. -/
def growTree (config : Config) (s : Source) : Except Error DirectiveTree :=
  (PragmaLine.scan config.framework s).foldlM (fun t a => (a.addTo config s t).outcome)
    (.empty s.size)

theorem parseDirectives_outcome {config : Config} {s : Source}
    (hf : PragmaLine.isFramework config.framework = true) :
    (parseDirectives config s).outcome =
      growTree config s >>= fun t => t.validate.mapError .internal >>= fun _ => .ok t := by
  simp [parseDirectives, PragmaLine.checkFramework, hf, growTree]

/-- A directive comes from an annotation, which determines its line and region. -/
def Directive.Annotated (config : Config) (s : Source) (d : Directive) : Prop :=
  ∃ a ∈ PragmaLine.scan config.framework s, d.line = a.line ∧
    ∃ p found, PragmaLine.region config s a.line p = .ok found ∧ d.region = found.map Region.span

/-- What holds of a tree while annotations are still to be read. -/
structure Growing (config : Config) (s : Source) (rest : List PragmaLine) (t : DirectiveTree) :
    Prop where
  grown : t.Grown
  lineCount : t.lineCount = s.size
  annotated : ∀ e ∈ t.entries, e.directive.Annotated config s
  scanned : ∀ a ∈ rest, a ∈ PragmaLine.scan config.framework s
  ordered : rest.Pairwise fun a b => a.line < b.line
  behind : ∀ e ∈ t.entries, ∀ a ∈ rest, e.directive.line < a.line
  covered : ∀ a ∈ PragmaLine.scan config.framework s, a ∈ rest ∨
    ∃ e ∈ t.entries, e.attached = false ∧ a.Yields config s e.directive

namespace Growing

variable {config : Config} {s : Source} {t : DirectiveTree} {a : PragmaLine} {rest : List PragmaLine}

theorem start (config : Config) (s : Source) :
    Growing config s (PragmaLine.scan config.framework s) (.empty s.size) where
  grown := DirectiveTree.grown_empty s.size
  lineCount := rfl
  annotated := by simp [DirectiveTree.empty]
  scanned := fun _ => id
  ordered := PragmaLine.pairwise_scan _ s
  behind := by simp [DirectiveTree.empty]
  covered := fun _ => .inl

theorem addTo_outcome (h : Growing config s (a :: rest) t) :
    (a.addTo config s t).outcome =
      (a.directives config s ((t.ancestorsAt a.line).map t.get)).outcome.map fun (d, half) =>
        t.graft d half :=
  PragmaLine.addTo_outcome
    (h.lineCount ▸ PragmaLine.line_lt_of_mem_scan (h.scanned a List.mem_cons_self))
    fun e he => h.behind e he a List.mem_cons_self

theorem graft (h : Growing config s (a :: rest) t) {d : Directive} {half : Option Directive}
    (hd : PragmaLine.Contributes config s a d half) : Growing config s rest (t.graft d half) := by
  have hscan := h.scanned a List.mem_cons_self
  have hordered := List.pairwise_cons.1 h.ordered
  obtain ⟨p, found, -, hregion, -, hspan, -⟩ := hd.read
  have hbelow : ∀ r, d.region = some r → d.line < r.start := by
    intro r hr
    rw [hspan, Option.map_eq_some_iff] at hr
    obtain ⟨region, rfl, rfl⟩ := hr
    rcases PragmaLine.start_of_region hregion with hstart | ⟨hstart, -⟩ <;>
      rw [hd.line, hstart] <;> omega
  -- The lines of the new entries are that of the annotation.
  have hscions : ∀ e ∈ t.scions d half, e.directive.line = a.line ∧
      e.directive.region = d.region := by
    intro e he
    rcases List.mem_cons.1 he with rfl | he
    · exact ⟨hd.line, rfl⟩
    · simp only [Option.mem_toList, Option.map_eq_some_iff] at he
      obtain ⟨loop, hloop, rfl⟩ := he
      have hh := hd.halves loop hloop
      exact ⟨hh.line.trans hd.line, hh.region⟩
  constructor
  · refine h.grown.graft hd.written ?_ hbelow hd.halves ?_
    · rw [hd.line, h.lineCount]
      exact PragmaLine.line_lt_of_mem_scan hscan
    · rw [hd.line]
      exact fun e he => h.behind e he a List.mem_cons_self
  · rw [DirectiveTree.lineCount_graft, h.lineCount]
  · intro e he
    rw [DirectiveTree.entries_graft, List.mem_append] at he
    rcases he with he | he
    · exact h.annotated e he
    · obtain ⟨hline, hr⟩ := hscions e he
      exact ⟨a, hscan, hline, p, found, hregion, hr.trans hspan⟩
  · exact fun b hb => h.scanned b (List.mem_cons_of_mem _ hb)
  · exact hordered.2
  · intro e he b hb
    rw [DirectiveTree.entries_graft, List.mem_append] at he
    rcases he with he | he
    · exact h.behind e he b (List.mem_cons_of_mem _ hb)
    · rw [(hscions e he).1]
      exact hordered.1 b hb
  · intro b hb
    rw [DirectiveTree.entries_graft]
    rcases h.covered b hb with hb | ⟨e, he, hcovers⟩
    · rcases List.mem_cons.1 hb with rfl | hb
      · exact .inr ⟨⟨d, t.parentFor d.line, false⟩,
          List.mem_append_right _ List.mem_cons_self, rfl, hd.toYields⟩
      · exact .inl hb
    · exact .inr ⟨e, List.mem_append_left _ he, hcovers⟩

theorem step (a : PragmaLine) (rest : List PragmaLine) (t t' : DirectiveTree)
    (h : Growing config s (a :: rest) t) (ht : (a.addTo config s t).outcome = .ok t') :
    Growing config s rest t' := by
  rw [h.addTo_outcome, map_eq_ok] at ht
  obtain ⟨⟨d, half⟩, hd, rfl⟩ := ht
  exact h.graft (PragmaLine.contributes_of_directives hd)

end Growing

theorem growing_of_growTree {config : Config} {s : Source} {t : DirectiveTree}
    (h : growTree config s = .ok t) : Growing config s [] t :=
  foldlM_ok (Growing config s) Growing.step (.start config s) h

end Offload
