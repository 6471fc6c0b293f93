import Offload.Proofs.Growth

/-!
Ancestors and regions. With markers that are not annotations themselves, a construct stands above a
directive exactly when its region contains the directive's line or the two share an annotation.
-/
namespace Offload

open Outcome

namespace Text

theorem exists_dropEndWhile_append (p : Char → Bool) (t : Text) :
    ∃ rest, t = dropEndWhile p t ++ rest := by
  refine ⟨(t.reverse.takeWhile p).reverse, ?_⟩
  rw [dropEndWhile, ← List.reverse_append, List.takeWhile_append_dropWhile, List.reverse_reverse]

theorem exists_trim_append (t : Text) : ∃ rest, trimStart t = trim t ++ rest :=
  exists_dropEndWhile_append isBlank (trimStart t)

end Text

/-- A line with a marker that does not start like an annotation is none. -/
theorem PragmaLine.body?_eq_none_of_isMarker {framework marker line : Text} {c : Char} {cs : Text}
    (h : Markers.isMarker marker line = true) (hmarker : marker = c :: cs)
    (hpragma : ∀ rest, Text.after? "pragma" (c :: rest) = none)
    (hkeyword : ∀ rest, Text.after? framework (c :: rest) = none) :
    body? framework line = none := by
  simp only [Markers.isMarker] at h
  split at h
  · next rest hrest =>
    have htrim : Text.trim rest = c :: cs := by simpa [hmarker] using h
    obtain ⟨tail, htail⟩ := Text.exists_trim_append line
    obtain ⟨tail', htail'⟩ := Text.exists_trim_append rest
    rw [hrest] at htail
    rw [htrim] at htail'
    have hstart : Text.trimStart (rest ++ tail) = c :: (cs ++ tail' ++ tail) := by
      unfold Text.trimStart at htail' ⊢
      rw [List.dropWhile_append, htail']
      simp
    rw [body?, htail]
    simp only [List.cons_append, hstart, afterPragma?, afterKeyword?, hpragma, hkeyword]
    rfl
  · simp at h

/-- The opening marker does not stand on a line that is an annotation. -/
def Config.MarkersApart (config : Config) : Prop :=
  ∀ line, config.markers.opens line = true → PragmaLine.body? config.framework line = none

theorem Config.markersApart_default : ({} : Config).MarkersApart := fun _ h =>
  PragmaLine.body?_eq_none_of_isMarker h rfl (fun _ => rfl) fun _ => rfl

/-- Regions start behind the annotation, or behind a marker that is no annotation. -/
theorem Growing.snug {config : Config} {s : Source} {rest : List PragmaLine} {t : DirectiveTree}
    (h : Growing config s rest t) (hm : config.MarkersApart) : t.Snug := by
  intro i j p w r hp hw hr hlt
  obtain ⟨a, -, hpa, pragma, found, hregion, hspan⟩ := h.annotated p (List.mem_of_getElem? hp)
  obtain ⟨b, hb, hwb, -⟩ := h.annotated w (List.mem_of_getElem? hw)
  rw [hr, eq_comm, Option.map_eq_some_iff] at hspan
  obtain ⟨region, rfl, rfl⟩ := hspan
  rcases PragmaLine.start_of_region hregion with hstart | ⟨hstart, text, htext, hopens⟩
  · omega
  · by_cases hnext : w.directive.line = p.directive.line + 1
    · obtain ⟨line, hline, -, -, hbody⟩ := PragmaLine.mem_scan.1 hb
      have hsame : line.text = text := by
        rw [← hwb, hnext, hpa] at hline
        simpa [Source.text?, hline] using htext
      rw [hsame, hm text hopens] at hbody
      exact absurd hbody (by simp)
    · omega

theorem isFramework_of_parseDirectives {config : Config} {s : Source} {t : DirectiveTree}
    (h : (parseDirectives config s).outcome = .ok t) :
    PragmaLine.isFramework config.framework = true := by
  cases hf : PragmaLine.isFramework config.framework with
  | true => rfl
  | false => simp [parseDirectives, PragmaLine.checkFramework, hf] at h

theorem exists_growTree_of_parseDirectives {config : Config} {s : Source} {t : DirectiveTree}
    (h : (parseDirectives config s).outcome = .ok t) :
    growTree config s = .ok t ∧ t.validate = .ok () := by
  rw [parseDirectives_outcome (isFramework_of_parseDirectives h), bind_eq_ok] at h
  obtain ⟨tree, htree, h⟩ := h
  obtain ⟨_, hv, h⟩ := bind_eq_ok.1 h
  obtain rfl := Except.ok.inj h
  exact ⟨htree, mapError_eq_ok.1 hv⟩

/-- The tree mirrors the nesting of lines: the compute constructs above a directive are those whose
region contains its line, and the construct whose loop half it is. -/
theorem ancestor_iff_region_contains {source : Text} {tree : DirectiveTree}
    (h : (parseDirectives {} (.ofText Source.defaultTabWidth source)).outcome = .ok tree)
    {p w : Nat} {construct d : Directive} (hp : tree.get? p = some construct)
    (hw : tree.get? w = some d) (hc : construct.kind.isCompute = true) (hroot : w ≠ 0)
    (hne : p ≠ w) :
    p ∈ tree.ancestors w ↔
      construct.governs d.line = true ∨ d.isLoopHalfOf construct = true := by
  obtain ⟨htree, hv⟩ := exists_growTree_of_parseDirectives h
  have hgrowing := growing_of_growTree htree
  obtain ⟨j, rfl⟩ := Nat.exists_eq_succ_of_ne_zero hroot
  cases p with
  | zero =>
    rw [DirectiveTree.get?_zero, Option.some.injEq] at hp
    subst hp
    simp [DirectiveTree.root, Directive.root, DirectiveKind.isCompute] at hc
  | succ i =>
    rw [DirectiveTree.get?_succ, Option.map_eq_some_iff] at hp hw
    obtain ⟨ep, hep, rfl⟩ := hp
    obtain ⟨ew, hew, rfl⟩ := hw
    exact hgrowing.grown.mem_ancestors_iff_governs
      (hgrowing.snug Config.markersApart_default) hv hep hew hc (by omega)

/-- A fused construct with a directive inside it, all in the block of another construct, and a
directive behind the block. -/
def nestedSource : Text :=
  "# acc parallel\n#\x7b\n# acc kernels loop\nfor i in x:\n    # acc wait\n    y\n#\x7d\n# acc wait"

theorem nestedSource_ancestors :
    ∃ tree, (parseDirectives {} (.ofText Source.defaultTabWidth nestedSource)).outcome = .ok tree ∧
      1 ∈ tree.ancestors 4 ∧ 2 ∈ tree.ancestors 3 ∧ 1 ∉ tree.ancestors 5 := by
  have hcheck : ((parseDirectives {} (.ofText Source.defaultTabWidth nestedSource)).outcome.toOption.any
      fun t => t.size == 6 && (t.get 1).kind.isCompute && (t.get 2).kind.isCompute &&
        (t.get 1).governs (t.get 4).line && (t.get 3).isLoopHalfOf (t.get 2) &&
        !(t.get 1).governs (t.get 5).line && !(t.get 5).isLoopHalfOf (t.get 1)) = true := by
    decide +kernel
  obtain ⟨tree, htree, hp⟩ := exists_of_any hcheck
  simp only [Bool.and_eq_true, beq_iff_eq, Bool.not_eq_true'] at hp
  obtain ⟨⟨⟨⟨⟨⟨hsize, hc1⟩, hc2⟩, hgov⟩, hhalf⟩, hout⟩, hother⟩ := hp
  have hget : ∀ id < 6, tree.get? id = some (tree.get id) := fun id hid =>
    DirectiveTree.get?_eq_get (hsize ▸ hid)
  refine ⟨tree, htree, ?_, ?_, ?_⟩
  · exact (ancestor_iff_region_contains htree (hget 1 (by decide)) (hget 4 (by decide)) hc1
      (by decide) (by decide)).2 (.inl hgov)
  · exact (ancestor_iff_region_contains htree (hget 2 (by decide)) (hget 3 (by decide)) hc2
      (by decide) (by decide)).2 (.inr hhalf)
  · rw [ancestor_iff_region_contains htree (hget 1 (by decide)) (hget 5 (by decide)) hc1
      (by decide) (by decide)]
    simp [hout, hother]

end Offload
