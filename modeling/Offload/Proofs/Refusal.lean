import Offload.Proofs.Complaint

/-!
What reading annotations can fail with. Text that is malformed and clauses out of place are faults of
the input. The only fault of another sort is that a directive escapes a construct above it.
-/
namespace Offload

open Outcome

/-- The error is one of the annotated source. -/
def Error.isInput : Error → Bool
  | .clause _ _ | .malformed _ _ => true
  | _ => false

/-- A computation that fails by errors of the annotated source only. -/
def Refusing {α : Type} (x : Except Error α) : Prop := ∀ e, x = .error e → e.isInput = true

/-- Up to the final check, only the annotated source can be at fault. -/
theorem refusing_growTree (config : Config) (s : Source) : Refusing (growTree config s) := by
  intro e h
  obtain ⟨before, a, behind, tree, -, -, -, hblames⟩ := exists_blames_of_growTree h
  cases hblames <;> rfl

/-- With a proper keyword, a source is read or refused for what it says, unless two constructs cross
over a directive. Then, and only then, reading fails by a fault of another sort: a directive escapes
the region of a construct above it. -/
theorem parseDirectives_fault_iff_crossing (config : Config) (s : Source)
    (hf : PragmaLine.isFramework config.framework = true) :
    (∀ e, (parseDirectives config s).outcome = .error e →
      e.isInput = true ∨ ∃ line above, e = .internal (.escapesAncestor line above)) ∧
    ((∃ e, (parseDirectives config s).outcome = .error e ∧ e.isInput = false) ↔
      ∃ t, growTree config s = .ok t ∧ ∃ p q w, t.Crossing p q w) := by
  rw [parseDirectives_outcome hf]
  cases hgrow : growTree config s with
  | error e =>
    have hinput := refusing_growTree config s e hgrow
    simp [hinput]
  | ok t =>
    have hgrown := (growing_of_growTree hgrow).grown
    have hcheck := hgrown.validate_eq_ok_iff_not_crossing
    cases hv : t.validate with
    | ok =>
      have hnone := hcheck.1 hv
      simp [hv, hnone]
    | error fault =>
      obtain ⟨line, above, rfl⟩ := hgrown.validate_eq_error hv
      have hcross : ∃ p q w, t.Crossing p q w := by
        rw [hv] at hcheck
        simpa using hcheck
      simp [hv, hcross, Error.isInput]

/-- A construct at the end of a block governs the statement behind the block. -/
def crossingSource : Text :=
  "# acc parallel\n#\x7b\n# acc parallel\n#\x7d\nfor i in x:\n    # acc loop\n    for j in y:\n        f(j)"

theorem crossingSource_escapes :
    PragmaLine.isFramework PragmaLine.defaultFramework = true ∧
      ∃ line above, (parseDirectives {} (.ofText Source.defaultTabWidth crossingSource)).outcome =
        .error (.internal (.escapesAncestor line above)) := by
  refine ⟨by decide, ?_⟩
  obtain ⟨t, ht, hx⟩ := exists_of_any (x := growTree {} (.ofText Source.defaultTabWidth crossingSource))
    (p := fun t => t.Crossing 1 2 3) (by decide +kernel)
  obtain ⟨hsort, hiff⟩ := parseDirectives_fault_iff_crossing {}
    (.ofText Source.defaultTabWidth crossingSource) (by decide)
  obtain ⟨e, he, hinput⟩ := hiff.2 ⟨t, ht, 1, 2, 3, of_decide_eq_true hx⟩
  obtain ⟨line, above, rfl⟩ := (hsort e he).resolve_left (by simp [hinput])
  exact ⟨line, above, he⟩

end Offload
