import Offload.Logged

/-! Computations in `Except`, taken apart by what they give. -/
namespace Offload

@[simp] theorem Logged.outcome_lift {ε α : Type} (x : Except ε α) :
    (liftM x : Logged ε α).outcome = x := rfl

@[simp] theorem Logged.outcome_mapError {ε ε' α : Type} (f : ε → ε') (x : Logged ε α) :
    (x.mapError f).outcome = x.outcome.mapError f := rfl

namespace Outcome

variable {ε ε' α β : Type}

@[simp] theorem ok_bind (a : α) (f : α → Except ε β) : (Except.ok a >>= f) = f a := rfl

@[simp] theorem error_bind (e : ε) (f : α → Except ε β) : (Except.error e >>= f) = .error e := rfl

@[simp] theorem mapError_ok (f : ε → ε') (a : α) : (Except.ok a).mapError f = .ok a := rfl

@[simp] theorem mapError_error (f : ε → ε') (e : ε) :
    (Except.error e : Except ε α).mapError f = .error (f e) := rfl

theorem bind_eq_ok {x : Except ε α} {f : α → Except ε β} {b : β} :
    x >>= f = .ok b ↔ ∃ a, x = .ok a ∧ f a = .ok b := by
  cases x <;> simp

theorem bind_eq_error {x : Except ε α} {f : α → Except ε β} {e : ε} :
    x >>= f = .error e ↔ x = .error e ∨ ∃ a, x = .ok a ∧ f a = .error e := by
  cases x <;> simp

theorem mapError_eq_ok {f : ε → ε'} {x : Except ε α} {a : α} :
    x.mapError f = .ok a ↔ x = .ok a := by
  cases x <;> simp

theorem mapError_eq_error {f : ε → ε'} {x : Except ε α} {e : ε'} :
    x.mapError f = .error e ↔ ∃ cause, x = .error cause ∧ f cause = e := by
  cases x <;> simp

theorem map_eq_ok {f : α → β} {x : Except ε α} {b : β} :
    x.map f = .ok b ↔ ∃ a, x = .ok a ∧ f a = b := by
  cases x <;> simp [Except.map]

theorem map_eq_error {f : α → β} {x : Except ε α} {e : ε} :
    x.map f = .error e ↔ x = .error e := by
  cases x <;> simp [Except.map]

/-- A result that passes a check is there, and passes it. -/
theorem exists_of_any {x : Except ε α} {p : α → Bool} (h : x.toOption.any p = true) :
    ∃ a, x = .ok a ∧ p a = true := by
  cases x with
  | error e => simp [Except.toOption] at h
  | ok a => exact ⟨a, rfl, by simpa [Except.toOption] using h⟩

theorem eq_ok_of_toOption {x : Except ε α} {a : α} (h : x.toOption = some a) : x = .ok a := by
  cases x with
  | error e => simp [Except.toOption] at h
  | ok b => rw [Option.some.inj h]

/-- What holds before a fold, and is kept by each of its steps, holds of its result. The invariant
also speaks of the elements that are still to come. -/
theorem foldlM_ok {f : β → α → Except ε β} (inv : List α → β → Prop)
    (step : ∀ a as b b', inv (a :: as) b → f b a = .ok b' → inv as b') {as : List α} {b b' : β}
    (hb : inv as b) (h : as.foldlM f b = .ok b') : inv [] b' := by
  induction as generalizing b with
  | nil =>
    obtain rfl : b = b' := Except.ok.inj h
    exact hb
  | cons a as ih =>
    rw [List.foldlM_cons, bind_eq_ok] at h
    obtain ⟨next, hnext, hrest⟩ := h
    exact ih (step a as b next hb hnext) hrest

theorem exists_of_mem_mapM {f : α → Except ε β} {as : List α} {bs : List β} {b : β}
    (h : as.mapM f = .ok bs) (hb : b ∈ bs) : ∃ a ∈ as, f a = .ok b := by
  induction as generalizing bs with
  | nil =>
    obtain rfl := Except.ok.inj h
    simp at hb
  | cons a as ih =>
    rw [List.mapM_cons] at h
    obtain ⟨first, hfirst, h⟩ := bind_eq_ok.1 h
    obtain ⟨rest, hrest, h⟩ := bind_eq_ok.1 h
    obtain rfl := Except.ok.inj h
    rcases List.mem_cons.1 hb with rfl | hb
    · exact ⟨a, List.mem_cons_self, hfirst⟩
    · obtain ⟨a', ha', hfa'⟩ := ih hrest hb
      exact ⟨a', List.mem_cons_of_mem _ ha', hfa'⟩

theorem length_of_mapM {f : α → Except ε β} {as : List α} {bs : List β} (h : as.mapM f = .ok bs) :
    bs.length = as.length := by
  induction as generalizing bs with
  | nil =>
    obtain rfl := Except.ok.inj h
    rfl
  | cons a as ih =>
    rw [List.mapM_cons] at h
    obtain ⟨first, -, h⟩ := bind_eq_ok.1 h
    obtain ⟨rest, hrest, h⟩ := bind_eq_ok.1 h
    obtain rfl := Except.ok.inj h
    rw [List.length_cons, List.length_cons, ih hrest]

/-- The failures of a fold are those of its steps. -/
theorem foldlM_error {f : β → α → Except ε β} (inv : List α → β → Prop) (bad : ε → Prop)
    (step : ∀ a as b b', inv (a :: as) b → f b a = .ok b' → inv as b')
    (fails : ∀ a as b e, inv (a :: as) b → f b a = .error e → bad e) {as : List α} {b : β} {e : ε}
    (hb : inv as b) (h : as.foldlM f b = .error e) : bad e := by
  induction as generalizing b with
  | nil => exact absurd h nofun
  | cons a as ih =>
    rw [List.foldlM_cons, bind_eq_error] at h
    rcases h with h | ⟨next, hnext, hrest⟩
    · exact fails a as b e hb h
    · exact ih (step a as b next hb hnext) hrest

/-! What a computation fails with. -/

/-- All failures of the computation are of the given sort. -/
def FailsWith (P : ε → Prop) (x : Except ε α) : Prop := ∀ e, x = .error e → P e

namespace FailsWith

variable {P : ε → Prop}

theorem ok (a : α) : FailsWith P (.ok a) := by
  intro e h
  simp at h

theorem error {e : ε} (h : P e) : FailsWith P (.error e : Except ε α) := by
  intro cause hcause
  rw [← Except.error.inj hcause]
  exact h

theorem mapError {P : ε' → Prop} {f : ε → ε'} (h : ∀ e, P (f e)) (x : Except ε α) :
    FailsWith P (x.mapError f) := by
  intro e he
  obtain ⟨cause, -, rfl⟩ := mapError_eq_error.1 he
  exact h cause

/-- What follows may use that the first computation has given its result. -/
theorem bind_of_eq {x : Except ε α} {f : α → Except ε β} (hx : FailsWith P x)
    (hf : ∀ a, x = .ok a → FailsWith P (f a)) : FailsWith P (x >>= f) := by
  intro e h
  rcases bind_eq_error.1 h with h | ⟨a, ha, h⟩
  · exact hx e h
  · exact hf a ha e h

theorem bind {x : Except ε α} {f : α → Except ε β} (hx : FailsWith P x)
    (hf : ∀ a, FailsWith P (f a)) : FailsWith P (x >>= f) := hx.bind_of_eq fun a _ => hf a

theorem map {x : Except ε α} {f : α → β} (hx : FailsWith P x) : FailsWith P (x.map f) :=
  fun e h => hx e (map_eq_error.1 h)

theorem mapM {f : α → Except ε β} {as : List α} (hf : ∀ a ∈ as, FailsWith P (f a)) :
    FailsWith P (as.mapM f) := by
  induction as with
  | nil => exact ok []
  | cons a as ih =>
    obtain ⟨ha, has⟩ := List.forall_mem_cons.1 hf
    rw [List.mapM_cons]
    exact bind ha fun b => bind (ih has) fun bs => ok (b :: bs)

theorem foldlM {f : β → α → Except ε β} (hf : ∀ b a, FailsWith P (f b a)) (as : List α) (b : β) :
    FailsWith P (as.foldlM f b) := fun _ h =>
  foldlM_error (fun _ _ => True) P (fun _ _ _ _ _ _ => trivial) (fun a _ b e _ h => hf b a e h)
    trivial h

end FailsWith

/-- A fold that fails does so at one element, behind others that give a result. -/
theorem exists_of_foldlM_error {f : β → α → Except ε β} {as : List α} {b : β} {e : ε}
    (h : as.foldlM f b = .error e) :
    ∃ before a behind b', as = before ++ a :: behind ∧ before.foldlM f b = .ok b' ∧
      f b' a = .error e := by
  induction as generalizing b with
  | nil => exact absurd h nofun
  | cons a as ih =>
    rw [List.foldlM_cons, bind_eq_error] at h
    rcases h with h | ⟨next, hnext, hrest⟩
    · exact ⟨[], a, as, b, rfl, rfl, h⟩
    · obtain ⟨before, c, behind, b', rfl, hbefore, hfails⟩ := ih hrest
      refine ⟨a :: before, c, behind, b', rfl, ?_, hfails⟩
      rw [List.foldlM_cons, hnext, ok_bind, hbefore]

/-! Two computations side by side. -/

/-- Where the first computation succeeds, so does the second, and the results are related. -/
def Follows {β : Type} (R : α → β → Prop) (x : Except ε α) (y : Except ε β) : Prop :=
  ∀ a, x = .ok a → ∃ b, y = .ok b ∧ R a b

namespace Follows

variable {α' β' : Type} {R : α → α' → Prop} {S : β → β' → Prop}

theorem ok {a : α} {a' : α'} (h : R a a') : Follows R (.ok a : Except ε α) (.ok a') := by
  rintro b ⟨⟩
  exact ⟨a', rfl, h⟩

theorem error (e : ε) (y : Except ε α') : Follows R (.error e) y := by
  intro a h
  simp at h

theorem mono {R' : α → α' → Prop} {x : Except ε α} {y : Except ε α'} (h : Follows R x y)
    (hR : ∀ a a', R a a' → R' a a') : Follows R' x y := by
  intro a hx
  obtain ⟨b, hy, hab⟩ := h a hx
  exact ⟨b, hy, hR a b hab⟩

/-- What follows may use that the first computation has given its result. -/
theorem bind_of_eq {x : Except ε α} {y : Except ε α'} {f : α → Except ε β}
    {g : α' → Except ε β'} (hx : Follows R x y)
    (hf : ∀ a a', x = .ok a → R a a' → Follows S (f a) (g a')) :
    Follows S (x >>= f) (y >>= g) := by
  intro b h
  obtain ⟨a, ha, hb⟩ := bind_eq_ok.1 h
  obtain ⟨a', hy, haa⟩ := hx a ha
  obtain ⟨b', hg, hbb⟩ := hf a a' ha haa b hb
  exact ⟨b', bind_eq_ok.2 ⟨a', hy, hg⟩, hbb⟩

theorem bind {x : Except ε α} {y : Except ε α'} {f : α → Except ε β} {g : α' → Except ε β'}
    (hx : Follows R x y) (hf : ∀ a a', R a a' → Follows S (f a) (g a')) :
    Follows S (x >>= f) (y >>= g) := hx.bind_of_eq fun a a' _ => hf a a'

theorem map {x : Except ε α} {y : Except ε α'} {f : α → β} {g : α' → β'} (hx : Follows R x y)
    (hf : ∀ a a', R a a' → S (f a) (g a')) : Follows S (x.map f) (y.map g) := by
  intro b h
  obtain ⟨a, ha, rfl⟩ := map_eq_ok.1 h
  obtain ⟨a', hy, haa⟩ := hx a ha
  exact ⟨g a', map_eq_ok.2 ⟨a', hy, rfl⟩, hf a a' haa⟩

/-- The two computations may fail in different words. -/
theorem mapError {x : Except ε α} {y : Except ε α'} (f g : ε → ε') (h : Follows R x y) :
    Follows R (x.mapError f) (y.mapError g) := by
  intro a ha
  obtain ⟨b, hy, hab⟩ := h a (mapError_eq_ok.1 ha)
  exact ⟨b, mapError_eq_ok.2 hy, hab⟩

theorem refl (x : Except ε α) : Follows Eq x x := fun a h => ⟨a, h, rfl⟩

/-- Folds over lists of which the second is the image of the first. -/
theorem foldlM {γ γ' : Type} {f : β → γ → Except ε β} {g : β' → γ' → Except ε β'} {m : γ → γ'}
    (inv : List γ → β → β' → Prop)
    (step : ∀ c cs b b', inv (c :: cs) b b' → Follows (inv cs) (f b c) (g b' (m c)))
    (cs : List γ) {b : β} {b' : β'} (hb : inv cs b b') :
    Follows (inv []) (cs.foldlM f b) ((cs.map m).foldlM g b') := by
  induction cs generalizing b b' with
  | nil => exact ok hb
  | cons c cs ih =>
    rw [List.map_cons, List.foldlM_cons, List.foldlM_cons]
    exact bind (step c cs b b' hb) fun next next' hnext => ih hnext

end Follows

end Outcome
end Offload
