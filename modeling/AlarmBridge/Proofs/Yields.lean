/-! What the results of a reader have in common, whatever it reads, and how a reader goes on after
another. -/

set_option autoImplicit false

namespace AlarmBridge

variable {σ ε α β : Type} {x : StateT σ (Except ε) α} {f : α → StateT σ (Except ε) β}

/-- What comes after a reader goes on where that one stopped. -/
theorem run_bind_of_ok {s t : σ} {a : α} (h : x.run s = .ok (a, t))
    (f : α → StateT σ (Except ε) β) : (x >>= f).run s = (f a).run t := by
  rw [StateT.run_bind, h]
  rfl

/-- A reader that came to a result after another had one of that first. -/
theorem exists_of_run_bind_ok {s : σ} {p : β × σ} (h : (x >>= f).run s = .ok p) :
    ∃ a t, x.run s = .ok (a, t) ∧ (f a).run t = .ok p := by
  rw [StateT.run_bind] at h
  cases hx : x.run s with
  | error fault =>
    rw [hx] at h
    cases h
  | ok q =>
    rw [hx] at h
    exact ⟨q.1, q.2, rfl, h⟩

/-- Every result of the reader has the property. -/
def Yields (x : StateT σ (Except ε) α) (P : α → Prop) : Prop :=
  ∀ s a t, x.run s = .ok (a, t) → P a

namespace Yields

variable {P : α → Prop} {R : β → Prop}

theorem any (x : StateT σ (Except ε) α) : Yields x fun _ => True := fun _ _ _ _ => trivial

theorem pure {a : α} (h : P a) : Yields (Pure.pure a : StateT σ (Except ε) α) P := by
  rintro s b t ⟨⟩
  exact h

theorem throw (fault : ε) : Yields (throw fault : StateT σ (Except ε) α) P := by
  rintro s b t ⟨⟩

theorem bind (hx : Yields x P) (hf : ∀ a, P a → Yields (f a) R) : Yields (x >>= f) R := by
  intro s b t hrun
  obtain ⟨a, u, hrun, hrest⟩ := exists_of_run_bind_ok hrun
  exact hf a (hx s a u hrun) u b t hrest

theorem throw_bind (fault : ε) :
    Yields ((MonadExcept.throw fault : StateT σ (Except ε) α) >>= f) R := by
  rintro s b t ⟨⟩

/-- A reader of which only what comes after it matters. -/
theorem after (hf : ∀ a, Yields (f a) R) : Yields (x >>= f) R := (any x).bind fun a _ => hf a

theorem map {g : α → β} (hx : Yields x P) (hg : ∀ a, P a → R (g a)) : Yields (g <$> x) R := by
  rw [map_eq_pure_bind]
  exact hx.bind fun a ha => pure (hg a ha)

end Yields

end AlarmBridge
