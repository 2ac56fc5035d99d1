import Mathlib.Tactic

/-!
Computations that change a state and may fail, and what of the state they keep: a view of it is
kept in any case, or where the computation fails.

Nothing here is about a particular program.
-/

namespace HerdrWebui

section Failing

variable {σ ε α β ν : Type} (view : σ → ν)

def Keeps (x : ExceptT ε (StateM σ) α) : Prop := ∀ s, view (x s).2 = view s

def FailsClean (x : ExceptT ε (StateM σ) α) (s : σ) : Prop :=
  ∀ e, (x s).1 = .error e → view (x s).2 = view s

theorem run_bind_apply (x : ExceptT ε (StateM σ) α) (f : α → ExceptT ε (StateM σ) β) (s : σ) :
    (x >>= f) s =
      match x s with
      | (.ok a, s') => f a s'
      | (.error e, s') => (.error e, s') := by
  change ExceptT.bindCont f (x s).1 (x s).2 = _
  rcases x s with ⟨_ | a, s'⟩ <;> rfl

variable {view} {x : ExceptT ε (StateM σ) α} {f : α → ExceptT ε (StateM σ) β}

theorem run_bind_eq_ok {s s' : σ} {b : β} :
    (x >>= f) s = (.ok b, s') ↔ ∃ a s'', x s = (.ok a, s'') ∧ f a s'' = (.ok b, s') := by
  rw [run_bind_apply]
  rcases x s with ⟨e | a, t⟩
  · constructor
    · intro h
      cases h
    · rintro ⟨_, _, h, _⟩
      cases h
  · constructor
    · intro h
      exact ⟨a, t, rfl, h⟩
    · rintro ⟨_, _, h, hrest⟩
      cases h
      exact hrest

theorem Keeps.failsClean (h : Keeps view x) (s : σ) : FailsClean view x s := fun _ _ => h s

theorem Keeps.pure (a : α) : Keeps view (pure a : ExceptT ε (StateM σ) α) := fun _ => rfl

theorem Keeps.throw (e : ε) : Keeps view (throw e : ExceptT ε (StateM σ) α) := fun _ => rfl

theorem Keeps.bind (hx : Keeps view x) (hf : ∀ a, Keeps view (f a)) : Keeps view (x >>= f) := by
  intro s
  have hkept := hx s
  rw [run_bind_apply]
  rcases hrun : x s with ⟨_ | a, s'⟩
  · rwa [hrun] at hkept
  · rw [hrun] at hkept
    exact (hf a s').trans hkept

theorem Keeps.tryCatch {handler : ε → ExceptT ε (StateM σ) α} (hx : Keeps view x)
    (hhandler : ∀ e, Keeps view (handler e)) : Keeps view (tryCatch x handler) := by
  intro s
  have hkept := hx s
  have hrun : MonadExcept.tryCatch x handler s =
      match x s with
      | (.ok a, s') => (.ok a, s')
      | (.error e, s') => handler e s' := by
    change (match (x s).1 with
      | .ok a => Pure.pure (Except.ok a)
      | .error e => handler e : StateM σ (Except ε α)) (x s).2 = _
    rcases x s with ⟨_ | a, s'⟩ <;> rfl
  rw [hrun]
  rcases hx : x s with ⟨e | a, s'⟩
  · rw [hx] at hkept
    exact (hhandler e s').trans hkept
  · rwa [hx] at hkept

theorem adapt_apply {ε' : Type} (g : ε → ε') (x : ExceptT ε (StateM σ) α) (s : σ) :
    ExceptT.adapt g x s = ((x s).1.mapError g, (x s).2) := rfl

theorem adapt_eq_ok {ε' : Type} {g : ε → ε'} {s s' : σ} {a : α} :
    ExceptT.adapt g x s = (.ok a, s') ↔ x s = (.ok a, s') := by
  rw [adapt_apply]
  rcases x s with ⟨e | b, t⟩
  · constructor <;> (intro h; cases h)
  · constructor <;> (intro h; cases h; rfl)

theorem adapt_eq_error {ε' : Type} {g : ε → ε'} {s s' : σ} {e : ε'} :
    ExceptT.adapt g x s = (.error e, s') ↔ ∃ e₀, x s = (.error e₀, s') ∧ g e₀ = e := by
  rw [adapt_apply]
  rcases x s with ⟨e' | b, t⟩
  · constructor
    · intro h
      cases h
      exact ⟨e', rfl, rfl⟩
    · rintro ⟨_, h, rfl⟩
      cases h
      rfl
  · constructor
    · intro h
      cases h
    · rintro ⟨_, h, _⟩
      cases h

theorem Keeps.adapt {ε' : Type} (hx : Keeps view x) (g : ε → ε') :
    Keeps view (ExceptT.adapt g x) := hx

theorem FailsClean.adapt {ε' : Type} {s : σ} (hx : FailsClean view x s) (g : ε → ε') :
    FailsClean view (ExceptT.adapt g x) s := by
  intro e he
  rw [adapt_apply] at he ⊢
  rcases hrun : x s with ⟨e' | a, s'⟩
  · have hclean := hx e' (congrArg Prod.fst hrun)
    rwa [hrun] at hclean
  · rw [hrun] at he
    cases he

/-- A computation may go on after one that keeps the view, as if it began there. -/
theorem FailsClean.bind (hx : Keeps view x)
    {s : σ} (hf : ∀ a s', x s = (.ok a, s') → FailsClean view (f a) s') :
    FailsClean view (x >>= f) s := by
  intro e he
  have hkept := hx s
  rw [run_bind_apply] at he ⊢
  rcases hrun : x s with ⟨_ | a, s'⟩
  · rwa [hrun] at hkept
  · rw [hrun] at he hkept
    exact (hf a s' hrun e he).trans hkept

/-- After a computation that fails clean, one that fails clean as well leaves a failure with what
the first one changed. -/
theorem failsClean_bind_iff {s : σ} (hx : FailsClean view x s)
    (hf : ∀ a s', FailsClean view (f a) s') :
    FailsClean view (x >>= f) s ↔
      ∀ a s' e s'', x s = (.ok a, s') → f a s' = (.error e, s'') → view s' = view s := by
  unfold FailsClean at hx ⊢
  rw [run_bind_apply]
  rcases hrun : x s with ⟨e | a, s'⟩
  · simp only [hrun] at hx ⊢
    exact iff_of_true (fun _ _ => hx e rfl) fun _ _ _ _ h => by cases h
  · simp only
    constructor
    · intro h a' t e s'' hok herror
      cases hok
      have hview := hf a s' e (congrArg Prod.fst herror)
      exact hview.symm.trans (h e (congrArg Prod.fst herror))
    · intro h e he
      exact (hf a s' e he).trans (h a s' e (f a s').2 rfl (Prod.ext he rfl))

end Failing

end HerdrWebui
