import Mathlib.Tactic

/-!
Computations that may fail and that leave a log of what they did, failed or not, and
when two of them agree: they do the same with the same outcome, or both fail before
they have done anything.

Nothing here is about a particular program.
-/

namespace HerdrWebui

/-- `ω` is what the log is made of, `ε` what a failure says. -/
structure Logged (ω ε α : Type) where
  result : Except ε α
  log : List ω
deriving DecidableEq

namespace Logged

variable {ω ε ε' α β : Type}

def fail (e : ε) : Logged ω ε α := ⟨.error e, []⟩

/-- A computation that does nothing but fail or not. -/
def ofExcept (x : Except ε α) : Logged ω ε α := ⟨x, []⟩

def bind (x : Logged ω ε α) (f : α → Logged ω ε β) : Logged ω ε β :=
  match x.result with
  | .error e => ⟨.error e, x.log⟩
  | .ok a => ⟨(f a).result, x.log ++ (f a).log⟩

instance : Monad (Logged ω ε) where
  pure a := ⟨.ok a, []⟩
  bind := bind

/-- The outcome as a value: what comes next goes on after a failure too. -/
def attempt (x : Logged ω ε α) : Logged ω ε' (Except ε α) := ⟨.ok x.result, x.log⟩

def mapError (f : ε → ε') (x : Logged ω ε α) : Logged ω ε' α :=
  ⟨x.result.mapError f, x.log⟩

theorem pure_eq (a : α) : (pure a : Logged ω ε α) = ⟨.ok a, []⟩ := rfl

theorem bind_eq (x : Logged ω ε α) (f : α → Logged ω ε β) : x >>= f = x.bind f := rfl

@[simp] theorem pure_bind (a : α) (f : α → Logged ω ε β) : pure a >>= f = f a := rfl

@[simp] theorem fail_bind (e : ε) (f : α → Logged ω ε β) :
    (fail e : Logged ω ε α) >>= f = fail e := rfl

@[simp] theorem bind_assoc {γ : Type} (x : Logged ω ε α) (f : α → Logged ω ε β)
    (g : β → Logged ω ε γ) : x >>= f >>= g = x >>= fun a => f a >>= g := by
  obtain ⟨result, log⟩ := x
  cases result with
  | error e => rfl
  | ok a =>
    simp only [bind_eq, bind]
    cases (f a).result <;> simp

@[simp] theorem ofExcept_ok (a : α) : (ofExcept (.ok a) : Logged ω ε α) = pure a := rfl

@[simp] theorem ofExcept_error (e : ε) :
    (ofExcept (.error e) : Logged ω ε α) = fail e := rfl

@[simp] theorem attempt_fail (e : ε) :
    (fail e : Logged ω ε α).attempt = (pure (.error e) : Logged ω ε' (Except ε α)) := rfl

theorem bind_log_ne_nil {x : Logged ω ε α} {f : α → Logged ω ε β} (h : x.log ≠ []) :
    (x >>= f).log ≠ [] := by
  obtain ⟨result, log⟩ := x
  cases result with
  | error e => exact h
  | ok a => exact fun hnil => h (List.append_eq_nil_iff.mp hnil).1

section mapError
variable (f : ε → ε')

@[simp] theorem mapError_fail (e : ε) :
    (fail e : Logged ω ε α).mapError f = fail (f e) := rfl

@[simp] theorem mapError_pure (a : α) :
    (pure a : Logged ω ε α).mapError f = pure a := rfl

@[simp] theorem mapError_ofExcept (x : Except ε α) :
    (ofExcept x : Logged ω ε α).mapError f = ofExcept (x.mapError f) := rfl

@[simp] theorem mapError_bind (x : Logged ω ε α) (g : α → Logged ω ε β) :
    (x >>= g).mapError f = x.mapError f >>= fun a => (g a).mapError f := by
  obtain ⟨result, log⟩ := x
  cases result <;> rfl

@[simp] theorem mapError_ite (p : Prop) [Decidable p] (x y : Logged ω ε α) :
    (if p then x else y).mapError f = if p then x.mapError f else y.mapError f := by
  split <;> rfl

@[simp] theorem mapError_attempt {ε'' : Type} (x : Logged ω ε'' α) :
    (x.attempt : Logged ω ε (Except ε'' α)).mapError f = x.attempt := rfl

@[simp] theorem mapError_mapError {ε'' : Type} (g : ε' → ε'') (x : Logged ω ε α) :
    (x.mapError f).mapError g = x.mapError (g ∘ f) := by
  obtain ⟨result, log⟩ := x
  cases result <;> rfl

@[simp] theorem mapError_self (x : Logged ω ε α) : (x.mapError fun e => e) = x := by
  obtain ⟨result, log⟩ := x
  cases result <;> rfl

end mapError

def Refused (x : Logged ω ε α) : Prop := x.log = [] ∧ ∃ e, x.result = .error e

def Agree (x y : Logged ω ε α) : Prop := x = y ∨ x.Refused ∧ y.Refused

theorem Refused.fail (e : ε) : (fail e : Logged ω ε α).Refused := ⟨rfl, e, rfl⟩

theorem not_refused_of_log {x : Logged ω ε α} (h : x.log ≠ []) : ¬ x.Refused :=
  fun hx => h hx.1

@[refl] theorem Agree.refl (x : Logged ω ε α) : x.Agree x := .inl rfl

theorem Agree.of_eq {x y : Logged ω ε α} (h : x = y) : x.Agree y := .inl h

theorem Agree.of_refused {x y : Logged ω ε α} (hx : x.Refused) (hy : y.Refused) :
    x.Agree y := .inr ⟨hx, hy⟩

theorem agree_iff_of_refused {x y : Logged ω ε α} (hx : x.Refused) :
    x.Agree y ↔ y.Refused := by
  constructor
  · rintro (rfl | ⟨-, hy⟩)
    · exact hx
    · exact hy
  · intro hy
    exact .of_refused hx hy

theorem agree_bind_pure_iff {f : α → β} (hf : Function.Injective f) {x y : Logged ω ε α} :
    (x >>= fun a => pure (f a)).Agree (y >>= fun a => pure (f a)) ↔ x.Agree y := by
  have hrefused (z : Logged ω ε α) : (z >>= fun a => pure (f a)).Refused ↔ z.Refused := by
    obtain ⟨result, log⟩ := z
    cases result <;> simp [Refused, bind_eq, Logged.bind, pure_eq]
  have heq : (x >>= fun a => pure (f a)) = (y >>= fun a => pure (f a)) ↔ x = y := by
    obtain ⟨xresult, xlog⟩ := x
    obtain ⟨yresult, ylog⟩ := y
    cases xresult <;> cases yresult <;> simp [bind_eq, Logged.bind, pure_eq, hf.eq_iff]
  rw [Agree, Agree, hrefused, hrefused, heq]

/-- A decoder is put in front of both, and where it fails each has its own words for
the failure. -/
theorem Agree.ofExcept_bind {x : Except α β} {γ : Type} {f : α → ε'} {g : α → ε} (r : ε' → ε)
    {k : β → Logged ω ε' γ} {l : β → Logged ω ε γ} (h : ∀ b, ((k b).mapError r).Agree (l b)) :
    ((ofExcept (x.mapError f) >>= k).mapError r).Agree (ofExcept (x.mapError g) >>= l) := by
  cases x with
  | error e => exact .of_refused (.fail _) (.fail _)
  | ok b => exact h b

end Logged

end HerdrWebui
