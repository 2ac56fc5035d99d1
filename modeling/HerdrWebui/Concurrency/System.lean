import Mathlib.Tactic

/-!
Labelled transition systems with a computed step, the states their runs reach
and the one induction over runs. A run may be restricted by a condition on
every step it takes: `ReachVia ok` holds of the states reached by runs all of
whose steps meet `ok`, and `Reachable` is the case of no condition. Concrete
runs are lists of actions, so a schedule can be evaluated.

Nothing here is about a particular program.
-/

namespace HerdrWebui.Concurrency

/-- The initial states and the step of a system. `step s a` is `none` when
the action `a` is not enabled in the state `s`. -/
structure System (σ α : Type*) where
  init : σ → Prop
  step : σ → α → Option σ

namespace System

variable {σ α : Type*} (M : System σ α)

/-- The states of the runs all of whose steps meet the condition `ok`. -/
inductive ReachVia (ok : σ → α → Prop) : σ → Prop
  | init {s : σ} : M.init s → ReachVia ok s
  | step {s s' : σ} {a : α} :
      ReachVia ok s → ok s a → M.step s a = some s' → ReachVia ok s'

def Reachable : σ → Prop := M.ReachVia fun _ _ => True

variable {M} {ok ok' : σ → α → Prop}

theorem ReachVia.mono (himp : ∀ s a, ok s a → ok' s a) {s : σ}
    (h : M.ReachVia ok s) : M.ReachVia ok' s := by
  induction h with
  | init hs => exact .init hs
  | step _ hok hstep ih => exact .step ih (himp _ _ hok) hstep

theorem ReachVia.reachable {s : σ} (h : M.ReachVia ok s) : M.Reachable s :=
  h.mono fun _ _ _ => trivial

/-- The induction over runs. The step case may use that the state before the
step is itself reached, so invariants proved earlier are at hand there. -/
theorem ReachVia.invariant {I : σ → Prop}
    (hinit : ∀ s, M.init s → I s)
    (hstep : ∀ s a s', M.ReachVia ok s → I s → ok s a →
      M.step s a = some s' → I s')
    {s : σ} (h : M.ReachVia ok s) : I s := by
  induction h with
  | init hs => exact hinit _ hs
  | step hreach hok hs ih => exact hstep _ _ _ hreach ih hok hs

variable (M)

/-- The state after a schedule of actions. It is `none` once an action is not
enabled or does not meet the condition in the state it is taken in. -/
def runVia (ok : σ → α → Prop) [∀ s a, Decidable (ok s a)] (s : σ) :
    List α → Option σ
  | [] => some s
  | a :: schedule =>
    if ok s a then
      (M.step s a).bind fun s' => runVia ok s' schedule
    else none

/-- The state after a schedule of actions under no condition. -/
def run (s : σ) (schedule : List α) : Option σ :=
  M.runVia (fun _ _ => True) s schedule

variable {M}

theorem ReachVia.runVia [∀ s a, Decidable (ok s a)] {s s' : σ}
    {schedule : List α} (h : M.ReachVia ok s)
    (hrun : M.runVia ok s schedule = some s') : M.ReachVia ok s' := by
  induction schedule generalizing s with
  | nil =>
    obtain rfl : s = s' := by simpa [System.runVia] using hrun
    exact h
  | cons a schedule ih =>
    simp only [System.runVia] at hrun
    split at hrun
    · next hok =>
        obtain ⟨next, hstep, hrest⟩ := Option.bind_eq_some_iff.mp hrun
        exact ih (.step h hok hstep) hrest
    · cases hrun

theorem Reachable.run_invariant {I : σ → Prop} {s s' : σ} {schedule : List α}
    (h : M.Reachable s) (hI : I s)
    (hstep : ∀ s a s', M.Reachable s → I s → M.step s a = some s' → I s')
    (hrun : M.run s schedule = some s') : I s' := by
  induction schedule generalizing s with
  | nil =>
    cases hrun
    exact hI
  | cons a schedule ih =>
    rw [System.run, System.runVia, if_pos trivial] at hrun
    obtain ⟨next, hnext, hrest⟩ := Option.bind_eq_some_iff.mp hrun
    exact ih (.step h trivial hnext) (hstep _ _ _ h hI hnext) hrest

theorem reachVia_get [∀ s a, Decidable (ok s a)] {s : σ} {schedule : List α}
    (hinit : M.init s) (hrun : (M.runVia ok s schedule).isSome) :
    M.ReachVia ok ((M.runVia ok s schedule).get hrun) :=
  .runVia (.init hinit) (Option.some_get hrun).symm

theorem reachable_get {s : σ} {schedule : List α}
    (hinit : M.init s) (hrun : (M.run s schedule).isSome) :
    M.Reachable ((M.run s schedule).get hrun) :=
  reachVia_get hinit hrun

end System

end HerdrWebui.Concurrency
