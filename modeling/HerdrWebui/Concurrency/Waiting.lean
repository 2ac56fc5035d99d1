import Mathlib.Logic.Relation
import Mathlib.Tactic

/-!
Tasks that hold locks and wait for one. A circular wait is a cycle of tasks each of
which wants a lock that the next one holds. It is ruled out by a rank that falls from
a waiting task to the one it waits for.

Nothing here is about a particular program.
-/

namespace HerdrWebui.Concurrency

/-- The locks a task holds and the one it is about to take. -/
structure Grip (K : Type*) where
  held : List K
  wants : Option K

variable {ι K : Type*}

def WaitsFor (tasks : ι → Grip K) (i j : ι) : Prop :=
  ∃ lock, (tasks i).wants = some lock ∧ lock ∈ (tasks j).held

def CircularWait (tasks : ι → Grip K) : Prop := ∃ i, Relation.TransGen (WaitsFor tasks) i i

variable {tasks : ι → Grip K}

theorem not_circularWait_of_rank (rank : ι → Nat)
    (h : ∀ i j, WaitsFor tasks i j → rank j < rank i) : ¬ CircularWait tasks := by
  rintro ⟨i, hcycle⟩
  have hfalls {j k : ι} (hpath : Relation.TransGen (WaitsFor tasks) j k) : rank k < rank j := by
    induction hpath with
    | single hwait => exact h _ _ hwait
    | tail _ hwait ih => exact (h _ _ hwait).trans ih
  exact lt_irrefl _ (hfalls hcycle)

theorem circularWait_of_two {i j : ι} {a b : K} (hi : (tasks i).wants = some a)
    (ha : a ∈ (tasks j).held) (hj : (tasks j).wants = some b) (hb : b ∈ (tasks i).held) :
    CircularWait tasks :=
  ⟨i, .tail (.single ⟨a, hi, ha⟩) ⟨b, hj, hb⟩⟩

end HerdrWebui.Concurrency
