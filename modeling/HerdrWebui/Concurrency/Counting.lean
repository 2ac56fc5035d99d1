import Mathlib.Data.Set.Card
import Mathlib.Tactic

/-!
Counting the threads of a pool that have a property. The pool is unbounded, the
threads counted are finitely many; one step moves the count by its own thread.

Nothing here is about a particular program.
-/

namespace HerdrWebui.Concurrency

/-- Exactly `n` threads have the property. -/
def ThreadCount {L : Type*} (threads : Nat → L) (p : L → Bool) (n : Nat) : Prop :=
  {i | p (threads i) = true}.encard = n

namespace ThreadCount

variable {L : Type*} {threads : Nat → L} {p : L → Bool} {n n' : Nat}

theorem const {l : L} (h : p l = false) : ThreadCount (fun _ => l) p 0 := by
  simp [ThreadCount, h]

theorem pos (h : ThreadCount threads p n) {i : Nat} (hi : p (threads i) = true) : 0 < n := by
  have hnonempty : {j | p (threads j) = true}.encard ≠ 0 := by
    rw [Set.encard_ne_zero]
    exact ⟨i, hi⟩
  rw [h] at hnonempty
  exact Nat.pos_of_ne_zero (by exact_mod_cast hnonempty)

theorem toNat_le (h : ThreadCount threads p n) (i : Nat) : (p (threads i)).toNat ≤ n := by
  cases hi : p (threads i) with
  | false => exact Nat.zero_le n
  | true => exact h.pos hi

theorem eq_zero (h : ThreadCount threads p n) (hnone : ∀ i, p (threads i) = false) :
    n = 0 := by
  have hempty : {j | p (threads j) = true} = ∅ := by
    ext i
    simp [hnone i]
  rw [ThreadCount, hempty, Set.encard_empty] at h
  exact_mod_cast h.symm

/-- A property that implies another, which some thread has without it, counts fewer. -/
theorem lt_of_imp {q : L → Bool} (hp : ThreadCount threads p n) (hq : ThreadCount threads q n')
    (himp : ∀ i, p (threads i) = true → q (threads i) = true) {i : Nat}
    (hi : q (threads i) = true) (hnot : p (threads i) = false) : n < n' := by
  have hsub : {j | p (threads j) = true} ⊂ {j | q (threads j) = true} := by
    refine ⟨himp, fun hback => ?_⟩
    have hmem : p (threads i) = true := hback hi
    rw [hnot] at hmem
    cases hmem
  have hfinite : {j | p (threads j) = true}.Finite := by
    rw [← Set.encard_lt_top_iff, hp]
    exact ENat.natCast_lt_top n
  have hlt := hfinite.encard_lt_encard hsub
  rw [hp, hq] at hlt
  exact_mod_cast hlt

theorem encard_split (f : Nat → L) (i : Nat) :
    {j | p (f j) = true}.encard =
      ({j | p (f j) = true} \ {i}).encard + ((p (f i)).toNat : ℕ∞) := by
  cases hi : p (f i) with
  | false =>
    have hout : i ∉ {j | p (f j) = true} := by
      rw [Set.mem_ofPred_eq, hi]
      exact Bool.false_ne_true
    rw [Set.sdiff_singleton_eq_self hout, Bool.toNat_false, Nat.cast_zero, add_zero]
  | true =>
    have hin : i ∈ {j | p (f j) = true} := hi
    exact (Set.encard_sdiff_singleton_add_one hin).symm

theorem update (h : ThreadCount threads p n) (i : Nat) {l' : L}
    (hn : n' + (p (threads i)).toNat = n + (p l').toNat) :
    ThreadCount (Function.update threads i l') p n' := by
  have hothers : {j | p (Function.update threads i l' j) = true} \ {i} =
      {j | p (threads j) = true} \ {i} := by
    ext j
    by_cases hj : j = i
    · simp [hj]
    · simp [Function.update_of_ne hj]
  have hold := encard_split (p := p) threads i
  have hnew := encard_split (p := p) (Function.update threads i l') i
  rw [hothers, Function.update_self] at hnew
  rw [ThreadCount] at h ⊢
  rw [h] at hold
  rw [hnew]
  cases hrest : ({j | p (threads j) = true} \ {i}).encard using ENat.recTopCoe with
  | top =>
    rw [hrest, top_add] at hold
    exact absurd hold (ENat.natCast_ne_top n)
  | coe m =>
    rw [hrest] at hold
    have hcount : n = m + (p (threads i)).toNat := by exact_mod_cast hold
    have hcount' : m + (p l').toNat = n' := by omega
    exact_mod_cast hcount'

end ThreadCount

end HerdrWebui.Concurrency
