import Mathlib.Tactic

/-!
Lists that are only added to: entries with a count, of which the last may still be
counted up until an entry comes after it.

Nothing here is about a particular program.
-/

namespace HerdrWebui

variable {α : Type*} {l l' l'' : List (α × Nat)}

/-- The later list has the entries of the earlier one, the last of them with the same
count or a larger one, and may have more. -/
inductive Grows : List (α × Nat) → List (α × Nat) → Prop
  | nil (l : List (α × Nat)) : Grows [] l
  | last (a : α) {m n : Nat} (h : m ≤ n) (l : List (α × Nat)) : Grows [(a, m)] ((a, n) :: l)
  | cons (x : α × Nat) {l l' : List (α × Nat)} (h : Grows l l') : Grows (x :: l) (x :: l')

namespace Grows

theorem append (l more : List (α × Nat)) : Grows l (l ++ more) := by
  induction l with
  | nil => exact .nil more
  | cons x l ih => exact .cons x ih

theorem refl (l : List (α × Nat)) : Grows l l := by
  have h := append l []
  rwa [List.append_nil] at h

theorem trans (h : Grows l l') (h' : Grows l' l'') : Grows l l'' := by
  induction h generalizing l'' with
  | nil => exact .nil _
  | last a hle =>
    cases h' with
    | last _ hle' => exact .last a (hle.trans hle') _
    | cons => exact .last a hle _
  | @cons x l l' h ih =>
    cases h' with
    | cons _ hrest => exact .cons x (ih hrest)
    | last a hle l'' =>
      -- Nothing comes after the entry that is counted up.
      cases h with
      | nil => exact .last a hle l''

theorem count_up (init : List (α × Nat)) (a : α) (m : Nat) :
    Grows (init ++ [(a, m)]) (init ++ [(a, m + 1)]) := by
  induction init with
  | nil => exact .last a (Nat.le_succ m) []
  | cons x init ih => exact .cons x ih

theorem isPrefix_counted (h : Grows l l') :
    (l.filter (0 < ·.2)).map Prod.fst <+: (l'.filter (0 < ·.2)).map Prod.fst := by
  induction h with
  | nil => exact List.nil_prefix
  | @last a m n hle l =>
    rcases Nat.eq_zero_or_pos m with rfl | hpos
    · exact List.nil_prefix
    · have hpos' : 0 < n := hpos.trans_le hle
      simp [hpos, hpos']
  | @cons x l l' h ih =>
    by_cases hpos : 0 < x.2
    · simpa [hpos] using ih
    · simpa [hpos] using ih

end Grows

end HerdrWebui
