import Mathlib.Data.List.DropRight
import Mathlib.Tactic

/-!
The last `n` elements of a list, Mathlib's `List.rtake`, under append: a bounded
buffer that keeps the tail of what it was given may forget the rest before the
next append as well as after it.

Nothing here is about a particular program.
-/

namespace HerdrWebui

open List

abbrev Bytes := List UInt8

variable {α : Type*}

theorem length_rtake (l : List α) (n : Nat) :
    (l.rtake n).length = min n l.length := by
  rw [rtake, length_drop]
  omega

theorem rtake_of_length_le {l : List α} {n : Nat} (h : l.length ≤ n) :
    l.rtake n = l := by
  rw [rtake, Nat.sub_eq_zero_of_le h, drop_zero]

theorem rtake_append_of_le (l chunk : List α) {n : Nat} (h : n ≤ chunk.length) :
    (l ++ chunk).rtake n = chunk.rtake n := by
  have hlen : (l ++ chunk).length - n = l.length + (chunk.length - n) := by
    rw [length_append]
    omega
  rw [rtake, rtake, hlen, drop_length_add_append]

theorem rtake_append_of_ge (l chunk : List α) {n : Nat} (h : chunk.length ≤ n) :
    (l ++ chunk).rtake n = l.rtake (n - chunk.length) ++ chunk := by
  have hlen : (l ++ chunk).length - n = l.length - (n - chunk.length) := by
    rw [length_append]
    omega
  rw [rtake, rtake, hlen, drop_append_of_le_length (Nat.sub_le _ _)]

theorem rtake_rtake_append (l chunk : List α) (n : Nat) :
    (l.rtake n ++ chunk).rtake n = (l ++ chunk).rtake n := by
  rcases Nat.le_total n chunk.length with h | h
  · rw [rtake_append_of_le _ _ h, rtake_append_of_le _ _ h]
  · have hdrop : (l.rtake n).rtake (n - chunk.length) =
        l.rtake (n - chunk.length) := by
      rw [rtake, rtake, rtake, drop_drop, length_drop]
      congr 1
      omega
    rw [rtake_append_of_ge _ _ h, rtake_append_of_ge _ _ h, hdrop]

end HerdrWebui
