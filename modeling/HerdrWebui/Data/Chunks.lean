import Mathlib.Tactic

/-!
A list cut into chunks, and the elements of a list in the order they are first met. Lists of
one length are cut in the same places, and the chunks of a list are the list again.

Nothing here is about a particular program.
-/

namespace HerdrWebui

variable {α β γ : Type}

/-- Chunks of `size + 1`, the last of which may be shorter. -/
def cut (size : Nat) : List α → List (List α)
  | [] => []
  | x :: xs => (x :: xs.take size) :: cut size (xs.drop size)
termination_by l => l.length
decreasing_by
  rw [List.length_drop, List.length_cons]
  exact Nat.lt_succ_of_le (Nat.sub_le _ _)

def chunks (size : Nat) (l : List α) : Option (List (List α)) :=
  match size with
  | 0 => none
  | size + 1 => some (cut size l)

theorem flatten_cut (size : Nat) (l : List α) : (cut size l).flatten = l := by
  fun_induction cut size l with
  | case1 => rfl
  | case2 x xs ih => rw [List.flatten_cons, ih, List.cons_append, List.take_append_drop]

theorem cut_lengths (size : Nat) (l : List α) (m : List β) (h : l.length = m.length) :
    List.Forall₂ (fun x y => x.length = y.length) (cut size l) (cut size m) := by
  fun_induction cut size l generalizing m with
  | case1 =>
    obtain rfl : m = [] := List.eq_nil_of_length_eq_zero h.symm
    rw [cut]
    exact .nil
  | case2 x xs ih =>
    cases m with
    | nil => cases h
    | cons y ys =>
      have htail : xs.length = ys.length := Nat.succ.inj h
      rw [cut]
      refine .cons ?_ (ih (ys.drop size) ?_)
      · rw [List.length_cons, List.length_cons, List.length_take, List.length_take, htail]
      · rw [List.length_drop, List.length_drop, htail]

/-- What holds of each pair of chunks, element by element, holds of the whole lists. -/
theorem forall₂_flatten {R : α → β → Prop} {ls : List (List α)} {ms : List (List β)}
    (h : List.Forall₂ (List.Forall₂ R) ls ms) : List.Forall₂ R ls.flatten ms.flatten := by
  induction h with
  | nil => exact .nil
  | cons hhead _ ih => exact List.rel_append hhead ih

/-- The values of a list without those that were met before. -/
def firstSeen [DecidableEq β] (f : α → β) (l : List α) : List β :=
  l.foldl (fun seen x => if f x ∈ seen then seen else seen ++ [f x]) []

theorem firstSeen_spec [DecidableEq β] (f : α → β) (l : List α) :
    (firstSeen f l).Nodup ∧ ∀ y, y ∈ firstSeen f l ↔ y ∈ l.map f := by
  induction l using List.reverseRecOn with
  | nil => exact ⟨List.nodup_nil, fun y => Iff.rfl⟩
  | append_singleton l x ih =>
    have hlast : firstSeen f (l ++ [x]) =
        if f x ∈ firstSeen f l then firstSeen f l else firstSeen f l ++ [f x] := by
      rw [firstSeen, List.foldl_append]
      rfl
    rw [hlast]
    split
    · next hmem =>
        refine ⟨ih.1, fun y => ?_⟩
        rw [ih.2, List.map_append, List.mem_append, List.map_singleton, List.mem_singleton]
        refine ⟨.inl, fun h => h.elim id fun heq => ?_⟩
        exact heq ▸ (ih.2 _).mp hmem
    · next hmem =>
        refine ⟨List.nodup_append.mpr ⟨ih.1, List.nodup_singleton _, ?_⟩, fun y => ?_⟩
        · intro y hy z hz heq
          obtain rfl := List.mem_singleton.mp hz
          exact hmem (heq ▸ hy)
        · rw [List.mem_append, ih.2, List.map_append, List.mem_append]
          rfl

end HerdrWebui
