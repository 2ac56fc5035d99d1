import Mathlib.Tactic

/-!
A list of blocks written one after the other, each with a marked element in front and no
other: the places of the marks are where the blocks begin, and what stands from one of them
to the next is a block.

Nothing here is about a particular program.
-/

namespace HerdrWebui

variable {α : Type*} {mark : α → Bool} {block : List α} {blocks : List (List α)} {i : Nat}

/-- The first element is marked, and it alone. -/
def IsBlock (mark : α → Bool) (block : List α) : Prop :=
  ∃ header body, block = header :: body ∧ mark header = true ∧ ∀ x ∈ body, mark x = false

theorem findIdxs_unmarked {body : List α} (h : ∀ x ∈ body, mark x = false) (rest : List α)
    (start : Nat) :
    (body ++ rest).findIdxs mark start = rest.findIdxs mark (start + body.length) := by
  rw [List.findIdxs_append, List.findIdxs_eq_nil_iff.mpr h, List.nil_append]

theorem findIdxs_block (h : IsBlock mark block) (rest : List α) (start : Nat) :
    (block ++ rest).findIdxs mark start =
      start :: rest.findIdxs mark (start + block.length) := by
  obtain ⟨header, body, rfl, hheader, hbody⟩ := h
  rw [List.cons_append, List.findIdxs_cons, if_pos hheader, findIdxs_unmarked hbody,
    List.length_cons, Nat.add_right_comm, Nat.add_assoc]

theorem findIdxs_flatten (h : ∀ block ∈ blocks, IsBlock mark block) (start : Nat) :
    blocks.flatten.findIdxs mark start =
      (List.range blocks.length).map fun i => start + (blocks.take i).flatten.length := by
  induction blocks generalizing start with
  | nil => rfl
  | cons block blocks ih =>
    have hrest := ih (fun b hb => h b (List.mem_cons_of_mem _ hb)) (start + block.length)
    rw [List.flatten_cons, findIdxs_block (h block List.mem_cons_self), hrest,
      List.length_cons, List.range_succ_eq_map, List.map_cons, List.map_map]
    refine congrArg₂ _ rfl (List.map_congr_left fun i _ => ?_)
    rw [Function.comp_apply, List.take_succ_cons, List.flatten_cons, List.length_append,
      Nat.add_assoc]

theorem drop_take_flatten (h : blocks[i]? = some block) :
    (blocks.flatten.take (blocks.take (i + 1)).flatten.length).drop
      (blocks.take i).flatten.length = block := by
  have hnext : (blocks.take (i + 1)).flatten = (blocks.take i).flatten ++ block := by
    rw [List.take_add_one, h, Option.toList_some, List.flatten_append, List.flatten_singleton]
  have hsplit : blocks.flatten =
      (blocks.take (i + 1)).flatten ++ (blocks.drop (i + 1)).flatten := by
    rw [← List.flatten_append, List.take_append_drop]
  rw [hsplit, List.take_left, hnext, List.drop_left]

end HerdrWebui
