import Mathlib.Data.List.DropRight
import Mathlib.Tactic

/-!
The runs of a list: its elements that something can be read from, cut where there is one
that it cannot. The last run is what stands before the elements at the end that nothing is
read from.

Nothing here is about a particular program.
-/

namespace HerdrWebui

variable {α β : Type*} {f : α → Option β} {l front run after : List α} {x : α}

theorem rtakeWhile_append {p : α → Bool} (hx : p x = false) (h : ∀ y ∈ after, p y = true) :
    (front ++ x :: after).rtakeWhile p = after := by
  have hafter : ∀ y ∈ after.reverse, p y = true := fun y hy => h y (List.mem_reverse.mp hy)
  rw [List.rtakeWhile, List.reverse_append, List.reverse_cons, List.append_assoc,
    List.takeWhile_append_of_pos hafter, List.singleton_append, List.takeWhile_cons, hx,
    if_neg Bool.false_ne_true, List.append_nil, List.reverse_reverse]

/-- The runs that are over, and the one that is not. -/
def runStep (f : α → Option β) (state : List (List β) × List β) (x : α) :
    List (List β) × List β :=
  match f x with
  | some y => (state.1, state.2 ++ [y])
  | none => if state.2.isEmpty then state else (state.1 ++ [state.2], [])

def runs (f : α → Option β) (l : List α) : List (List β) :=
  let state := l.foldl (runStep f) ([], [])
  if state.2.isEmpty then state.1 else state.1 ++ [state.2]

def trailingRun (f : α → Option β) (l : List α) : List β :=
  (l.rtakeWhile fun x => (f x).isSome).filterMap f

def lastRun (f : α → Option β) (l : List α) : List β :=
  trailingRun f (l.rdropWhile fun x => (f x).isNone)

theorem runStep_some {state : List (List β) × List β} {y : β} (h : f x = some y) :
    runStep f state x = (state.1, state.2 ++ [y]) := by
  rw [runStep, h]

theorem runStep_none {state : List (List β) × List β} (h : f x = none) :
    runStep f state x = if state.2.isEmpty then state else (state.1 ++ [state.2], []) := by
  rw [runStep, h]

theorem trailingRun_concat_some {y : β} (h : f x = some y) :
    trailingRun f (l ++ [x]) = trailingRun f l ++ [y] := by
  rw [trailingRun, List.rtakeWhile_concat, if_pos (by rw [h]; rfl), List.filterMap_append,
    List.filterMap_cons_some h, List.filterMap_nil, trailingRun]

theorem trailingRun_concat_none (h : f x = none) : trailingRun f (l ++ [x]) = [] := by
  rw [trailingRun, List.rtakeWhile_concat, if_neg (by rw [h]; exact Bool.false_ne_true),
    List.filterMap_nil]

theorem lastRun_concat_some {y : β} (h : f x = some y) :
    lastRun f (l ++ [x]) = trailingRun f l ++ [y] := by
  rw [lastRun, List.rdropWhile_concat, if_neg (by rw [h]; exact Bool.false_ne_true),
    trailingRun_concat_some h]

theorem lastRun_concat_none (h : f x = none) : lastRun f (l ++ [x]) = lastRun f l := by
  rw [lastRun, List.rdropWhile_concat, if_pos (by rw [h]; rfl), lastRun]

theorem foldl_runStep (l : List α) : (l.foldl (runStep f) ([], [])).2 = trailingRun f l := by
  induction l using List.reverseRecOn with
  | nil => rfl
  | append_singleton l x ih =>
    rw [List.foldl_append, List.foldl_cons, List.foldl_nil]
    cases h : f x with
    | some y => rw [runStep_some h, trailingRun_concat_some h, ← ih]
    | none =>
      rw [runStep_none h, trailingRun_concat_none h]
      split
      · next hempty => exact List.isEmpty_iff.mp hempty
      · rfl

theorem getLast?_runs (l : List α) : ((runs f l).getLast?).getD [] = lastRun f l := by
  induction l using List.reverseRecOn with
  | nil => rfl
  | append_singleton l x ih =>
    cases h : f x with
    | some y =>
      have hstate := foldl_runStep (f := f) (l ++ [x])
      rw [trailingRun_concat_some h] at hstate
      have hopen : (trailingRun f l ++ [y]).isEmpty = false := by simp
      rw [lastRun_concat_some h, runs, hstate, hopen, if_neg Bool.false_ne_true,
        List.getLast?_concat, Option.getD_some]
    | none =>
      have hsame : runs f (l ++ [x]) = runs f l := by
        rw [runs, runs, List.foldl_append, List.foldl_cons, List.foldl_nil, runStep_none h]
        split <;> rfl
      rw [lastRun_concat_none h, hsame, ih]

theorem lastRun_append (h : ∀ x ∈ after, f x = none) : lastRun f (l ++ after) = lastRun f l := by
  induction after using List.reverseRecOn with
  | nil => rw [List.append_nil]
  | append_singleton after x ih =>
    rw [← List.append_assoc, lastRun_concat_none (h x (by simp)),
      ih fun y hy => h y (by simp [hy])]

theorem trailingRun_run (hx : f x = none) (h : ∀ y ∈ run, (f y).isSome = true) :
    trailingRun f (front ++ x :: run) = run.filterMap f := by
  induction run using List.reverseRecOn with
  | nil => exact trailingRun_concat_none hx
  | append_singleton run y ih =>
    obtain ⟨z, hz⟩ := Option.isSome_iff_exists.mp (h y (by simp))
    rw [← List.cons_append, ← List.append_assoc, trailingRun_concat_some hz,
      ih fun w hw => h w (by simp [hw]), List.filterMap_append, List.filterMap_cons_some hz,
      List.filterMap_nil]

theorem lastRun_run (hx : f x = none) (h : ∀ y ∈ run, (f y).isSome = true) (hne : run ≠ [])
    (hafter : ∀ y ∈ after, f y = none) :
    lastRun f (front ++ x :: run ++ after) = run.filterMap f := by
  rw [lastRun_append hafter]
  obtain ⟨run, y, rfl⟩ := (List.eq_nil_or_concat' run).resolve_left hne
  obtain ⟨z, hz⟩ := Option.isSome_iff_exists.mp (h y (by simp))
  rw [← List.cons_append, ← List.append_assoc, lastRun_concat_some hz,
    trailingRun_run hx fun w hw => h w (by simp [hw]), List.filterMap_append,
    List.filterMap_cons_some hz, List.filterMap_nil]

end HerdrWebui
