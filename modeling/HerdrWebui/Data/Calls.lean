import Mathlib.Tactic

/-!
Calls and the answers to them, matched by ids that may repeat. What becomes of a call is
decided by the first later event that names its id: an answer is its own, another call takes
its place. So an answer goes to one call at most, the last before it with its id.

Nothing here is about a particular program.
-/

namespace HerdrWebui

inductive CallEvent (κ α β : Type) where
  | call (id : Option κ) (x : α)
  | answer (id : κ) (y : β)

inductive Fate (β : Type) where
  | waiting
  | superseded
  | answered (y : β)
  deriving DecidableEq

/-- A call and what becomes of it. -/
structure Called (κ α β : Type) where
  id : Option κ
  call : α
  fate : Fate β

variable {κ α β : Type} [DecidableEq κ]

def CallEvent.names (id : κ) : CallEvent κ α β → Bool
  | .call id' _ => id' = some id
  | .answer id' _ => id' = id

/-- What the events after a call make of it. -/
def fate (id : κ) : List (CallEvent κ α β) → Fate β
  | [] => .waiting
  | .call id' _ :: rest => if id' = some id then .superseded else fate id rest
  | .answer id' y :: rest => if id' = id then .answered y else fate id rest

/-- A call without an id is never heard of again. -/
def fateOf (id : Option κ) (later : List (CallEvent κ α β)) : Fate β :=
  match id with
  | some id => fate id later
  | none => .waiting

def called : List (CallEvent κ α β) → List (Called κ α β)
  | [] => []
  | .call id x :: rest => ⟨id, x, fateOf id rest⟩ :: called rest
  | .answer _ _ :: rest => called rest

theorem fate_append (id : κ) (events : List (CallEvent κ α β)) (event : CallEvent κ α β) :
    fate id (events ++ [event]) =
      match fate id events with
      | .waiting => fate id [event]
      | decided => decided := by
  induction events with
  | nil => cases h : fate id [event] <;> simp [fate, h]
  | cons first rest ih =>
    cases first with
    | call id' x =>
      rw [List.cons_append, fate, fate]
      split
      · rfl
      · exact ih
    | answer id' y =>
      rw [List.cons_append, fate, fate]
      split
      · rfl
      · exact ih

/-- A call after an answer to `id`. -/
def Called.answer (id : κ) (y : β) (c : Called κ α β) : Called κ α β :=
  match c.fate with
  | .waiting => if c.id = some id then { c with fate := .answered y } else c
  | _ => c

/-- A call after another with `id`. -/
def Called.supersede (id : Option κ) (c : Called κ α β) : Called κ α β :=
  match c.fate with
  | .waiting => if c.id.isSome ∧ c.id = id then { c with fate := .superseded } else c
  | _ => c

theorem called_append_answer (events : List (CallEvent κ α β)) (id : κ) (y : β) :
    called (events ++ [.answer id y]) = (called events).map (Called.answer id y) := by
  induction events with
  | nil => rfl
  | cons first rest ih =>
    cases first with
    | answer id' y' => exact ih
    | call id' x =>
      rw [List.cons_append, called, called, List.map_cons, ih]
      congr 1
      cases id' with
      | none => rfl
      | some id' =>
        rw [fateOf, fateOf, fate_append, Called.answer]
        dsimp only
        cases hfate : fate id' rest with
        | waiting =>
          rw [fate, fate]
          by_cases heq : id' = id
          · simp [heq]
          · simp [heq, Ne.symm heq]
        | _ => rfl

theorem called_append_call (events : List (CallEvent κ α β)) (id : Option κ) (x : α) :
    called (events ++ [.call id x]) =
      (called events).map (Called.supersede id) ++ [⟨id, x, .waiting⟩] := by
  induction events with
  | nil => cases id <;> rfl
  | cons first rest ih =>
    cases first with
    | answer id' y => exact ih
    | call id' x' =>
      rw [List.cons_append, called, called, List.map_cons, ih, List.cons_append]
      congr 1
      cases id' with
      | none => rfl
      | some id' =>
        rw [fateOf, fateOf, fate_append, Called.supersede]
        dsimp only
        cases hfate : fate id' rest with
        | waiting =>
          rw [fate, fate]
          by_cases heq : id = some id'
          · simp [heq]
          · simp [heq, Ne.symm heq]
        | _ => rfl

def Fate.answer : Fate β → Option β
  | .answered y => some y
  | _ => none

def CallEvent.asAnswer : CallEvent κ α β → Option β
  | .answer _ y => some y
  | .call _ _ => none

def Called.waitsFor (id : κ) (c : Called κ α β) : Bool :=
  match c.fate with
  | .waiting => c.id = some id
  | _ => false

def takenAnswers (calls : List (Called κ α β)) : List β := calls.filterMap (·.fate.answer)

theorem Called.answer_of_not_waits {id : κ} {c : Called κ α β} (h : c.waitsFor id = false)
    (y : β) : c.answer id y = c := by
  unfold Called.answer
  unfold Called.waitsFor at h
  split
  · next hfate =>
      rw [hfate] at h
      exact if_neg (of_decide_eq_false h)
  · rfl

theorem Called.answer_of_waits {id : κ} {c : Called κ α β} (h : c.waitsFor id = true) (y : β) :
    c.answer id y = { c with fate := .answered y } ∧ c.fate = .waiting := by
  unfold Called.answer
  unfold Called.waitsFor at h
  split
  · next hfate =>
      rw [hfate] at h
      exact ⟨if_pos (of_decide_eq_true h), hfate⟩
  · next hfate =>
      split at h
      · next hwaiting => exact absurd hwaiting hfate
      · cases h

theorem Called.waitsFor_supersede (id : Option κ) (id' : κ) (c : Called κ α β) :
    (c.supersede id).waitsFor id' = (c.waitsFor id' && decide (id ≠ some id')) := by
  unfold Called.supersede
  split
  · next hfate =>
      split
      · next hsame =>
          obtain ⟨-, rfl⟩ := hsame
          unfold Called.waitsFor
          rw [hfate]
          by_cases hid : c.id = some id'
          · simp [hid]
          · simp [hid]
      · next hother =>
          unfold Called.waitsFor
          rw [hfate]
          by_cases hid : c.id = some id'
          · have hne : id ≠ some id' := fun heq => hother ⟨hid ▸ rfl, hid.trans heq.symm⟩
            simp [hid, hne]
          · simp [hid]
  · next hfate =>
      unfold Called.waitsFor
      split
      · next hwaiting => exact absurd hwaiting hfate
      · rfl

theorem Called.waitsFor_answer (id id' : κ) (y : β) (c : Called κ α β)
    (h : (c.answer id y).waitsFor id' = true) : c.waitsFor id' = true := by
  cases hwaits : c.waitsFor id with
  | true =>
    rw [(Called.answer_of_waits hwaits y).1] at h
    cases h
  | false =>
    rw [Called.answer_of_not_waits hwaits] at h
    exact h

theorem countP_waitsFor (events : List (CallEvent κ α β)) (id : κ) :
    (called events).countP (·.waitsFor id) ≤ 1 := by
  induction events using List.reverseRecOn with
  | nil => exact Nat.zero_le 1
  | append_singleton events event ih =>
    cases event with
    | answer id' y =>
      rw [called_append_answer, List.countP_map]
      refine le_trans (List.countP_mono_left fun c _ hwaits => ?_) ih
      exact Called.waitsFor_answer id' id y c hwaits
    | call id' x =>
      rw [called_append_call, List.countP_append, List.countP_map]
      by_cases hsame : id' = some id
      · have hnone : (called events).countP
            ((·.waitsFor id) ∘ Called.supersede id') = 0 := by
          rw [List.countP_eq_zero]
          intro c _
          rw [Function.comp_apply, Called.waitsFor_supersede, hsame]
          simp
        rw [hnone, Nat.zero_add]
        exact List.countP_le_length
      · have hsingle : [(⟨id', x, .waiting⟩ : Called κ α β)].countP (·.waitsFor id) = 0 := by
          simp [Called.waitsFor, hsame]
        rw [hsingle, Nat.add_zero]
        refine le_trans (List.countP_mono_left fun c _ hwaits => ?_) ih
        rw [Function.comp_apply, Called.waitsFor_supersede, Bool.and_eq_true] at hwaits
        exact hwaits.1

theorem takenAnswers_answer {calls : List (Called κ α β)} {id : κ}
    (h : calls.countP (·.waitsFor id) ≤ 1) (y : β) :
    (takenAnswers (calls.map (Called.answer id y))).Subperm (takenAnswers calls ++ [y]) := by
  induction calls with
  | nil => exact (List.nil_sublist [y]).subperm
  | cons c calls ih =>
    rw [List.map_cons]
    cases hwaits : c.waitsFor id with
    | true =>
      rw [List.countP_cons_of_pos hwaits] at h
      have hzero : calls.countP (·.waitsFor id) = 0 :=
        Nat.le_zero.mp (Nat.le_of_succ_le_succ h)
      have hsame : calls.map (Called.answer id y) = calls.map fun other => other := by
        apply List.map_congr_left
        intro other hother
        apply Called.answer_of_not_waits
        simpa using List.countP_eq_zero.mp hzero other hother
      obtain ⟨hanswer, hfate⟩ := Called.answer_of_waits hwaits y
      have htaken : takenAnswers (c :: calls) = takenAnswers calls := by
        rw [takenAnswers, List.filterMap_cons_none]
        · rfl
        · rw [hfate]
          rfl
      rw [hsame, List.map_id', hanswer, htaken]
      exact (List.perm_append_singleton y (takenAnswers calls)).symm.subperm
    | false =>
      rw [List.countP_cons_of_neg (by rw [hwaits]; exact Bool.false_ne_true)] at h
      rw [Called.answer_of_not_waits hwaits, takenAnswers, takenAnswers,
        List.filterMap_cons, List.filterMap_cons]
      cases c.fate.answer with
      | none => exact ih h
      | some z => exact (List.subperm_cons z).mpr (ih h)

theorem takenAnswers_supersede (calls : List (Called κ α β)) (id : Option κ) :
    takenAnswers (calls.map (Called.supersede id)) = takenAnswers calls := by
  rw [takenAnswers, List.filterMap_map, takenAnswers]
  apply List.filterMap_congr
  intro c _
  rw [Function.comp_apply, Called.supersede]
  split
  · next hfate =>
      rw [hfate]
      split
      · rfl
      · rw [hfate]
  · rfl

theorem takenAnswers_subperm (events : List (CallEvent κ α β)) :
    (takenAnswers (called events)).Subperm (events.filterMap CallEvent.asAnswer) := by
  induction events using List.reverseRecOn with
  | nil => exact List.Subperm.refl _
  | append_singleton events event ih =>
    rw [List.filterMap_append]
    cases event with
    | answer id y =>
      rw [called_append_answer]
      exact (takenAnswers_answer (countP_waitsFor events id) y).trans
        ((List.subperm_append_right [y]).mpr ih)
    | call id x =>
      have htaken : takenAnswers (called (events ++ [.call id x])) =
          takenAnswers (called events) := by
        rw [called_append_call, takenAnswers, List.filterMap_append]
        exact (List.append_nil _).trans (takenAnswers_supersede (called events) id)
      rw [htaken]
      exact ih.trans (List.sublist_append_left _ _).subperm

end HerdrWebui
