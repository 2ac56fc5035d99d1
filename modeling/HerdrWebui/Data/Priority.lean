import Mathlib.Data.List.MinMax
import HerdrWebui.Data.Table

/-!
Tables in which a key keeps the last of the values of the highest priority that it was given.
In whatever order the values are given the priority is the same, and the value too where
there is only one of the highest priority.

Nothing here is about a particular program.
-/

namespace HerdrWebui

section Values

variable {ν β : Type*} [LinearOrder β] {priority : ν → β} {values values' : List ν} {v : ν}

/-- The last of the values of the highest priority. -/
def lastHighest (priority : ν → β) (values : List ν) : Option ν :=
  values.reverse.argmax priority

structure IsHighest (priority : ν → β) (values : List ν) (v : ν) : Prop where
  mem : v ∈ values
  le : ∀ other ∈ values, priority other ≤ priority v

/-- There are no two different values of the highest priority. -/
def Unrivalled (priority : ν → β) (values : List ν) : Prop :=
  ∀ v w, IsHighest priority values v → IsHighest priority values w → v = w

@[simp] theorem lastHighest_nil : lastHighest priority [] = none := rfl

@[simp] theorem lastHighest_concat (values : List ν) (v : ν) :
    lastHighest priority (values ++ [v]) =
      match lastHighest priority values with
      | none => some v
      | some w => if priority w ≤ priority v then some v else some w := by
  rw [lastHighest, List.reverse_append, List.reverse_singleton, List.singleton_append,
    List.argmax_cons, ← lastHighest]
  cases lastHighest priority values with
  | none => rfl
  | some w =>
    by_cases hle : priority w ≤ priority v
    · simp [hle]
    · simp [hle, lt_of_not_ge hle]

theorem lastHighest_eq_none : lastHighest priority values = none ↔ values = [] := by
  rw [lastHighest, List.argmax_eq_none, List.reverse_eq_nil_iff]

theorem isHighest_lastHighest (h : lastHighest priority values = some v) :
    IsHighest priority values v := by
  constructor
  · exact List.mem_reverse.mp (List.argmax_mem h)
  · intro other hother
    exact List.le_of_mem_argmax (List.mem_reverse.mpr hother) h

theorem priority_lastHighest_congr (priority : ν → β) (h : ∀ v, v ∈ values' ↔ v ∈ values) :
    (lastHighest priority values').map priority = (lastHighest priority values).map priority := by
  cases hlast : lastHighest priority values with
  | none =>
    have hnil : values' = [] := by
      apply List.eq_nil_iff_forall_not_mem.mpr
      intro v hv
      rw [h, lastHighest_eq_none.mp hlast] at hv
      cases hv
    rw [hnil, lastHighest_nil]
  | some v =>
    have hv := isHighest_lastHighest hlast
    cases hlast' : lastHighest priority values' with
    | none =>
      have hmem := (h v).mpr hv.mem
      rw [lastHighest_eq_none.mp hlast'] at hmem
      cases hmem
    | some v' =>
      have hv' := isHighest_lastHighest hlast'
      apply congrArg some
      apply le_antisymm
      · exact hv.le v' ((h v').mp hv'.mem)
      · exact hv'.le v ((h v).mpr hv.mem)

theorem lastHighest_congr (h : ∀ v, v ∈ values' ↔ v ∈ values)
    (hone : Unrivalled priority values) :
    lastHighest priority values' = lastHighest priority values := by
  have hpriority := priority_lastHighest_congr priority h
  cases hlast : lastHighest priority values with
  | none =>
    rw [hlast, Option.map_none, Option.map_eq_none_iff] at hpriority
    exact hpriority
  | some v =>
    rw [hlast, Option.map_some, Option.map_eq_some_iff] at hpriority
    obtain ⟨v', hlast', -⟩ := hpriority
    have hv' := isHighest_lastHighest hlast'
    rw [hlast']
    apply congrArg some
    apply hone v' v _ (isHighest_lastHighest hlast)
    exact ⟨(h v').mp hv'.mem, fun other hother => hv'.le other ((h other).mpr hother)⟩

end Values

namespace Table

variable {κ ν β : Type*} [DecidableEq κ] [LinearOrder β] {priority : ν → β}

/-- A value goes in unless the key has one of a higher priority. -/
def raise (priority : ν → β) (m : Table κ ν) (entry : κ × ν) : Table κ ν :=
  match m.lookup entry.1 with
  | none => m.insert entry.1 entry.2
  | some v => if priority v ≤ priority entry.2 then m.insert entry.1 entry.2 else m

def given (entries : List (κ × ν)) (k : κ) : List ν :=
  (entries.filter (·.1 = k)).map (·.2)

theorem mem_given {entries : List (κ × ν)} {k : κ} {v : ν} :
    v ∈ given entries k ↔ (k, v) ∈ entries := by
  simp only [given, List.mem_map, List.mem_filter, decide_eq_true_eq]
  constructor
  · rintro ⟨entry, ⟨hentry, rfl⟩, rfl⟩
    exact hentry
  · intro h
    exact ⟨(k, v), ⟨h, rfl⟩, rfl⟩

theorem lookup_raise (m : Table κ ν) (entry : κ × ν) (k : κ) :
    Finmap.lookup k (raise priority m entry) =
      if entry.1 = k then
        match Finmap.lookup k m with
        | none => some entry.2
        | some v => if priority v ≤ priority entry.2 then some entry.2 else some v
      else Finmap.lookup k m := by
  unfold raise
  by_cases hk : entry.1 = k
  · subst hk
    cases hlookup : Finmap.lookup entry.1 m with
    | none => simp
    | some v => by_cases hle : priority v ≤ priority entry.2 <;> simp [hle, hlookup]
  · cases Finmap.lookup entry.1 m with
    | none => simp [hk, Ne.symm hk]
    | some v => by_cases hle : priority v ≤ priority entry.2 <;> simp [hle, hk, Ne.symm hk]

theorem lookup_foldl_raise (entries : List (κ × ν)) (k : κ) :
    Finmap.lookup k (entries.foldl (raise priority) ∅) =
      lastHighest priority (given entries k) := by
  induction entries using List.reverseRecOn with
  | nil => rfl
  | append_singleton entries entry ih =>
    rw [List.foldl_append, List.foldl_cons, List.foldl_nil, lookup_raise, ih]
    by_cases hk : entry.1 = k
    · have hgiven : given (entries ++ [entry]) k = given entries k ++ [entry.2] := by
        simp [given, hk]
      rw [if_pos hk, hgiven, lastHighest_concat]
    · have hgiven : given (entries ++ [entry]) k = given entries k := by
        simp [given, hk]
      rw [if_neg hk, hgiven]

end Table

end HerdrWebui
