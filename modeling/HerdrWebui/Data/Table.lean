import Mathlib.Data.Finmap
import Mathlib.Tactic

/-!
Finite tables with keys of one type and values of one type: Mathlib's
`Finmap`, with the lookup equations written for every key at once (an `if` on
the key instead of one lemma for the key and one for the others), so that a
proof splits on the keys it compares and on nothing else, and with the update
of the value at one key.

Nothing here is about a particular program.
-/

namespace HerdrWebui

/-- A finite map from keys to values. -/
abbrev Table (κ ν : Type*) := Finmap fun _ : κ => ν

namespace Table

variable {κ ν : Type*} [DecidableEq κ]

@[simp, grind =] theorem lookup_insert_eq (m : Table κ ν) (k k' : κ) (v : ν) :
    Finmap.lookup k' (m.insert k v) =
      if k' = k then some v else Finmap.lookup k' m := by
  split
  · next h => rw [h, Finmap.lookup_insert]
  · next h => rw [Finmap.lookup_insert_of_ne m h]

@[simp, grind =] theorem lookup_erase_eq (m : Table κ ν) (k k' : κ) :
    Finmap.lookup k' (m.erase k) =
      if k' = k then none else Finmap.lookup k' m := by
  split
  · next h => rw [h, Finmap.lookup_erase]
  · next h => rw [Finmap.lookup_erase_ne h]

theorem lookup_insert_eq_some {m : Table κ ν} {k k' : κ} {v v' : ν} :
    Finmap.lookup k' (m.insert k v) = some v' ↔
      (k' = k ∧ v' = v) ∨ (k' ≠ k ∧ Finmap.lookup k' m = some v') := by
  rw [lookup_insert_eq]
  split
  · next h => simp [h, eq_comm]
  · next h => simp [h]

theorem lookup_erase_eq_some {m : Table κ ν} {k k' : κ} {v : ν} :
    Finmap.lookup k' (m.erase k) = some v ↔
      k' ≠ k ∧ Finmap.lookup k' m = some v := by
  rw [lookup_erase_eq]
  split
  · next h => simp [h]
  · next h => simp [h]

/-- Apply `f` to the value at `k`, if there is one. -/
def modify (m : Table κ ν) (k : κ) (f : ν → ν) : Table κ ν :=
  match m.lookup k with
  | none => m
  | some v => m.insert k (f v)

theorem lookup_modify (m : Table κ ν) (k k' : κ) (f : ν → ν) :
    Finmap.lookup k' (modify m k f) =
      (Finmap.lookup k' m).map fun v => if k' = k then f v else v := by
  unfold modify
  rcases eq_or_ne k' k with rfl | hk
  · split <;> simp [*]
  · split <;> simp [hk]

@[simp, grind =] theorem lookup_modify_eq_some {m : Table κ ν} {k k' : κ}
    {f : ν → ν} {v : ν} :
    Finmap.lookup k' (modify m k f) = some v ↔
      ∃ v', Finmap.lookup k' m = some v' ∧ v = if k' = k then f v' else v' := by
  rw [lookup_modify, Option.map_eq_some_iff]
  simp only [eq_comm]

theorem forall_lookup_modify {m : Table κ ν} {k : κ} {f : ν → ν} {p : κ → ν → Prop}
    (h : ∀ k' v, Finmap.lookup k' m = some v → p k' v) (hf : ∀ v, p k v → p k (f v))
    (k' : κ) (v : ν) (hv : Finmap.lookup k' (modify m k f) = some v) : p k' v := by
  obtain ⟨v', hv', rfl⟩ := lookup_modify_eq_some.mp hv
  have hold := h k' v' hv'
  split
  · next heq =>
      subst heq
      exact hf v' hold
  · exact hold

theorem forall_lookup_insert {m : Table κ ν} {k : κ} {v₀ : ν} {p : κ → ν → Prop}
    (h : ∀ k' v, Finmap.lookup k' m = some v → p k' v) (hnew : p k v₀)
    (k' : κ) (v : ν) (hv : Finmap.lookup k' (m.insert k v₀) = some v) : p k' v := by
  rcases lookup_insert_eq_some.mp hv with ⟨rfl, rfl⟩ | ⟨_, hold⟩
  · exact hnew
  · exact h k' v hold

theorem forall_lookup_erase {m : Table κ ν} {k : κ} {p : κ → ν → Prop}
    (h : ∀ k' v, Finmap.lookup k' m = some v → p k' v)
    (k' : κ) (v : ν) (hv : Finmap.lookup k' (m.erase k) = some v) : p k' v :=
  h k' v (lookup_erase_eq_some.mp hv).2

@[simp, grind =] theorem lookup_modify_eq_none {m : Table κ ν} {k k' : κ}
    {f : ν → ν} :
    Finmap.lookup k' (modify m k f) = none ↔ Finmap.lookup k' m = none := by
  rw [lookup_modify, Option.map_eq_none_iff]

@[simp] theorem mem_modify {m : Table κ ν} {k k' : κ} {f : ν → ν} :
    k' ∈ modify m k f ↔ k' ∈ m := by
  rw [← not_iff_not, ← Finmap.lookup_eq_none, ← Finmap.lookup_eq_none,
    lookup_modify_eq_none]

@[simp] theorem mem_foldl_modify {m : Table κ ν} {keys : List κ} {k : κ}
    {f : ν → ν} :
    k ∈ keys.foldl (fun m k => modify m k f) m ↔ k ∈ m := by
  induction keys generalizing m with
  | nil => rfl
  | cons k₀ keys ih => rw [List.foldl_cons, ih, mem_modify]

theorem modify_insert_self (m : Table κ ν) (k : κ) (v : ν) (f : ν → ν) :
    modify (m.insert k v) k f = m.insert k (f v) := by
  apply Finmap.ext_lookup
  intro k'
  rw [lookup_modify, lookup_insert_eq, lookup_insert_eq]
  split <;> simp [*]

theorem lookup_foldl_modify_eq_some (f : ν → ν) (hf : ∀ v, f (f v) = f v)
    (keys : List κ) {m : Table κ ν} {k : κ} {v : ν} :
    Finmap.lookup k (keys.foldl (fun m k => modify m k f) m) = some v ↔
      ∃ v', Finmap.lookup k m = some v' ∧
        v = if k ∈ keys then f v' else v' := by
  induction keys generalizing m with
  | nil => simp
  | cons k₀ keys ih =>
    rw [List.foldl_cons, ih]
    simp only [lookup_modify_eq_some, List.mem_cons]
    constructor
    · rintro ⟨_, ⟨v', hv', rfl⟩, rfl⟩
      refine ⟨v', hv', ?_⟩
      by_cases hk : k = k₀ <;> by_cases hmem : k ∈ keys <;>
        simp_all
    · rintro ⟨v', hv', rfl⟩
      refine ⟨_, ⟨v', hv', rfl⟩, ?_⟩
      by_cases hk : k = k₀ <;> by_cases hmem : k ∈ keys <;>
        simp_all

section Rows

variable {β : Type*} {f : ν → β} {inserted : Option (κ × β)} {m m' m'' : Table κ ν}

/-- As far as `f` sees the rows of `m'`, each was inserted, or stood under its key
in `m`. -/
def RowsFrom (f : ν → β) (inserted : Option (κ × β)) (m m' : Table κ ν) : Prop :=
  ∀ k v', Finmap.lookup k m' = some v' → inserted = some (k, f v') ∨
    ((∀ b, inserted ≠ some (k, b)) ∧ ∃ v, Finmap.lookup k m = some v ∧ f v = f v')

namespace RowsFrom

theorem refl (f : ν → β) (m : Table κ ν) : RowsFrom f none m m :=
  fun _ v' hv' => .inr ⟨nofun, v', hv', rfl⟩

theorem trans (h : RowsFrom f inserted m m') (h' : RowsFrom f none m' m'') :
    RowsFrom f inserted m m'' := by
  intro k v'' hv''
  obtain ⟨v', hv', heq⟩ := (h' k v'' hv'').resolve_left nofun |>.2
  rw [← heq]
  exact h k v' hv'

theorem old (h : RowsFrom f none m m') {k : κ} {v' : ν}
    (hv' : Finmap.lookup k m' = some v') : ∃ v, Finmap.lookup k m = some v ∧ f v = f v' :=
  ((h k v' hv').resolve_left nofun).2

theorem erase (f : ν → β) (m : Table κ ν) (k : κ) : RowsFrom f none m (m.erase k) :=
  fun _ v' hv' => .inr ⟨nofun, v', (lookup_erase_eq_some.mp hv').2, rfl⟩

theorem insert (f : ν → β) (m : Table κ ν) (k : κ) (v : ν) :
    RowsFrom f (some (k, f v)) m (m.insert k v) := by
  intro k' v' hv'
  rcases lookup_insert_eq_some.mp hv' with ⟨rfl, rfl⟩ | ⟨hne, hold⟩
  · exact .inl rfl
  · refine .inr ⟨?_, v', hold, rfl⟩
    intro b hb
    exact hne (congrArg Prod.fst (Option.some.inj hb)).symm

theorem modify {g : ν → ν} (hg : ∀ v, f (g v) = f v) (m : Table κ ν) (k : κ) :
    RowsFrom f none m (Table.modify m k g) := by
  intro k' v' hv'
  obtain ⟨v, hv, rfl⟩ := lookup_modify_eq_some.mp hv'
  refine .inr ⟨nofun, v, hv, ?_⟩
  split
  · exact (hg v).symm
  · rfl

end RowsFrom

end Rows

end Table

end HerdrWebui
