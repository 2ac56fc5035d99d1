import Mathlib.Tactic

/-!
Paging through a list from its end. A page has at most `size` items and ends at a cut; it
comes with a key for the place it starts at, if it does not start at the beginning and the
place has a key. The next request asks for what is below that key.

Paging through a list from its beginning. A page starts at an offset and comes with a flag; the
next request asks for the offset behind it, until a page is taken for the last one.

Nothing here is about a particular program.
-/

namespace HerdrWebui

variable {α κ : Type*}

/-- The pages from a request on, newest first, if `fuel` requests are enough and none of
them is refused. -/
def follow (page : Option κ → Option (List α × Option κ)) :
    Nat → Option κ → Option (List (List α))
  | 0, _ => none
  | fuel + 1, request =>
    match page request with
    | none => none
    | some (items, none) => some [items]
    | some (items, some key) => (follow page fuel (some key)).map (items :: ·)

def pageBelow (size : Nat) (mark : Nat → Option κ) (xs : List α) (cut : Nat) :
    List α × Option κ :=
  ((xs.take cut).drop (cut - size), if cut - size = 0 then none else mark (cut - size))

/-- A server of the pages of a list; `mark` is the key of a place, and keys are accepted
or not. -/
structure Serves (page : Option κ → Option (List α × Option κ)) (size : Nat)
    (mark : Nat → Option κ) (xs : List α) (accepts : Prop) : Prop where
  size_pos : 0 < size
  newest : page none = some (pageBelow size mark xs xs.length)
  older : ∀ {start key}, start < xs.length → mark start = some key → accepts →
    page (some key) = some (pageBelow size mark xs start)
  refused : ∀ {start key}, start < xs.length → mark start = some key → ¬accepts →
    page (some key) = none

/-- The pages below a cut start at places with a key. -/
def Marked (size : Nat) (mark : Nat → Option κ) (cut : Nat) : Prop :=
  ∀ k, 0 < k → size * k < cut → (mark (cut - size * k)).isSome

/-- Every page below a cut can be asked for. -/
def Complete (size : Nat) (mark : Nat → Option κ) (accepts : Prop) (cut : Nat) : Prop :=
  Marked size mark cut ∧ (cut ≤ size ∨ accepts)

section Cuts

variable {size cut start : Nat} {mark : Nat → Option κ} {xs : List α} {accepts : Prop}

theorem pageBelow_of_le (h : cut ≤ size) :
    pageBelow size mark xs cut = (xs.take cut, none) := by
  rw [pageBelow, Nat.sub_eq_zero_of_le h, List.drop_zero, if_pos rfl]

theorem pageBelow_of_lt (h : size < cut) :
    pageBelow size mark xs cut = ((xs.take cut).drop (cut - size), mark (cut - size)) := by
  rw [pageBelow, if_neg (Nat.sub_pos_of_lt h).ne']

theorem complete_of_le (h : cut ≤ size) : Complete size mark accepts cut := by
  refine ⟨fun k hk hlt => ?_, .inl h⟩
  have hsize : size ≤ size * k := Nat.le_mul_of_pos_right size hk
  omega

theorem Complete.accepted (h : Complete size mark accepts cut) (hlt : size < cut) : accepts :=
  h.2.resolve_left hlt.not_ge

theorem Complete.isSome (h : Complete size mark accepts cut) (hlt : size < cut) :
    (mark (cut - size)).isSome := by
  have hone := h.1 1 Nat.one_pos
  rw [Nat.mul_one] at hone
  exact hone hlt

theorem complete_sub (hlt : size < cut) (hmark : (mark (cut - size)).isSome) (haccepts : accepts) :
    Complete size mark accepts cut ↔ Complete size mark accepts (cut - size) := by
  have hplace (k : Nat) : cut - size - size * k = cut - size * (k + 1) := by
    rw [Nat.mul_succ, Nat.sub_sub, Nat.add_comm]
  constructor
  · intro h
    refine ⟨fun k _ hk => ?_, .inr haccepts⟩
    rw [hplace]
    apply h.1 (k + 1) k.succ_pos
    rw [Nat.mul_succ]
    omega
  · intro h
    refine ⟨fun k hpos hk => ?_, .inr haccepts⟩
    obtain ⟨k, rfl⟩ := Nat.exists_eq_succ_of_ne_zero hpos.ne'
    rcases Nat.eq_zero_or_pos k with rfl | hk'
    · rw [Nat.mul_one]
      exact hmark
    · rw [← hplace]
      apply h.1 k hk'
      rw [Nat.mul_succ] at hk
      omega

theorem take_append_page (h : start ≤ cut) :
    xs.take start ++ (xs.take cut).drop start = xs.take cut := by
  have hbelow : (xs.take cut).take start = xs.take start := by
    rw [List.take_take, Nat.min_eq_left h]
  rw [← hbelow]
  exact List.take_append_drop start (xs.take cut)

def lastPage (size cut : Nat) : Nat := (cut - 1) % size + 1

theorem lastPage_of_le (hpos : 0 < cut) (h : cut ≤ size) : lastPage size cut = cut := by
  rw [lastPage, Nat.mod_eq_of_lt (by omega)]
  omega

theorem lastPage_sub (h : size < cut) : lastPage size cut = lastPage size (cut - size) := by
  rw [lastPage, lastPage, Nat.mod_eq_sub_mod (by omega), Nat.sub_right_comm]

theorem lastPage_le (hpos : 0 < cut) : lastPage size cut ≤ cut := by
  have hle := Nat.mod_le (cut - 1) size
  rw [lastPage]
  omega

end Cuts

section Follow

variable {page : Option κ → Option (List α × Option κ)} {request : Option κ} {size cut : Nat}
  {mark : Nat → Option κ} {xs : List α} {accepts : Prop} {items : List α} {key : κ}

theorem follow_last (fuel : Nat) (h : page request = some (items, none)) :
    follow page (fuel + 1) request = some [items] := by
  rw [follow, h]

theorem follow_next (fuel : Nat) (h : page request = some (items, some key)) :
    follow page (fuel + 1) request = (follow page fuel (some key)).map (items :: ·) := by
  rw [follow, h]

theorem follow_unique {fuel fuel' : Nat} {pages pages' : List (List α)}
    (h : follow page fuel request = some pages) (h' : follow page fuel' request = some pages') :
    pages = pages' := by
  induction fuel generalizing fuel' request pages pages' with
  | zero => cases h
  | succ fuel ih =>
    cases fuel' with
    | zero => cases h'
    | succ fuel' =>
      cases hpage : page request with
      | none =>
        rw [follow, hpage] at h
        cases h
      | some answer =>
        obtain ⟨items, _ | key⟩ := answer
        · rw [follow_last fuel hpage] at h
          rw [follow_last fuel' hpage] at h'
          exact Option.some.inj (h.symm.trans h')
        · rw [follow_next fuel hpage, Option.map_eq_some_iff] at h
          rw [follow_next fuel' hpage, Option.map_eq_some_iff] at h'
          obtain ⟨rest, hrest, rfl⟩ := h
          obtain ⟨rest', hrest', rfl⟩ := h'
          rw [ih hrest hrest']

/-- What following the keys gives below a cut: the whole list up to it, the oldest page
last and no item of it before. -/
structure Delivers (size : Nat) (xs : List α) (cut : Nat) (pages : List (List α)) : Prop where
  flatten : pages.reverse.flatten = xs.take cut
  oldest : 0 < cut → ∃ newer, pages = newer ++ [xs.take (lastPage size cut)] ∧
    ∀ page ∈ newer, page ⊆ xs.drop (lastPage size cut)

theorem Serves.follow_complete (h : Serves page size mark xs accepts) (hcut : cut ≤ xs.length)
    (hpage : page request = some (pageBelow size mark xs cut))
    (hcomplete : Complete size mark accepts cut) :
    ∃ fuel pages, follow page fuel request = some pages ∧ Delivers size xs cut pages := by
  induction cut using Nat.strong_induction_on generalizing request with
  | _ cut ih =>
    rcases Nat.lt_or_ge size cut with hlt | hle
    · obtain ⟨key, hkey⟩ := Option.isSome_iff_exists.mp (hcomplete.isSome hlt)
      have haccepts := hcomplete.accepted hlt
      have hbelow : cut - size < cut := Nat.sub_lt (by omega) h.size_pos
      have hcomplete' := (complete_sub hlt (by rw [hkey]; rfl) haccepts).mp hcomplete
      obtain ⟨fuel, pages, hfollow, hdelivers⟩ := ih (cut - size) hbelow (by omega)
        (h.older (hbelow.trans_le hcut) hkey haccepts) hcomplete'
      rw [pageBelow_of_lt hlt, hkey] at hpage
      refine ⟨fuel + 1, (xs.take cut).drop (cut - size) :: pages, ?_, ?_, fun _ => ?_⟩
      · rw [follow_next fuel hpage, hfollow]
        rfl
      · rw [List.reverse_cons, List.flatten_append, hdelivers.flatten, List.flatten_singleton]
        exact take_append_page hbelow.le
      · have hpos : 0 < cut - size := Nat.sub_pos_of_lt hlt
        obtain ⟨newer, hpages, hnewer⟩ := hdelivers.oldest hpos
        rw [lastPage_sub hlt]
        refine ⟨(xs.take cut).drop (cut - size) :: newer, by rw [hpages]; rfl, ?_⟩
        intro other hother
        rcases List.mem_cons.mp hother with rfl | hold
        · have hpage' := ((List.take_sublist cut xs).drop (cut - size)).subset
          exact List.Subset.trans hpage' (List.drop_subset_drop_left xs (lastPage_le hpos))
        · exact hnewer other hold
    · rw [pageBelow_of_le hle] at hpage
      refine ⟨1, [xs.take cut], follow_last 0 hpage, List.flatten_singleton, fun hpos => ?_⟩
      rw [lastPage_of_le hpos hle]
      exact ⟨[], rfl, fun _ hmem => absurd hmem List.not_mem_nil⟩

theorem Serves.follow_incomplete (h : Serves page size mark xs accepts)
    (hcut : cut ≤ xs.length) (hpage : page request = some (pageBelow size mark xs cut))
    (hincomplete : ¬Complete size mark accepts cut) {fuel : Nat} {pages : List (List α)}
    (hfollow : follow page fuel request = some pages) :
    ∃ start, 0 < start ∧ start ≤ cut ∧ pages.reverse.flatten = (xs.take cut).drop start := by
  induction fuel generalizing cut request pages with
  | zero => cases hfollow
  | succ fuel ih =>
    have hlt : size < cut := lt_of_not_ge fun hle => hincomplete (complete_of_le hle)
    have hpos : 0 < cut - size := Nat.sub_pos_of_lt hlt
    have hbelow : cut - size < cut := Nat.sub_lt (by omega) h.size_pos
    rw [pageBelow_of_lt hlt] at hpage
    cases hmark : mark (cut - size) with
    | none =>
      rw [hmark] at hpage
      rw [follow_last fuel hpage] at hfollow
      obtain rfl := Option.some.inj hfollow
      exact ⟨cut - size, hpos, hbelow.le, List.flatten_singleton⟩
    | some key =>
      rw [hmark] at hpage
      rw [follow_next fuel hpage, Option.map_eq_some_iff] at hfollow
      obtain ⟨rest, hrest, rfl⟩ := hfollow
      by_cases haccepts : accepts
      · have hbelow' := h.older (hbelow.trans_le hcut) hmark haccepts
        have hincomplete' : ¬Complete size mark accepts (cut - size) := by
          rwa [← complete_sub hlt (by rw [hmark]; rfl) haccepts]
        obtain ⟨start, hstart, hle, hflatten⟩ :=
          ih (hbelow.le.trans hcut) hbelow' hincomplete' hrest
        refine ⟨start, hstart, hle.trans hbelow.le, ?_⟩
        have hlength : start ≤ (xs.take (cut - size)).length := by
          rw [List.length_take]
          omega
        rw [List.reverse_cons, List.flatten_append, hflatten, List.flatten_singleton,
          ← List.drop_append_of_le_length hlength, take_append_page hbelow.le]
      · have hrefused := h.refused (hbelow.trans_le hcut) hmark haccepts
        cases fuel with
        | zero => cases hrest
        | succ fuel =>
          rw [follow, hrefused] at hrest
          cases hrest

/-- Following the keys gives the whole list exactly if every page can be asked for. -/
theorem Serves.follow_iff (h : Serves page size mark xs accepts) :
    (∃ fuel pages, follow page fuel none = some pages ∧ pages.reverse.flatten = xs) ↔
      Complete size mark accepts xs.length := by
  constructor
  · rintro ⟨fuel, pages, hfollow, hflatten⟩
    by_contra hincomplete
    obtain ⟨start, hpos, hle, hpart⟩ := h.follow_incomplete le_rfl h.newest hincomplete hfollow
    have hlength := congrArg List.length (hflatten.symm.trans hpart)
    rw [List.length_drop, List.length_take, Nat.min_self] at hlength
    omega
  · intro hcomplete
    obtain ⟨fuel, pages, hfollow, hdelivers⟩ := h.follow_complete le_rfl h.newest hcomplete
    exact ⟨fuel, pages, hfollow, hdelivers.flatten.trans List.take_length⟩

end Follow

section Offsets

variable (page : Nat → Option (List α × Bool)) (last : List α × Bool → Bool) (size : Nat)

/-- The pages from an offset on, if `fuel` requests are enough and all of them are answered. -/
def pagesFrom : (fuel offset : Nat) → Option (List (List α))
  | 0, _ => none
  | fuel + 1, offset =>
    match page offset with
    | none => none
    | some answer =>
      if last answer then some [answer.1]
      else (pagesFrom fuel (offset + size)).map (answer.1 :: ·)

/-- A server of the slices of a list. Only a page that reaches the end is taken for the last. -/
structure ServesSlices (xs : List α) : Prop where
  items : ∀ {offset answer}, page offset = some answer → answer.1 = (xs.drop offset).take size
  reaches : ∀ {offset answer}, page offset = some answer → last answer → xs.length ≤ offset + size

variable {page last size} {xs : List α} {fuel offset bound : Nat} {pages : List (List α)}

theorem ServesSlices.flatten_pagesFrom (h : ServesSlices page last size xs)
    (hpages : pagesFrom page last size fuel offset = some pages) :
    pages.flatten = xs.drop offset := by
  induction fuel generalizing offset pages with
  | zero => cases hpages
  | succ fuel ih =>
    rw [pagesFrom] at hpages
    cases hpage : page offset with
    | none =>
      rw [hpage] at hpages
      cases hpages
    | some answer =>
      simp only [hpage] at hpages
      have hitems := h.items hpage
      by_cases hlast : last answer
      · rw [if_pos hlast] at hpages
        cases hpages
        have hend := h.reaches hpage hlast
        rw [List.flatten_singleton, hitems, List.take_of_length_le]
        rw [List.length_drop]
        omega
      · rw [if_neg hlast] at hpages
        obtain ⟨rest, hrest, rfl⟩ := Option.map_eq_some_iff.mp hpages
        rw [List.flatten_cons, ih hrest, hitems, ← List.drop_drop]
        exact List.take_append_drop size (xs.drop offset)

theorem pagesFrom_isSome (hsize : 0 < size) (hanswered : ∀ offset, (page offset).isSome)
    (hlast : ∀ {offset answer}, bound ≤ offset → page offset = some answer → last answer)
    (hfuel : bound ≤ offset + fuel) : (pagesFrom page last size (fuel + 1) offset).isSome := by
  induction fuel generalizing offset with
  | zero =>
    obtain ⟨answer, hpage⟩ := Option.isSome_iff_exists.mp (hanswered offset)
    rw [pagesFrom, hpage]
    simp [hlast hfuel hpage]
  | succ fuel ih =>
    obtain ⟨answer, hpage⟩ := Option.isSome_iff_exists.mp (hanswered offset)
    rw [pagesFrom, hpage]
    by_cases hend : last answer
    · simp [hend]
    · simp only [hend, Bool.false_eq_true, if_false, Option.isSome_map]
      exact ih (by omega)

/-- The pages up to the first that reports no more are the list, and a page reports more if and
only if there is something on a later one. -/
def PagesTile (page : Nat → Option (List α × Bool)) (size : Nat) (xs : List α) : Prop :=
  (∃ fuel pages, pagesFrom page (fun answer => !answer.2) size fuel 0 = some pages ∧
    pages.flatten = xs) ∧
  ∀ offset answer, page offset = some answer →
    (answer.2 = true ↔ ∃ k later, 0 < k ∧ page (offset + k * size) = some later ∧ later.1 ≠ [])

theorem slice_ne_nil_iff (hsize : 0 < size) (offset : Nat) :
    (xs.drop offset).take size ≠ [] ↔ offset < xs.length := by
  rw [ne_eq, List.take_eq_nil_iff, List.drop_eq_nil_iff]
  omega

theorem exists_later_iff (hsize : 0 < size)
    (hpage : ∀ offset, ∃ more, page offset = some ((xs.drop offset).take size, more))
    (offset : Nat) :
    (∃ k later, 0 < k ∧ page (offset + k * size) = some later ∧ later.1 ≠ []) ↔
      offset + size < xs.length := by
  constructor
  · rintro ⟨k, later, hk, hlater, hne⟩
    obtain ⟨more, hmore⟩ := hpage (offset + k * size)
    rw [hmore] at hlater
    cases hlater
    have hlt := (slice_ne_nil_iff hsize _).mp hne
    have hle := Nat.le_mul_of_pos_left size hk
    omega
  · intro hlt
    obtain ⟨more, hmore⟩ := hpage (offset + 1 * size)
    refine ⟨1, _, Nat.one_pos, hmore, ?_⟩
    rw [Nat.one_mul]
    exact (slice_ne_nil_iff hsize _).mpr hlt

theorem pagesTile_of_slices (hsize : 0 < size)
    (hpage : ∀ offset, page offset =
      some ((xs.drop offset).take size, decide (offset + size < xs.length))) :
    PagesTile page size xs := by
  have hserves : ServesSlices page (fun answer => !answer.2) size xs := by
    constructor
    · intro offset answer hanswer
      rw [hpage] at hanswer
      cases hanswer
      rfl
    · intro offset answer hanswer hlast
      rw [hpage] at hanswer
      cases hanswer
      simpa using hlast
  refine ⟨?_, ?_⟩
  · have hanswered (offset : Nat) : (page offset).isSome := by simp [hpage]
    have hlast {offset : Nat} {answer : List α × Bool} (hle : xs.length ≤ offset)
        (hanswer : page offset = some answer) : (fun answer => !answer.2) answer = true := by
      rw [hpage] at hanswer
      cases hanswer
      simp only [Bool.not_eq_true', decide_eq_false_iff_not]
      omega
    have hfuel : xs.length ≤ 0 + xs.length := by omega
    obtain ⟨pages, hpages⟩ :=
      Option.isSome_iff_exists.mp (pagesFrom_isSome hsize hanswered hlast hfuel)
    exact ⟨_, pages, hpages, hserves.flatten_pagesFrom hpages⟩
  · intro offset answer hanswer
    rw [exists_later_iff hsize (fun offset => ⟨_, hpage offset⟩) offset]
    rw [hpage] at hanswer
    cases hanswer
    exact decide_eq_true_iff

end Offsets

end HerdrWebui
