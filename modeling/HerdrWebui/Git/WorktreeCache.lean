import HerdrWebui.Concurrency.Threads
import HerdrWebui.Git.Tokens

/-!
The cached answers of `worktree.list` under any number of fetches and git operations.
A fetch looks its path up, asks the backend and puts the answer, in three steps. An
operation changes the repository and then drops the paths it names. In a run in which
no answer is put after an invalidation it is older than, and no invalidation ends with
an older answer under another path of the repository, the cache gives no old answer.
-/

namespace HerdrWebui.Git

open Concurrency

/-- `answeredAt` is the number of changes of the repositories when the backend gave
the answer. No code reads it. -/
structure WorktreeCacheEntry (V : Type) where
  fetchedAt : Nat
  value : V
  answeredAt : Nat
  deriving DecidableEq

/-- `moment` counts the changes of all repositories, and `settled` is the number of the
last change of a repository whose invalidation has returned. No code reads them. -/
structure WorktreeListCache (R V : Type) where
  entries : List (String × WorktreeCacheEntry V)
  now : Nat
  moment : Nat
  settled : R → Nat

section Cache

variable {R V : Type} (s : WorktreeListCache R V)

def worktreeListTtl : Nat := 2000

def WorktreeListCache.getKey (key : String) : Option (WorktreeCacheEntry V) :=
  (s.entries.lookup key).bind fun entry =>
    if s.now - entry.fetchedAt < worktreeListTtl then some entry else none

def WorktreeListCache.get (cwd : Option String) : Option (WorktreeCacheEntry V) :=
  cwd.bind s.getKey

def WorktreeListCache.invalidate (key : String) : WorktreeListCache R V :=
  { s with entries := s.entries.filter fun entry => entry.1 != key }

def WorktreeListCache.put (key : String) (value : V) (answeredAt : Nat) :
    WorktreeListCache R V :=
  { s with entries := (key, ⟨s.now, value, answeredAt⟩) :: (s.invalidate key).entries }

/-- The invalidation of the change of this number has returned. -/
def WorktreeListCache.settle [DecidableEq R] (repo : Option R) (change : Option Nat) :
    WorktreeListCache R V :=
  match repo, change with
  | some repo, some change =>
    { s with settled := Function.update s.settled repo (max (s.settled repo) change) }
  | _, _ => s

end Cache

/-- The operations that invalidate: the switch before a branch is deleted is one of
its own, and a prune knows what it has pruned. -/
inductive GitOperation where
  | switch (cwd : String)
  | switchBeforeDelete (cwd : String)
  | worktreeRemove (cwd path : String)
  | worktreePrune (cwd : String) (pruned : List String)
  deriving DecidableEq

def GitOperation.cwd : GitOperation → String
  | .switch cwd | .switchBeforeDelete cwd | .worktreeRemove cwd _ | .worktreePrune cwd _ => cwd

/-- The keys to drop. The request's own spelling of the path is the key. -/
def GitOperation.invalidates (home : Option String) : GitOperation → List String
  | .switch cwd | .switchBeforeDelete cwd => [cwd]
  | .worktreeRemove cwd path => [cwd, expandPathPrefix home path]
  | .worktreePrune cwd pruned => if pruned.isEmpty then [] else [cwd]

/-- Where a fetch of one path or an operation stands. -/
inductive WorktreePhase (V : Type) where
  | idle
  | missing (cwd : Option String)
  | answered (cwd : Option String) (response : V) (answeredAt : Nat)
  | served (response : Option V)
  | changed (path : String) (change : Option Nat) (keys : List String)
  deriving DecidableEq

inductive WorktreeAction (V : Type) where
  | lookup (cwd : Option String)
  | answer (response : Option V)
  | put
  | git (op : GitOperation) (changes : Bool)
  | invalidate
  | tick (time : Nat)

section Step

variable {R V : Type} [DecidableEq R] (home : Option String) (repoOf : String → Option R)

/-- An operation whose git command fails is no step. A fetch of many paths is one
thread for each of them. -/
def worktreeStep (a : WorktreeAction V) (s : WorktreeListCache R V) (l : WorktreePhase V) :
    Option (WorktreeListCache R V × WorktreePhase V) :=
  match a, l with
  | .lookup cwd, .idle =>
    -- the callers expand the path of the workspace
    let cwd := cwd.map (expandPathPrefix home)
    match s.get cwd with
    | some hit => some (s, .served (some hit.value))
    | none => some (s, .missing cwd)
  | .answer none, .missing _ => some (s, .served none)
  | .answer (some response), .missing cwd => some (s, .answered cwd response s.moment)
  | .put, .answered (some key) response answeredAt =>
    some (s.put key response answeredAt, .served (some response))
  | .put, .answered none response _ => some (s, .served (some response))
  | .git op changes, .idle =>
    match gitUiRepo home op.cwd with
    | .error _ => none
    | .ok path =>
      let moment := if changes then s.moment + 1 else s.moment
      some ({ s with moment },
        .changed path (if changes then some moment else none) (op.invalidates home))
  | .invalidate, .changed path change [key] =>
    some ((s.invalidate key).settle (repoOf path) change, .changed path change [])
  | .invalidate, .changed path change (key :: keys) =>
    some (s.invalidate key, .changed path change keys)
  | .tick time, l => some ({ s with now := s.now + time }, l)
  | _, _ => none

def WorktreeListCache.start (R V : Type) : WorktreeListCache R V := ⟨[], 0, 0, fun _ => 0⟩

def worktreeThreads : Program (WorktreeListCache R V) (WorktreePhase V) (WorktreeAction V) where
  init s := s = .start R V
  idle := .idle
  step := worktreeStep home repoOf

/-- No answer that a path of a repository gets is older than a change of the
repository whose invalidation has returned. -/
def NeverStale (s : WorktreeListCache R V) : Prop :=
  ∀ key entry, s.getKey key = some entry →
    ∀ repo, repoOf key = some repo → s.settled repo ≤ entry.answeredAt

/-- The cache has an older answer for the repository under another key. -/
def olderElsewhere (s : WorktreeListCache R V) (repo : R) (key : String) (change : Nat) : Bool :=
  s.entries.any fun other =>
    other.1 != key && repoOf other.1 == some repo &&
      (s.getKey other.1).any fun entry => entry.answeredAt < change

/-- An answer is put only while no invalidation of its repository has returned since
it was given, and the last invalidation of a change leaves no older answer. -/
def putsInTime (s : WorktreeListCache R V) (l : WorktreePhase V) (a : WorktreeAction V) : Bool :=
  match a, l with
  | .put, .answered (some key) _ answeredAt =>
    match repoOf key with
    | some repo => s.settled repo ≤ answeredAt
    | none => true
  | .invalidate, .changed path (some change) [key] =>
    match repoOf path with
    | some repo => !olderElsewhere repoOf s repo key change
    | none => true
  | _, _ => true

end Step

section Lookups

variable {R V : Type} {s : WorktreeListCache R V} {key k : String} {entry : WorktreeCacheEntry V}

theorem lookup_filter_ne {κ ν : Type} [DecidableEq κ] (l : List (κ × ν)) (k k' : κ) :
    (l.filter fun pair => pair.1 != k).lookup k' = if k' = k then none else l.lookup k' := by
  induction l with
  | nil => simp
  | cons pair l ih =>
    obtain ⟨k'', v⟩ := pair
    by_cases hk : k'' = k
    · rw [List.filter_cons_of_neg (by simpa using hk), ih, List.lookup_cons]
      by_cases hk' : k' = k
      · simp [hk']
      · rw [if_neg hk', if_neg hk', beq_eq_false_iff_ne.mpr (hk ▸ hk')]
    · rw [List.filter_cons_of_pos (by simpa using hk), List.lookup_cons, List.lookup_cons, ih]
      by_cases hk' : k' = k''
      · simp [hk', hk]
      · simp [beq_eq_false_iff_ne.mpr hk']

@[simp] theorem getKey_invalidate :
    (s.invalidate key).getKey k = if k = key then none else s.getKey k := by
  rw [WorktreeListCache.getKey, WorktreeListCache.invalidate, lookup_filter_ne]
  by_cases hk : k = key
  · simp [hk]
  · simp [hk, WorktreeListCache.getKey]

@[simp] theorem getKey_put {value : V} {answeredAt : Nat} :
    (s.put key value answeredAt).getKey k =
      if k = key then some ⟨s.now, value, answeredAt⟩ else s.getKey k := by
  by_cases hk : k = key
  · simp [hk, WorktreeListCache.getKey, WorktreeListCache.put, worktreeListTtl]
  · have hkept : (s.invalidate key).getKey k = _ := getKey_invalidate
    simp only [if_neg hk] at hkept ⊢
    rw [← hkept, WorktreeListCache.getKey, WorktreeListCache.put, List.lookup_cons,
      beq_eq_false_iff_ne.mpr hk]
    rfl

theorem getKey_tick {time : Nat}
    (h : WorktreeListCache.getKey { s with now := s.now + time } k = some entry) :
    s.getKey k = some entry := by
  obtain ⟨found, hfound, hlive⟩ := Option.bind_eq_some_iff.mp h
  dsimp only at hfound hlive
  split at hlive
  · next hold =>
      rw [WorktreeListCache.getKey, hfound, Option.bind_some, if_pos (by omega)]
      exact hlive
  · cases hlive

@[simp] theorem getKey_settle [DecidableEq R] {repo : Option R} {change : Option Nat} :
    (s.settle repo change).getKey k = s.getKey k := by
  cases repo <;> cases change <;> rfl

theorem olderElsewhere_iff [DecidableEq R] {repoOf : String → Option R} {repo : R}
    {change : Nat} :
    olderElsewhere repoOf s repo key change = true ↔
      ∃ k entry, k ≠ key ∧ repoOf k = some repo ∧ s.getKey k = some entry ∧
        entry.answeredAt < change := by
  simp only [olderElsewhere, List.any_eq_true, Bool.and_eq_true, bne_iff_ne, beq_iff_eq,
    Option.any_eq_true, decide_eq_true_eq]
  constructor
  · rintro ⟨other, -, ⟨hne, hrepo⟩, entry, hentry, hold⟩
    exact ⟨other.1, entry, hne, hrepo, hentry, hold⟩
  · rintro ⟨k, entry, hne, hrepo, hentry, hold⟩
    obtain ⟨found, hfound, -⟩ := Option.bind_eq_some_iff.mp hentry
    obtain ⟨before, after, hsplit, -⟩ := List.lookup_eq_some_iff.mp hfound
    exact ⟨(k, found), by simp [hsplit], ⟨hne, hrepo⟩, entry, hentry, hold⟩

end Lookups

section Fresh

variable {R V : Type} {repoOf : String → Option R} {s : WorktreeListCache R V} {key : String}

theorem neverStale_put_iff {value : V} {answeredAt : Nat} (h : NeverStale repoOf s) :
    NeverStale repoOf (s.put key value answeredAt) ↔
      ∀ repo, repoOf key = some repo → s.settled repo ≤ answeredAt := by
  constructor
  · intro hput repo hrepo
    exact hput key ⟨s.now, value, answeredAt⟩ (by simp) repo hrepo
  · intro hnew k entry hentry repo hrepo
    rw [getKey_put] at hentry
    split at hentry
    · next hk =>
        cases hentry
        exact hnew repo (hk ▸ hrepo)
    · exact h k entry hentry repo hrepo

theorem NeverStale.invalidate (h : NeverStale repoOf s) : NeverStale repoOf (s.invalidate key) := by
  intro k entry hentry repo hrepo
  rw [getKey_invalidate] at hentry
  split at hentry
  · cases hentry
  · exact h k entry hentry repo hrepo

theorem neverStale_settle_iff [DecidableEq R] {repo : R} {change : Nat} (h : NeverStale repoOf s) :
    NeverStale repoOf ((s.invalidate key).settle (some repo) (some change)) ↔
      olderElsewhere repoOf s repo key change = false := by
  rw [← Bool.not_eq_true, olderElsewhere_iff]
  constructor
  · rintro hsettled ⟨k, entry, hne, hrepo, hentry, hold⟩
    have hfresh := hsettled k entry (by simp [hne, hentry]) repo hrepo
    simp only [WorktreeListCache.settle, Function.update_self] at hfresh
    omega
  · intro hnone k entry hentry other hother
    have hfresh : NeverStale repoOf (s.invalidate key) := h.invalidate
    have hkept := hfresh k entry (by simpa using hentry) other hother
    simp only [getKey_settle, getKey_invalidate] at hentry
    split at hentry
    · cases hentry
    · next hne =>
        by_cases hsame : other = repo
        · subst hsame
          simp only [WorktreeListCache.settle, Function.update_self]
          apply max_le hkept
          by_contra hold
          exact hnone ⟨k, entry, hne, hother, hentry, by omega⟩
        · simpa [WorktreeListCache.settle, Function.update_of_ne hsame] using hkept

theorem NeverStale.mono {s' : WorktreeListCache R V} (h : NeverStale repoOf s)
    (hkept : ∀ k entry, s'.getKey k = some entry → s.getKey k = some entry)
    (hsettled : s'.settled = s.settled) : NeverStale repoOf s' := by
  intro k entry hentry repo hrepo
  rw [hsettled]
  exact h k entry (hkept k entry hentry) repo hrepo

theorem worktreeStep_neverStale_iff [DecidableEq R] {home : Option String} {a : WorktreeAction V}
    {l l' : WorktreePhase V} {s' : WorktreeListCache R V} (h : NeverStale repoOf s)
    (hstep : worktreeStep home repoOf a s l = some (s', l')) :
    NeverStale repoOf s' ↔ putsInTime repoOf s l a = true := by
  have hsame : NeverStale repoOf s ↔ true = true := iff_of_true h rfl
  cases a with
  | lookup cwd =>
    cases l with
    | idle =>
      rw [worktreeStep] at hstep
      split at hstep <;> cases hstep <;> exact hsame
    | missing | answered | served | changed => cases hstep
  | answer response =>
    cases l with
    | missing cwd => cases response <;> cases hstep <;> exact hsame
    | idle | answered | served | changed => cases response <;> cases hstep
  | put =>
    cases l with
    | answered cwd response answeredAt =>
      cases cwd with
      | none =>
        cases hstep
        exact hsame
      | some key =>
        cases hstep
        rw [neverStale_put_iff h, putsInTime]
        cases repoOf key <;> simp
    | idle | missing | served | changed => cases hstep
  | git op changes =>
    cases l with
    | idle =>
      rw [worktreeStep] at hstep
      split at hstep
      · cases hstep
      · cases hstep
        exact iff_of_true (h.mono (fun _ _ hentry => hentry) rfl) rfl
    | missing | answered | served | changed => cases hstep
  | invalidate =>
    cases l with
    | changed path change keys =>
      match keys with
      | [] => cases hstep
      | key :: other :: keys =>
        cases hstep
        exact iff_of_true h.invalidate (by cases change <;> rfl)
      | [key] =>
        cases hstep
        cases change with
        | none => cases repoOf path <;> exact iff_of_true h.invalidate rfl
        | some change =>
          rw [putsInTime]
          cases repoOf path with
          | none => exact iff_of_true h.invalidate rfl
          | some repo => rw [neverStale_settle_iff h, Bool.not_eq_true']
    | idle | missing | answered | served => cases hstep
  | tick time =>
    have htick : s' = { s with now := s.now + time } := by
      cases l <;> cases hstep <;> rfl
    subst htick
    exact iff_of_true (h.mono (fun _ _ => getKey_tick) rfl) rfl

end Fresh

section Runs

variable {R V : Type} [DecidableEq R] (home : Option String) (repoOf : String → Option R)

/-- The condition of the runs. -/
abbrev inTime (c : Pool (WorktreeListCache R V) (WorktreePhase V))
    (act : Nat × WorktreeAction V) : Prop :=
  putsInTime repoOf c.shared (c.threads act.1) act.2 = true

/-- In a run in which no answer is put after an invalidation that it is older than, and
no invalidation leaves an older answer under another key, no answer is old. -/
theorem worktreeCache_neverStale {c : Pool (WorktreeListCache R V) (WorktreePhase V)}
    (h : (worktreeThreads home repoOf).system.ReachVia (inTime repoOf) c) :
    NeverStale repoOf c.shared := by
  apply Program.shared_of_reachVia ?_ ?_ h
  · rintro _ rfl key entry hentry
    cases hentry
  · intro c i a s' l' _ hc hok hstep
    exact (worktreeStep_neverStale_iff hc hstep).mpr hok

end Runs

abbrev homeRepoOf (path : String) : Option Unit := if path = "/h/r" then some () else none

abbrev homeThreads : Program (WorktreeListCache Unit String) (WorktreePhase String)
    (WorktreeAction String) :=
  worktreeThreads (some "/h") homeRepoOf

theorem homeThreads_init : homeThreads.system.init (homeThreads.start (.start Unit String)) :=
  Program.system_init _ rfl

/-- A fetch up to the answer, the put of it and a switch. -/
def fetchAnswer (i : Nat) (cwd branch : String) : List (Nat × WorktreeAction String) :=
  [(i, .lookup (some cwd)), (i, .answer (some branch))]

def switchTo (i : Nat) (cwd : String) : List (Nat × WorktreeAction String) :=
  [(i, .git (.switch cwd) true), (i, .invalidate)]

theorem worktreeCache_neverStale_switch :
    ∃ c, homeThreads.system.ReachVia (inTime homeRepoOf) c ∧ NeverStale homeRepoOf c.shared ∧
      c.shared.getKey "/h/r" = some ⟨0, "dev", 1⟩ := by
  have hrun : (homeThreads.system.runVia (inTime homeRepoOf)
      (homeThreads.start (.start Unit String))
      (fetchAnswer 0 "~/r" "main" ++ [(0, .put)] ++ switchTo 1 "/h/r" ++
        fetchAnswer 2 "/h/r" "dev" ++ [(2, .put)])).isSome := by
    decide +kernel
  have hreach := System.reachVia_get homeThreads_init hrun
  refine ⟨_, hreach, worktreeCache_neverStale (some "/h") homeRepoOf hreach, ?_⟩
  clear hreach
  decide +kernel +revert

/-- An answer under way while a switch invalidates, and an answer under the path that
the switch names from the home directory. -/
theorem worktreeCache_goes_stale :
    (∃ c, homeThreads.system.Reachable c ∧ ¬ NeverStale homeRepoOf c.shared) ∧
      ∃ c, homeThreads.system.Reachable c ∧ ¬ NeverStale homeRepoOf c.shared := by
  have hold {s : WorktreeListCache Unit String}
      (hentry : s.getKey "/h/r" = some ⟨0, "main", 0⟩) (hsettled : s.settled () = 1) :
      ¬ NeverStale homeRepoOf s := by
    intro hfresh
    have hle := hfresh "/h/r" _ hentry () rfl
    rw [hsettled] at hle
    cases hle
  have hrun : (homeThreads.system.run (homeThreads.start (.start Unit String))
      (fetchAnswer 0 "/h/r" "main" ++ switchTo 1 "/h/r" ++ [(0, .put)])).isSome := by
    decide +kernel
  have hrun' : (homeThreads.system.run (homeThreads.start (.start Unit String))
      (fetchAnswer 0 "~/r" "main" ++ [(0, .put)] ++ switchTo 1 "~/r")).isSome := by
    decide +kernel
  refine ⟨⟨_, System.reachable_get homeThreads_init hrun, hold ?_ ?_⟩,
    ⟨_, System.reachable_get homeThreads_init hrun', hold ?_ ?_⟩⟩
  all_goals
    clear hold
    decide +kernel +revert

end HerdrWebui.Git
