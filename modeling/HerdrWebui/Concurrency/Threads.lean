import HerdrWebui.Concurrency.System

/-!
Programs run by an unbounded pool of threads over one shared state. A thread is
its local state; one action lets one thread take one atomic step (a critical
section or an I/O operation), so a run of the pool's system is an interleaving
of the threads' steps in any order.

The proof rule is the Owicki–Gries one: an invariant of the shared state, an
assertion about each thread's local state that the steps of the other threads
do not disturb, and a symmetric relation between any two threads (two requests
hold different fresh names, say).

Nothing here is about a particular program.
-/

namespace HerdrWebui.Concurrency

/-- The shared state and every thread's local state. -/
structure Pool (S L : Type*) where
  shared : S
  threads : Nat → L

/-- A thread program: the shared initial states, the local state of a thread
that does nothing yet and the atomic step, `none` where it is not enabled. -/
structure Program (S L A : Type*) where
  init : S → Prop
  idle : L
  step : A → S → L → Option (S × L)

namespace Program

variable {S L A : Type*} (P : Program S L A)

/-- The pool before any thread took a step. -/
def start (s : S) : Pool S L := ⟨s, fun _ => P.idle⟩

/-- Thread `i` takes the step `a`: the other threads keep their local states. -/
def poolStep (c : Pool S L) (act : Nat × A) : Option (Pool S L) :=
  (P.step act.2 c.shared (c.threads act.1)).map fun next =>
    ⟨next.1, Function.update c.threads act.1 next.2⟩

/-- All interleavings of the pool's threads. -/
def system : System (Pool S L) (Nat × A) where
  init c := ∃ s, P.init s ∧ c = P.start s
  step := P.poolStep

theorem system_init {s : S} (h : P.init s) : P.system.init (P.start s) :=
  ⟨s, h, rfl⟩

/-- An invariant of the shared state, an assertion on each thread and a
relation between any two different threads, together. -/
structure Holds (I : S → Prop) (T : S → L → Prop) (R : L → L → Prop)
    (c : Pool S L) : Prop where
  shared : I c.shared
  thread : ∀ i, T c.shared (c.threads i)
  apart : ∀ i j, i ≠ j → R (c.threads i) (c.threads j)

variable {P}

theorem poolStep_cases {c c' : Pool S L} {act : Nat × A}
    (h : P.system.step c act = some c') :
    ∃ s' l', P.step act.2 c.shared (c.threads act.1) = some (s', l') ∧
      c' = ⟨s', Function.update c.threads act.1 l'⟩ := by
  obtain ⟨next, hstep, rfl⟩ := Option.map_eq_some_iff.mp h
  exact ⟨next.1, next.2, hstep, rfl⟩

/-- The rule of non-interference. The step of a thread must keep the shared
invariant, end in its own assertion and leave standing the assertion of every
other thread that was apart from it, still apart. -/
theorem Holds.of_reachVia {ok : Pool S L → Nat × A → Prop}
    {I : S → Prop} {T : S → L → Prop} {R : L → L → Prop}
    (hinit : ∀ s, P.init s → I s ∧ T s P.idle)
    (hidle : R P.idle P.idle) (hsymm : ∀ l m, R l m → R m l)
    (hstep : ∀ c i a s' l', Holds I T R c → ok c (i, a) →
      P.step a c.shared (c.threads i) = some (s', l') →
      I s' ∧ T s' l' ∧
        ∀ m, T c.shared m → R (c.threads i) m → T s' m ∧ R l' m)
    {c : Pool S L} (h : P.system.ReachVia ok c) : Holds I T R c := by
  refine h.invariant ?_ ?_
  · rintro _ ⟨s, hs, rfl⟩
    exact ⟨(hinit s hs).1, fun _ => (hinit s hs).2, fun _ _ _ => hidle⟩
  · rintro c ⟨i, a⟩ c' _ hc hok hs
    obtain ⟨s', l', hlocal, rfl⟩ := poolStep_cases hs
    obtain ⟨hI, hT, hothers⟩ := hstep c i a s' l' hc hok hlocal
    have hother (j : Nat) (hj : j ≠ i) :
        T s' (c.threads j) ∧ R l' (c.threads j) :=
      hothers _ (hc.thread j) (hc.apart i j hj.symm)
    refine ⟨hI, fun j => ?_, fun j k hjk => ?_⟩
    · rcases eq_or_ne j i with rfl | hj
      · simpa using hT
      · simpa [Function.update_of_ne hj] using (hother j hj).1
    · rcases eq_or_ne j i with rfl | hj
      · simpa [Function.update_of_ne hjk.symm] using (hother k hjk.symm).2
      · rcases eq_or_ne k i with rfl | hk
        · simpa [Function.update_of_ne hj] using hsymm _ _ (hother j hj).2
        · simpa [Function.update_of_ne hj, Function.update_of_ne hk] using
            hc.apart j k hjk

theorem shared_of_reachVia {ok : Pool S L → Nat × A → Prop} {I : S → Prop}
    (hinit : ∀ s, P.init s → I s)
    (hstep : ∀ c i a s' l', P.system.ReachVia ok c → I c.shared →
      ok c (i, a) → P.step a c.shared (c.threads i) = some (s', l') → I s')
    {c : Pool S L} (h : P.system.ReachVia ok c) : I c.shared := by
  refine h.invariant (I := fun c => I c.shared) ?_ ?_
  · rintro _ ⟨s, hs, rfl⟩
    exact hinit s hs
  · rintro c ⟨i, a⟩ c' hreach hI hok hs
    obtain ⟨s', l', hlocal, rfl⟩ := poolStep_cases hs
    exact hstep c i a s' l' hreach hI hok hlocal

/-- A step of thread `i` leaves some thread with the property, if only thread
`i` does not lose it. -/
theorem exists_thread_update {c : Pool S L} {i : Nat} {l' : L} {p : L → Prop}
    (h : ∃ j, p (c.threads j)) (hi : p (c.threads i) → p l') :
    ∃ j, p (Function.update c.threads i l' j) := by
  obtain ⟨j, hj⟩ := h
  refine ⟨j, ?_⟩
  rcases eq_or_ne j i with rfl | hne
  · rw [Function.update_self]
    exact hi hj
  · rwa [Function.update_of_ne hne]

section Run

variable {ok : Pool S L → Nat × A → Prop} [∀ c act, Decidable (ok c act)]
  {schedule : List (Nat × A)}

theorem thread_of_runVia {c c' : Pool S L}
    (hrun : P.system.runVia ok c schedule = some c') {i : Nat}
    (hout : ∀ act ∈ schedule, act.1 ≠ i) : c'.threads i = c.threads i := by
  induction schedule generalizing c with
  | nil =>
    obtain rfl : c = c' := by simpa [System.runVia] using hrun
    rfl
  | cons act schedule ih =>
    simp only [System.runVia] at hrun
    split at hrun
    · obtain ⟨next, hstep, hrest⟩ := Option.bind_eq_some_iff.mp hrun
      obtain ⟨s', l', _, rfl⟩ := poolStep_cases hstep
      rw [ih hrest fun other hother => hout other (List.mem_cons_of_mem _ hother)]
      exact Function.update_of_ne (hout act List.mem_cons_self).symm _ _
    · cases hrun

/-- What holds of the idle local state, and in the end of the threads that took
a step, holds of all threads. -/
theorem forall_threads_of_runVia {s : S} {c : Pool S L}
    (hrun : P.system.runVia ok (P.start s) schedule = some c) {p : L → Prop}
    (hidle : p P.idle) (hrest : ∀ act ∈ schedule, p (c.threads act.1)) (i : Nat) :
    p (c.threads i) := by
  by_cases hout : ∀ act ∈ schedule, act.1 ≠ i
  · rw [thread_of_runVia hrun hout]
    exact hidle
  · push Not at hout
    obtain ⟨act, hact, rfl⟩ := hout
    exact hrest act hact

end Run

end Program

end HerdrWebui.Concurrency
