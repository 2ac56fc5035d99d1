import HerdrWebui.Concurrency.System

/-!
The idle task of a language server. It sleeps once, from the start of the server, and then
shuts the server down: it sends the shutdown request, waits for the answer and kills the child.
Requests do not put its sleep off.

Times are in milliseconds.
-/

namespace HerdrWebui.Lsp

open Concurrency

def idleShutdownSecs : Nat := 600

def idleShutdownMs : Nat := idleShutdownSecs * 1000

/-- Where the idle task stands. The sleep has its deadline from the start. -/
inductive IdleTask where
  | sleeping (deadline : Nat)
  | shuttingDown
  | done
  deriving DecidableEq

/-- `requests` has the times of the requests that were sent to the server, other than the one of
the idle task. -/
structure IdleServer where
  now : Nat
  running : Bool
  task : IdleTask
  requests : List Nat
  deriving DecidableEq

namespace IdleServer

/-- `spawn_server` at a time. -/
def spawn (now : Nat) : IdleServer :=
  { now, running := true, task := .sleeping (now + idleShutdownMs), requests := [] }

/-- The server has been without a request for this long. -/
def QuietFor (s : IdleServer) (ms : Nat) : Prop := ∀ sent ∈ s.requests, sent + ms ≤ s.now

instance (s : IdleServer) (ms : Nat) : Decidable (s.QuietFor ms) :=
  inferInstanceAs (Decidable (∀ sent ∈ s.requests, sent + ms ≤ s.now))

end IdleServer

inductive IdleAction where
  | elapse (ms : Nat)
  | sendRequest
  | sendNotification
  | exit
  | sendShutdown
  | kill
  deriving DecidableEq

/-- `sendShutdown` and `kill` are the idle task's. The answer to its request, or the timeout,
takes any time; a sleep may end late. -/
def idleStep (s : IdleServer) : IdleAction → Option IdleServer
  | .elapse ms => some { s with now := s.now + ms }
  | .sendRequest => some { s with requests := s.now :: s.requests }
  | .sendNotification => some s
  | .exit => some { s with running := false }
  | .sendShutdown =>
    match s.task with
    | .sleeping deadline =>
      if deadline ≤ s.now then some { s with task := .shuttingDown } else none
    | _ => none
  | .kill =>
    if s.task = .shuttingDown then some { s with running := false, task := .done } else none

def idleServers : System IdleServer IdleAction where
  init s := ∃ now, s = .spawn now
  step := idleStep

/-- The idle task starts and ends a shutdown only when the server that it stops has been without a
request for as long as the task should wait. -/
def IdleServer.StopsIdle (s : IdleServer) : Prop :=
  s.running = true → ∀ a, a = .sendShutdown ∨ a = .kill → (idleStep s a).isSome →
    s.QuietFor idleShutdownMs

/-- A request is sent when the task has ended, or when its whole sleep is still ahead. -/
def sleepsOn (s : IdleServer) (a : IdleAction) : Bool :=
  match a, s.task with
  | .sendRequest, .sleeping deadline => s.now + idleShutdownMs ≤ deadline
  | .sendRequest, .shuttingDown => false
  | _, _ => true

/-- What the idle task may count on, by where it stands. -/
def IdleServer.Outlasted (s : IdleServer) : Prop :=
  match s.task with
  | .sleeping deadline => ∀ sent ∈ s.requests, sent + idleShutdownMs ≤ deadline
  | .shuttingDown => s.QuietFor idleShutdownMs
  | .done => True

namespace IdleServer

theorem outlasted_spawn (now : Nat) : (spawn now).Outlasted := by
  simp [spawn, Outlasted]

theorem QuietFor.elapse {s : IdleServer} {ms : Nat} (h : s.QuietFor ms) (more : Nat) :
    { s with now := s.now + more }.QuietFor ms := fun sent hsent =>
  (h sent hsent).trans (Nat.le_add_right s.now more)

theorem Outlasted.elapse {s : IdleServer} (h : s.Outlasted) (more : Nat) :
    { s with now := s.now + more }.Outlasted := by
  obtain ⟨now, running, task, requests⟩ := s
  cases task with
  | sleeping deadline => exact h
  | shuttingDown => exact QuietFor.elapse h more
  | done => trivial

theorem Outlasted.sendRequest {s : IdleServer} (h : s.Outlasted)
    (hok : sleepsOn s .sendRequest = true) :
    { s with requests := s.now :: s.requests }.Outlasted := by
  obtain ⟨now, running, task, requests⟩ := s
  cases task with
  | sleeping deadline =>
    have hahead : now + idleShutdownMs ≤ deadline := by simpa [sleepsOn] using hok
    exact List.forall_mem_cons.mpr ⟨hahead, h⟩
  | shuttingDown => simp [sleepsOn] at hok
  | done => trivial

/-- The sleep that is over has outlasted the requests, so they are as old as it was long. -/
theorem Outlasted.quietFor {s : IdleServer} (h : s.Outlasted) {a : IdleAction}
    (ha : a = .sendShutdown ∨ a = .kill) (henabled : (idleStep s a).isSome) :
    s.QuietFor idleShutdownMs := by
  obtain ⟨now, running, task, requests⟩ := s
  rcases ha with rfl | rfl
  · cases task with
    | sleeping deadline =>
      have hover : deadline ≤ now := by
        by_contra hearly
        simp [idleStep, hearly] at henabled
      exact fun sent hsent => (h sent hsent).trans hover
    | shuttingDown => simp [idleStep] at henabled
    | done => simp [idleStep] at henabled
  · cases task with
    | sleeping deadline => simp [idleStep] at henabled
    | shuttingDown => exact h
    | done => simp [idleStep] at henabled

theorem Outlasted.step {s s' : IdleServer} {a : IdleAction} (h : s.Outlasted)
    (hok : sleepsOn s a = true) (hstep : idleStep s a = some s') : s'.Outlasted := by
  cases a with
  | elapse ms =>
    obtain rfl : _ = s' := by simpa only [idleStep, Option.some.injEq] using hstep
    exact h.elapse ms
  | sendRequest =>
    obtain rfl : _ = s' := by simpa only [idleStep, Option.some.injEq] using hstep
    exact h.sendRequest hok
  | sendNotification =>
    obtain rfl : s = s' := by simpa only [idleStep, Option.some.injEq] using hstep
    exact h
  | exit =>
    obtain rfl : _ = s' := by simpa only [idleStep, Option.some.injEq] using hstep
    exact h
  | sendShutdown =>
    have hquiet := h.quietFor (.inl rfl) (Option.isSome_of_eq_some hstep)
    simp only [idleStep] at hstep
    split at hstep
    · obtain ⟨-, hs'⟩ := Option.ite_none_right_eq_some.mp hstep
      obtain rfl : _ = s' := Option.some.inj hs'
      exact hquiet
    · cases hstep
  | kill =>
    obtain ⟨-, hs'⟩ := Option.ite_none_right_eq_some.mp hstep
    obtain rfl : _ = s' := Option.some.inj hs'
    trivial

end IdleServer

/-- In a run whose requests leave the sleep its whole length, the idle task stops only a server
that was idle. -/
theorem idleServers_stopsIdle {s : IdleServer}
    (h : idleServers.ReachVia (fun s a => sleepsOn s a = true) s) : s.StopsIdle := by
  have houtlasted : s.Outlasted := by
    refine h.invariant ?_ fun _ _ _ _ hs hok hstep => hs.step hok hstep
    rintro _ ⟨now, rfl⟩
    exact IdleServer.outlasted_spawn now
  exact fun _ _ ha henabled => houtlasted.quietFor ha henabled

/-- A server with one request at its start, when the sleep is over. -/
theorem idleServers_stopsIdle_start :
    { now := 600000, running := true, task := .sleeping 600000,
      requests := [0] : IdleServer }.StopsIdle := by
  have hrun : idleServers.runVia (fun s a => sleepsOn s a = true) (.spawn 0)
      [.sendRequest, .elapse 600000] = some ⟨600000, true, .sleeping 600000, [0]⟩ := by decide
  exact idleServers_stopsIdle (.runVia (.init ⟨0, rfl⟩) hrun)

/-- A request a millisecond before the sleep is over does not keep the task from the shutdown. -/
theorem idleServers_stops_used : ∃ s, idleServers.Reachable s ∧ ¬ s.StopsIdle := by
  have hrun : idleServers.run (.spawn 0) [.elapse 599999, .sendRequest, .elapse 1] =
      some ⟨600000, true, .sleeping 600000, [599999]⟩ := by decide
  refine ⟨_, .runVia (.init ⟨0, rfl⟩) hrun, fun h => ?_⟩
  have hquiet := h rfl .sendShutdown (.inl rfl) (by decide)
  exact absurd hquiet (by decide)

end HerdrWebui.Lsp
