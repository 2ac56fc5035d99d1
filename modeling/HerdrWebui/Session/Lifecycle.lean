import HerdrWebui.Concurrency.Threads
import HerdrWebui.Session.Backends

/-!
The requests that start and stop a built-in session, one step for each lock hold
or I/O action: the auto-start, the launch, the close and the cleanup. In a run in
which a backend is only started while no close or cleanup is at work, closed means
closed and the socket files of a running backend stay.
-/

namespace HerdrWebui.Session

open Concurrency

/-- Where a request stands. A close and a cleanup remember how many backends had
been started when they stopped the session or found it offline. -/
inductive LifecyclePhase where
  | idle
  | ensuring
  | unmarked
  | waiting
  | locked
  | evicted
  | offline
  | starting (b : Nat)
  | stopping (stopped : Bool) (started : Nat)
  | unregistered (started : Nat)
  | marked (started : Nat)
  | scanned
  | removing (started : Nat)
  | removed
  deriving DecidableEq

inductive LifecycleAction where
  | autoStart
  | launch
  | checkMarker
  | checkRegistry
  | takeStartLock
  | evictDead
  | probe
  | start (fails : Bool)
  | insert
  | serverStop (delivered : Bool)
  | removeHandle
  | mark
  | deleteFiles
  | scan
  | probeOffline
  | removeDir (filesGone dirGone : Bool)
  | forget
  | exitApiListener (b : Nat)
  | exitClientListener (b : Nat)
  | dropInner (b : Nat)
  deriving DecidableEq

/-- The steps of `ensure_builtin_session`, then those of `launch_session`,
`close_session` and `cleanup_sessions`, and last what backends do by themselves. -/
def lifecycleStep (a : LifecycleAction) (s : SessionState) (l : LifecyclePhase) :
    Option (SessionState × LifecyclePhase) :=
  match a, l with
  | .autoStart, .idle => some (s, .ensuring)
  | .checkMarker, .ensuring => some (s, if s.closed then .idle else .unmarked)
  | .checkRegistry, .unmarked => some (s, if s.isRunning then .idle else .waiting)
  | .takeStartLock, .waiting =>
    if s.startLock then none else some ({ s with startLock := true }, .locked)
  | .evictDead, .locked => some (s.evictDead, .evicted)
  | .probe, .evicted =>
    if s.connects then some ({ s with startLock := false }, .idle)
    else some (s, .offline)
  | .start fails, .offline =>
    match if fails then none else s.startBackend with
    | some s' => some (s', .starting s.started)
    | none => some ({ s with startLock := false }, .idle)
  | .insert, .starting b =>
    some ({ s.dropHandle with registered := some b, startLock := false }, .idle)
  | .launch, .idle => some ({ s with closed := false, restsClosed := false }, .ensuring)
  | .serverStop delivered, .idle =>
    some (if delivered then s.serverStop else s, .stopping delivered s.started)
  | .removeHandle, .stopping stopped started =>
    some (s.dropHandle, if stopped then .unregistered started else .idle)
  | .mark, .unregistered started => some ({ s with closed := true }, .marked started)
  | .deleteFiles, .marked _ =>
    some ({ s with sockets := none, restsClosed := true }, .idle)
  | .scan, .idle => some (s, if s.registered.isSome then .idle else .scanned)
  | .probeOffline, .scanned =>
    some (s, if s.connects then .idle else .removing s.started)
  | .removeDir filesGone dirGone, .removing _ =>
    some ({ s with sockets := if filesGone || dirGone then none else s.sockets },
      if dirGone then .removed else .idle)
  | .forget, .removed => some ({ s with closed := false, restsClosed := false }, .idle)
  | .exitApiListener b, .idle => (s.exitApiListener b).map (·, .idle)
  | .exitClientListener b, .idle => (s.exitClientListener b).map (·, .idle)
  | .dropInner b, .idle => (s.dropInner b).map (·, .idle)
  | _, _ => none

def lifecycle : Program SessionState LifecyclePhase LifecycleAction where
  init s := ∃ leftover, s = .boot leftover
  idle := .idle
  step := lifecycleStep

theorem lifecycle_init (leftover : Bool) : lifecycle.init (.boot leftover) :=
  ⟨leftover, rfl⟩

/-- A backend is started only while the marker is clear and when the earlier
backends are gone, and none is started between a close's stop and its last step
or between a cleanup's probe and its removal. Nobody clears the marker in the
last step of a close. -/
def startsAlone (s : SessionState) (l : LifecyclePhase) (a : LifecycleAction) : Bool :=
  match a, l with
  | .start false, .offline =>
    !s.closed && (List.range s.started).all fun b => (s.backends b).dropped
  | .mark, .unregistered started => started == s.started
  | .deleteFiles, .marked started => started == s.started && s.closed
  | .removeDir _ _, .removing started => started == s.started
  | _, _ => true

structure SessionInvariant (s : SessionState) : Prop where
  sockets : ∀ b, (s.backends b).running = true → s.sockets = some b
  listening : ∀ b, (s.backends b).running = true → (s.backends b).apiListening = true
  others : ∀ b other, (s.backends b).running = true → other ≠ b →
    (s.backends other).dropped = true
  fresh : ∀ b, s.started ≤ b →
    (s.backends b).running = false ∧ (s.backends b).dropped = true
  closed : s.closed = true → s.Down
  rests : s.restsClosed = true → s.closed = true

/-- What a close knows since it stopped the session, and a cleanup since it found
it offline. -/
def PhaseHolds (s : SessionState) : LifecyclePhase → Prop
  | .stopping true started | .unregistered started | .marked started
  | .removing started => started ≤ s.started ∧ (started = s.started → s.Down)
  | _ => True

namespace SessionInvariant

open SessionState

variable {s s' : SessionState} {l l' : LifecyclePhase}

theorem boot (leftover : Bool) : SessionInvariant (.boot leftover) where
  sockets b h := by cases h
  listening b h := by cases h
  others b other h := by cases h
  fresh b _ := ⟨rfl, rfl⟩
  closed h := by cases h
  rests h := by cases h

/-- A step that starts nothing. The socket files go only when nobody runs, and
the marker is set only then. -/
theorem of_stops (h : SessionInvariant s) (hs : Stops s s')
    (hsockets : s'.sockets = s.sockets ∨ s'.Down)
    (hclosed : s'.closed = true → s.closed = true ∨ s'.Down)
    (hrests : s'.restsClosed = true → s'.closed = true) : SessionInvariant s' where
  sockets b hb := by
    rcases hsockets with hsame | hdown
    · rw [hsame]
      exact h.sockets b (hs.running b hb).1
    · rw [hdown b] at hb
      cases hb
  listening b hb := by
    obtain ⟨hbefore, hlisten⟩ := hs.running b hb
    rw [hlisten]
    exact h.listening b hbefore
  others b other hb hne := hs.dropped _ (h.others b other (hs.running b hb).1 hne)
  fresh b hle := by
    rw [hs.started] at hle
    obtain ⟨hidle, hdropped⟩ := h.fresh b hle
    refine ⟨?_, hs.dropped b hdropped⟩
    rw [Bool.eq_false_iff]
    intro hb
    rw [(hs.running b hb).1] at hidle
    cases hidle
  closed hmarker := by
    rcases hclosed hmarker with hbefore | hdown
    · exact hs.down (h.closed hbefore)
    · exact hdown
  rests := hrests

theorem of_sameFiles (h : SessionInvariant s) (hs : Stops s s')
    (hsame : SameFiles s s') : SessionInvariant s' := by
  obtain ⟨hsockets, hclosed, hrests⟩ := hsame
  refine h.of_stops hs (.inl hsockets) (fun hmarker => .inl (hclosed ▸ hmarker)) ?_
  rw [hrests, hclosed]
  exact h.rests

theorem down_of_not_connects (h : SessionInvariant s) (hconnects : s.connects = false) :
    s.Down := by
  intro b
  rw [Bool.eq_false_iff]
  intro hb
  have hlistens : s.connects = true := by
    simp [connects, h.sockets b hb, h.listening b hb]
  rw [hconnects] at hlistens
  cases hlistens

theorem down_serverStop (h : SessionInvariant s) : s.serverStop.Down := by
  intro b
  rw [Bool.eq_false_iff]
  intro hb
  have hbefore := (serverStop_stops.running b hb).1
  rw [serverStop, h.sockets b hbefore] at hb
  simp [h.listening b hbefore, onBackend] at hb

theorem startBackend (h : SessionInvariant s) (hopen : s.closed = false)
    (hdropped : ∀ b, b < s.started → (s.backends b).dropped = true)
    (hstart : s.startBackend = some s') : SessionInvariant s' := by
  rw [SessionState.startBackend] at hstart
  split at hstart
  · cases hstart
  · next hconnects =>
      obtain rfl := Option.some.inj hstart
      have hdown : s.Down := h.down_of_not_connects (Bool.eq_false_iff.mpr hconnects)
      have hnew (b : Nat)
          (hb : (Function.update s.backends s.started Backend.new b).running = true) :
          b = s.started := by
        by_contra hne
        rw [Function.update_of_ne hne, hdown b] at hb
        cases hb
      constructor
      case sockets => exact fun b hb => congrArg some (hnew b hb).symm
      case listening =>
        intro b hb
        obtain rfl := hnew b hb
        simp [Backend.new]
      case others =>
        intro b other hb hne
        obtain rfl := hnew b hb
        change (Function.update s.backends s.started Backend.new other).dropped = true
        rw [Function.update_of_ne hne]
        rcases Nat.lt_or_ge other s.started with hlt | hge
        · exact hdropped other hlt
        · exact (h.fresh other hge).2
      case fresh =>
        intro b hle
        have hlt : s.started < b := hle
        simpa [Function.update_of_ne hlt.ne'] using h.fresh b hlt.le
      case closed =>
        intro hmarker
        rw [hopen] at hmarker
        cases hmarker
      case rests => exact h.rests

theorem dropInner (h : SessionInvariant s) {b : Nat}
    (hdrop : s.dropInner b = some s') : SessionInvariant s' ∧ Stops s s' := by
  rw [SessionState.dropInner] at hdrop
  split at hdrop
  · cases hdrop
  · next halone =>
      obtain rfl := Option.some.inj hdrop
      simp only [Bool.or_eq_true, not_or, Bool.not_eq_true] at halone
      obtain ⟨⟨⟨_, hapi⟩, _⟩, hleft⟩ := halone
      have hstops : Stops s
          (s.onBackend b fun backend => { backend with dropped := true }) :=
        onBackend_stops (fun hb => ⟨hb, rfl⟩) fun _ => rfl
      have hdown : s.Down := by
        intro other
        rw [Bool.eq_false_iff]
        intro hb
        rcases eq_or_ne b other with rfl | hne
        · rw [h.listening _ hb] at hapi
          cases hapi
        · rw [h.others other b hb hne] at hleft
          cases hleft
      have hstops' : Stops s
          { s.onBackend b fun backend => { backend with dropped := true } with
            sockets := none } := ⟨hstops.started, hstops.running, hstops.dropped⟩
      exact ⟨h.of_stops hstops' (.inr (hstops'.down hdown)) .inl h.rests, hstops'⟩

end SessionInvariant

section Step

open SessionState

variable {s s' : SessionState} {l l' : LifecyclePhase} {a : LifecycleAction}

theorem PhaseHolds.mono (h : PhaseHolds s l)
    (hs : Stops s s' ∨ s.started < s'.started) : PhaseHolds s' l := by
  have hkept {started : Nat}
      (hn : started ≤ s.started ∧ (started = s.started → s.Down)) :
      started ≤ s'.started ∧ (started = s'.started → s'.Down) := by
    rcases hs with hstops | hlt
    · rw [hstops.started]
      exact ⟨hn.1, fun heq => hstops.down (hn.2 heq)⟩
    · exact ⟨by omega, fun heq => by omega⟩
  cases l with
  | stopping stopped started =>
    cases stopped with
    | true => exact hkept h
    | false => trivial
  | unregistered started => exact hkept h
  | marked started => exact hkept h
  | removing started => exact hkept h
  | idle | ensuring | unmarked | waiting | locked | evicted | offline | starting
  | scanned | removed => trivial

/-- What one step of a request keeps. -/
structure StepHolds (s s' : SessionState) (l' : LifecyclePhase) : Prop where
  invariant : SessionInvariant s'
  phase : PhaseHolds s' l'
  grows : Stops s s' ∨ s.started < s'.started

theorem StepHolds.of_sameFiles (h : SessionInvariant s) (hs : Stops s s')
    (hsame : SameFiles s s') (hphase : PhaseHolds s' l') : StepHolds s s' l' :=
  ⟨h.of_sameFiles hs hsame, hphase, .inl hs⟩

theorem StepHolds.look (h : SessionInvariant s) (hphase : PhaseHolds s l')
    (startLock : Bool) : StepHolds s { s with startLock } l' := by
  refine .of_sameFiles h (.of_backends rfl rfl) ⟨rfl, rfl, rfl⟩ ?_
  exact hphase.mono (.inl (.of_backends rfl rfl))

theorem StepHolds.start (h : SessionInvariant s)
    (hok : startsAlone s .offline (.start false) = true)
    (hstart : s.startBackend = some s') : StepHolds s s' (.starting s.started) := by
  obtain ⟨hopen, hgone⟩ := Bool.and_eq_true_iff.mp hok
  refine ⟨h.startBackend (by simpa using hopen) ?_ hstart, trivial, .inr ?_⟩
  · exact fun b hlt => List.all_eq_true.mp hgone b (List.mem_range.mpr hlt)
  · exact started_lt_of_startBackend hstart

theorem StepHolds.insert (h : SessionInvariant s) (b : Nat) :
    StepHolds s { s.dropHandle with registered := some b, startLock := false } .idle := by
  have hstops : Stops s s.dropHandle := dropHandle_stops
  exact .of_sameFiles h ⟨hstops.started, hstops.running, hstops.dropped⟩
    dropHandle_sameFiles trivial

theorem StepHolds.clearMarker (h : SessionInvariant s)
    (hphase : ∀ s', PhaseHolds s' l') :
    StepHolds s { s with closed := false, restsClosed := false } l' := by
  have hstops : Stops s { s with closed := false, restsClosed := false } :=
    .of_backends rfl rfl
  refine ⟨h.of_stops hstops (.inl rfl) ?_ ?_, hphase _, .inl hstops⟩
  · exact fun hmarker => by cases hmarker
  · exact fun hrests => by cases hrests

theorem StepHolds.serverStop (h : SessionInvariant s) (delivered : Bool) :
    StepHolds s (if delivered then s.serverStop else s)
      (.stopping delivered s.started) := by
  cases delivered with
  | true =>
    refine .of_sameFiles h serverStop_stops serverStop_sameFiles ?_
    exact ⟨serverStop_stops.started.ge, fun _ => h.down_serverStop⟩
  | false => exact .look h (by trivial) s.startLock

theorem StepHolds.removeHandle (h : SessionInvariant s) {stopped : Bool}
    {started : Nat} (hphase : PhaseHolds s (.stopping stopped started)) :
    StepHolds s s.dropHandle (if stopped then .unregistered started else .idle) := by
  refine .of_sameFiles h dropHandle_stops dropHandle_sameFiles ?_
  cases stopped with
  | true =>
    have hsame : PhaseHolds s (.unregistered started) := hphase
    exact hsame.mono (.inl dropHandle_stops)
  | false => trivial

theorem StepHolds.mark (h : SessionInvariant s) {started : Nat}
    (hphase : PhaseHolds s (.unregistered started)) (hnone : started = s.started) :
    StepHolds s { s with closed := true } (.marked started) := by
  have hdown : s.Down := hphase.2 hnone
  have hstops : Stops s { s with closed := true } := .of_backends rfl rfl
  have hsame : PhaseHolds s (.marked started) := hphase
  refine ⟨h.of_stops hstops (.inl rfl) ?_ fun _ => rfl, hsame.mono (.inl hstops),
    .inl hstops⟩
  exact fun _ => .inr (hstops.down hdown)

theorem StepHolds.unlink (h : SessionInvariant s) (hdown : s.Down)
    (sockets : Option Nat) {restsClosed : Bool}
    (hrests : restsClosed = true → s.closed = true) (hphase : ∀ s', PhaseHolds s' l') :
    StepHolds s { s with sockets, restsClosed } l' := by
  have hstops : Stops s { s with sockets, restsClosed } := .of_backends rfl rfl
  exact ⟨h.of_stops hstops (.inr (hstops.down hdown)) .inl hrests, hphase _,
    .inl hstops⟩

theorem StepHolds.probeOffline (h : SessionInvariant s) :
    StepHolds s s (if s.connects then .idle else .removing s.started) := by
  refine .look h ?_ s.startLock
  split
  · trivial
  · next hconnects =>
      exact ⟨le_rfl, fun _ => h.down_of_not_connects (Bool.eq_false_iff.mpr hconnects)⟩

theorem lifecycleStep_holds (h : SessionInvariant s) (hphase : PhaseHolds s l)
    (hok : startsAlone s l a = true)
    (hstep : lifecycleStep a s l = some (s', l')) : StepHolds s s' l' := by
  unfold lifecycleStep at hstep
  split at hstep
  -- ensure
  case h_1 =>
    obtain ⟨rfl, rfl⟩ := Prod.mk.inj (Option.some.inj hstep)
    exact .look h (by trivial) s.startLock
  case h_2 =>
    obtain ⟨rfl, rfl⟩ := Prod.mk.inj (Option.some.inj hstep)
    exact .look h (by split <;> trivial) s.startLock
  case h_3 =>
    obtain ⟨rfl, rfl⟩ := Prod.mk.inj (Option.some.inj hstep)
    exact .look h (by split <;> trivial) s.startLock
  case h_4 =>
    split at hstep
    · cases hstep
    · obtain ⟨rfl, rfl⟩ := Prod.mk.inj (Option.some.inj hstep)
      exact .look h (by trivial) true
  case h_5 =>
    obtain ⟨rfl, rfl⟩ := Prod.mk.inj (Option.some.inj hstep)
    exact .of_sameFiles h evictDead_stops evictDead_sameFiles trivial
  case h_6 =>
    split at hstep <;> obtain ⟨rfl, rfl⟩ := Prod.mk.inj (Option.some.inj hstep)
    · exact .look h (by trivial) false
    · exact .look h (by trivial) s.startLock
  case h_7 fails =>
    split at hstep
    · next started hstart =>
        obtain ⟨rfl, rfl⟩ := Prod.mk.inj (Option.some.inj hstep)
        cases fails with
        | true => cases hstart
        | false => exact .start h hok hstart
    · obtain ⟨rfl, rfl⟩ := Prod.mk.inj (Option.some.inj hstep)
      exact .look h (by trivial) false
  case h_8 b =>
    obtain ⟨rfl, rfl⟩ := Prod.mk.inj (Option.some.inj hstep)
    exact .insert h b
  -- launch
  case h_9 =>
    obtain ⟨rfl, rfl⟩ := Prod.mk.inj (Option.some.inj hstep)
    exact .clearMarker h fun _ => trivial
  -- close
  case h_10 delivered =>
    obtain ⟨rfl, rfl⟩ := Prod.mk.inj (Option.some.inj hstep)
    exact .serverStop h delivered
  case h_11 stopped started =>
    obtain ⟨rfl, rfl⟩ := Prod.mk.inj (Option.some.inj hstep)
    exact .removeHandle h hphase
  case h_12 started =>
    obtain ⟨rfl, rfl⟩ := Prod.mk.inj (Option.some.inj hstep)
    exact .mark h hphase (beq_iff_eq.mp hok)
  case h_13 started =>
    obtain ⟨rfl, rfl⟩ := Prod.mk.inj (Option.some.inj hstep)
    obtain ⟨heq, hclosed⟩ := Bool.and_eq_true_iff.mp hok
    exact .unlink h (hphase.2 (beq_iff_eq.mp heq)) none (fun _ => hclosed)
      fun _ => trivial
  -- cleanup
  case h_14 =>
    obtain ⟨rfl, rfl⟩ := Prod.mk.inj (Option.some.inj hstep)
    exact .look h (by split <;> trivial) s.startLock
  case h_15 =>
    obtain ⟨rfl, rfl⟩ := Prod.mk.inj (Option.some.inj hstep)
    exact .probeOffline h
  case h_16 filesGone dirGone started =>
    obtain ⟨rfl, rfl⟩ := Prod.mk.inj (Option.some.inj hstep)
    exact .unlink h (hphase.2 (beq_iff_eq.mp hok)) _ h.rests
      fun _ => by cases dirGone <;> trivial
  case h_17 =>
    obtain ⟨rfl, rfl⟩ := Prod.mk.inj (Option.some.inj hstep)
    exact .clearMarker h fun _ => trivial
  -- the backends themselves
  case h_18 b =>
    obtain ⟨next, hexit, hnext⟩ := Option.map_eq_some_iff.mp hstep
    obtain ⟨rfl, rfl⟩ := Prod.mk.inj hnext
    exact .of_sameFiles h (exitApiListener_stops hexit)
      (exitApiListener_sameFiles hexit) trivial
  case h_19 b =>
    obtain ⟨next, hexit, hnext⟩ := Option.map_eq_some_iff.mp hstep
    obtain ⟨rfl, rfl⟩ := Prod.mk.inj hnext
    exact .of_sameFiles h (exitClientListener_stops hexit)
      (exitClientListener_sameFiles hexit) trivial
  case h_20 b =>
    obtain ⟨next, hdrop, hnext⟩ := Option.map_eq_some_iff.mp hstep
    obtain ⟨rfl, rfl⟩ := Prod.mk.inj hnext
    obtain ⟨hinv, hstops⟩ := h.dropInner hdrop
    exact ⟨hinv, trivial, .inl hstops⟩
  case h_21 => cases hstep

end Step

/-- In a run that starts backends only while no close or cleanup is at work, no
backend runs after a close that no launch followed, and none is started until
there is a launch; and a backend that runs has its socket files. -/
theorem lifecycle_closedMeansClosed {c : Pool SessionState LifecyclePhase}
    (h : lifecycle.system.ReachVia
      (fun c act => startsAlone c.shared (c.threads act.1) act.2 = true) c) :
    (c.shared.restsClosed = true → ∀ b, (c.shared.backends b).running = false) ∧
      ∀ b, (c.shared.backends b).running = true → c.shared.sockets = some b := by
  have hholds : Program.Holds SessionInvariant PhaseHolds (fun _ _ => True) c := by
    refine Program.Holds.of_reachVia ?_ trivial (fun _ _ _ => trivial) ?_ h
    · rintro _ ⟨leftover, rfl⟩
      exact ⟨.boot leftover, trivial⟩
    · intro c i a s' l' hc hok hstep
      have hnext := lifecycleStep_holds hc.shared (hc.thread i) hok hstep
      exact ⟨hnext.invariant, hnext.phase,
        fun _ hother _ => ⟨hother.mono hnext.grows, trivial⟩⟩
  exact ⟨fun hrests => hholds.shared.closed (hholds.shared.rests hrests),
    hholds.shared.sockets⟩

/-- The steps of a request that finds the session offline and starts it. -/
def ensureSteps (i : Nat) : List (Nat × LifecycleAction) :=
  [(i, .checkMarker), (i, .checkRegistry), (i, .takeStartLock), (i, .evictDead),
    (i, .probe), (i, .start false), (i, .insert)]

/-- A close completes after an auto-start read the marker. -/
def closeAfterMarkerCheck : List (Nat × LifecycleAction) :=
  [(0, .autoStart), (0, .checkMarker), (1, .serverStop true), (1, .removeHandle),
    (1, .mark), (1, .deleteFiles)] ++ (ensureSteps 0).tail

/-- A launch completes between the two last steps of a close. -/
def launchBeforeDelete : List (Nat × LifecycleAction) :=
  (0, .launch) :: ensureSteps 0 ++
    [(1, .serverStop true), (1, .removeHandle), (1, .mark), (2, .exitApiListener 0),
      (3, .launch)] ++ ensureSteps 3 ++ [(1, .deleteFiles)]

/-- The launch follows the close, and the closed backend's last listener leaves
after it. -/
def launchBeforeDrop : List (Nat × LifecycleAction) :=
  (0, .launch) :: ensureSteps 0 ++
    [(1, .serverStop true), (1, .removeHandle), (1, .mark), (1, .deleteFiles),
      (2, .exitApiListener 0), (3, .launch)] ++ ensureSteps 3 ++
    [(2, .exitClientListener 0), (2, .dropInner 0)]

/-- An auto-start resurrects a closed session, and a close takes the socket files
of a later launch with it, by its own deletion or by that of its backend. -/
theorem overlaps_resurrect_and_unlink :
    (∃ c, lifecycle.system.Reachable c ∧ c.shared.restsClosed = true ∧
      (c.shared.backends 0).running = true) ∧
    (∃ c, lifecycle.system.Reachable c ∧ (∀ i, c.threads i = .idle) ∧
      (c.shared.backends 1).running = true ∧ c.shared.registered = some 1 ∧
      c.shared.sockets = none) ∧
    ∃ c, lifecycle.system.Reachable c ∧ (∀ i, c.threads i = .idle) ∧
      (c.shared.backends 1).running = true ∧ c.shared.registered = some 1 ∧
      c.shared.sockets = none := by
  refine ⟨?_, ?_, ?_⟩
  · have hrun : (lifecycle.system.run (lifecycle.start (.boot false))
        closeAfterMarkerCheck).isSome := by decide
    exact ⟨_, System.reachable_get (Program.system_init _ (lifecycle_init false)) hrun,
      by decide +revert, by decide +revert⟩
  · have hrun : (lifecycle.system.run (lifecycle.start (.boot false))
        launchBeforeDelete).isSome := by decide
    refine ⟨_, System.reachable_get (Program.system_init _ (lifecycle_init false)) hrun,
      Program.forall_threads_of_runVia (p := fun l => l = .idle)
        (Option.some_get hrun).symm rfl ?_, ?_⟩
    all_goals decide +revert
  · have hrun : (lifecycle.system.run (lifecycle.start (.boot false))
        launchBeforeDrop).isSome := by decide
    refine ⟨_, System.reachable_get (Program.system_init _ (lifecycle_init false)) hrun,
      Program.forall_threads_of_runVia (p := fun l => l = .idle)
        (Option.some_get hrun).symm rfl ?_, ?_⟩
    all_goals decide +revert

/-- The closed backend is gone before the next launch starts another one. -/
def closeThenLaunch : List (Nat × LifecycleAction) :=
  (0, .launch) :: ensureSteps 0 ++
    [(1, .serverStop true), (1, .removeHandle), (1, .mark), (1, .deleteFiles),
      (2, .exitApiListener 1), (2, .exitClientListener 1), (2, .dropInner 1),
      (0, .autoStart), (0, .checkMarker), (3, .launch)] ++ ensureSteps 3

theorem closeThenLaunch_holds :
    ∃ c, lifecycle.system.runVia
        (fun c act => startsAlone c.shared (c.threads act.1) act.2 = true)
        (lifecycle.start (.boot true)) closeThenLaunch = some c ∧
      (c.shared.backends 2).running = true ∧
      (c.shared.restsClosed = true → ∀ b, (c.shared.backends b).running = false) ∧
      ∀ b, (c.shared.backends b).running = true → c.shared.sockets = some b := by
  have hrun : (lifecycle.system.runVia
      (fun c act => startsAlone c.shared (c.threads act.1) act.2 = true)
      (lifecycle.start (.boot true)) closeThenLaunch).isSome := by decide
  refine ⟨_, (Option.some_get hrun).symm, by decide +revert, ?_⟩
  exact lifecycle_closedMeansClosed
    (System.reachVia_get (Program.system_init _ (lifecycle_init true)) hrun)

end HerdrWebui.Session
