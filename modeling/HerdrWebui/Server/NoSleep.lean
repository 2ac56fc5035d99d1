import HerdrWebui.Concurrency.System
import HerdrWebui.Data.Json

/-!
The auto mode of no-sleep. The mode holds a guard while an agent works, and ends when none has
worked for the cooldown. Whether one works comes from the list of all agents, and from events
that say it of one pane; both drive the same idle timer.

Times are in milliseconds.
-/

namespace HerdrWebui.Server

open Concurrency

inductive NoSleepMode where
  | off
  | auto
  | infinite
  | hours1
  | hours2
  | hours4
  deriving DecidableEq

/-- `no_sleep_ms`. -/
def NoSleepMode.ms : NoSleepMode → Nat
  | .off | .auto | .infinite => 0
  | .hours1 => 60 * 60 * 1000
  | .hours2 => 2 * 60 * 60 * 1000
  | .hours4 => 4 * 60 * 60 * 1000

structure NoSleepState where
  mode : NoSleepMode := .off
  untilMs : Option Nat := none
  error : Option String := none
  guard : Bool := false
  autoGeneration : Nat := 0
  autoIdleSinceMs : Option Nat := none
  deriving DecidableEq

def agentsWorkingFromValue (value : Json) : Bool :=
  (((value.get "result").bind (·.get "agents")).bind Json.asArray).any fun agents =>
    agents.any fun agent =>
      ((agent.get "agent_status").or (agent.get "status")).bind Json.asStr == some "working"

def webEventKind (value : Json) : Option String :=
  if value.getStr "type" = some "event" then
    (value.get "event").bind fun event =>
      ((event.get "event").or (event.get "type")).bind Json.asStr
  else none

/-- What the events socket makes of an event: whether the pane it is about works. -/
def eventWorking (value : Json) : Option Bool :=
  if webEventKind value = some "pane.agent_status_changed" then
    (((value.get "event").bind (·.get "data")).bind (·.getStr "agent_status")).map (· == "working")
  else none

def saturatingMul (a b : Nat) : Nat := min (a * b) (2 ^ 64 - 1)

/-- `started` is what `start_no_sleep_guard` gives, if it is called. -/
def syncAutoNoSleep (s : NoSleepState) (hasWorkingAgents : Bool) (cooldownSeconds now : Nat)
    (started : Except String Unit) : NoSleepState :=
  if s.mode ≠ .auto then s
  else if hasWorkingAgents && !s.guard then
    match started with
    | .ok _ => { s with autoIdleSinceMs := none, guard := true, error := none }
    | .error err => { s with autoIdleSinceMs := none, error := some err }
  else if hasWorkingAgents then { s with autoIdleSinceMs := none, error := none }
  else
    let idleSince := s.autoIdleSinceMs.getD now
    if saturatingMul cooldownSeconds 1000 ≤ now - idleSince then
      { s with
        guard := false
        mode := .off
        untilMs := none
        autoIdleSinceMs := none
        error := none }
    else { s with autoIdleSinceMs := some idleSince }

/-- The state, and whether a timed or endless mode is on. -/
def applyNoSleepMode (s : NoSleepState) (mode : NoSleepMode) (untilMs : Option Nat)
    (started : Except String Unit) : NoSleepState × Bool :=
  let off : NoSleepState := { autoGeneration := (s.autoGeneration + 1) % 2 ^ 64 }
  if mode = .off ∨ mode = .auto then ({ off with mode }, false)
  else
    match started with
    | .ok _ => ({ off with mode, untilMs, guard := true }, true)
    | .error err => ({ off with error := some err }, false)

inductive LoopPhase where
  | waiting
  | listing
  | ended
  deriving DecidableEq

/-- `run_auto_no_sleep_loop`, which is started with each change to the auto mode. -/
structure AutoLoop where
  generation : Nat
  phase : LoopPhase
  deriving DecidableEq

/-- What there was when the auto mode was left. -/
structure Release where
  now : Nat
  cooldown : Nat
  working : List String
  lastWorked : Option Nat
  deriving DecidableEq

/-- `working` has the panes that work, and `lastWorked` the latest time at which one did. `begun`
tells that a pane has begun to work since the idle timer was last started or cleared. -/
structure NoSleepRun where
  now : Nat
  cooldown : Nat
  noSleep : NoSleepState
  loops : List AutoLoop
  timers : List Nat
  working : List String
  lastWorked : Option Nat
  begun : Bool
  releases : List Release
  deriving DecidableEq

namespace NoSleepRun

variable (s : NoSleepRun)

/-- The move to a state. It is a release when it ends the auto mode. -/
def moveTo (noSleep : NoSleepState) : NoSleepRun :=
  { s with
    noSleep
    releases :=
      if s.noSleep.mode = .auto ∧ noSleep.mode = .off then
        ⟨s.now, s.cooldown, s.working, s.lastWorked⟩ :: s.releases
      else s.releases }

/-- `sync_auto_no_sleep` under the lock. -/
def sync (hasWorkingAgents : Bool) (started : Except String Unit) : NoSleepRun :=
  { s with
    begun := s.begun && s.noSleep.autoIdleSinceMs.isSome && !hasWorkingAgents }.moveTo
    (syncAutoNoSleep s.noSleep hasWorkingAgents s.cooldown s.now started)

/-- A pane that begins to work works from this moment on. -/
def statusChanged (pane : String) (works : Bool) : NoSleepRun :=
  if works then
    { s with
      working := s.working.insert pane
      lastWorked := some s.now
      begun := true }
  else { s with working := s.working.filter (· != pane) }

def elapsed (ms : Nat) : NoSleepRun :=
  { s with
    now := s.now + ms
    lastWorked := if s.working = [] then s.lastWorked else some (s.now + ms) }

/-- `update_no_sleep`. The agents are asked for only when the mode is to be auto. -/
def updateNoSleep (mode : NoSleepMode) (agents : Option Json) (started : Except String Unit) :
    NoSleepRun :=
  let untilMs := if mode.ms = 0 then none else some (s.now + mode.ms)
  let (noSleep, active) := applyNoSleepMode s.noSleep mode untilMs started
  let changed :=
    { s with
      noSleep
      begun := false
      timers := s.timers ++ (untilMs.filter fun _ => active).toList }
  if mode = .auto then
    let synced :=
      match agents with
      | some agents => changed.sync (agentsWorkingFromValue agents) started
      | none => changed
    { synced with loops := s.loops ++ [⟨noSleep.autoGeneration, .waiting⟩] }
  else changed

def setLoop (i : Nat) (phase : LoopPhase) : NoSleepRun :=
  { s with loops := s.loops.modify i fun loop => { loop with phase } }

def timeUp (untilMs : Nat) : NoSleepState :=
  if s.noSleep.untilMs = some untilMs then
    { s.noSleep with guard := false, mode := .off, untilMs := none }
  else s.noSleep

end NoSleepRun

inductive NoSleepAction where
  | elapse (ms : Nat)
  | status (pane : String) (works : Bool)
  | saveCooldown (seconds : Nat)
  | event (value : Json) (started : Except String Unit)
  | update (mode : NoSleepMode) (agents : Option Json) (started : Except String Unit)
  | tick (i : Nat)
  | answer (i : Nat) (agents : Json) (started : Except String Unit)
  | fail (i : Nat) (err : String)
  | timer (i : Nat)

/-- The agents that a loop lists may be those of an earlier moment, and an event may be late. -/
def noSleepStep (s : NoSleepRun) : NoSleepAction → Option NoSleepRun
  | .elapse ms => some (s.elapsed ms)
  | .status pane works => some (s.statusChanged pane works)
  | .saveCooldown seconds =>
    if seconds ≤ 3600 then some { s with cooldown := seconds } else none
  | .event value started => some <|
      match eventWorking value with
      | some hasWorking => s.sync hasWorking started
      | none => s
  | .update mode agents started => some (s.updateNoSleep mode agents started)
  | .tick i =>
    match s.loops[i]? with
    | some ⟨generation, .waiting⟩ =>
      some <| s.setLoop i <|
        if s.noSleep.mode = .auto ∧ s.noSleep.autoGeneration = generation then .listing
        else .ended
    | _ => none
  | .answer i agents started =>
    match s.loops[i]? with
    | some ⟨_, .listing⟩ =>
      some ((s.sync (agentsWorkingFromValue agents) started).setLoop i .waiting)
    | _ => none
  | .fail i err =>
    match s.loops[i]? with
    | some ⟨generation, .listing⟩ =>
      let noSleep :=
        if s.noSleep.mode = .auto ∧ s.noSleep.autoGeneration = generation then
          { s.noSleep with guard := false, error := some err }
        else s.noSleep
      some ({ s with noSleep }.setLoop i .waiting)
    | _ => none
  | .timer i =>
    match s.timers[i]? with
    | some untilMs =>
      if untilMs ≤ s.now then
        some ({ s with timers := s.timers.eraseIdx i }.moveTo (s.timeUp untilMs))
      else none
    | none => none

def noSleepRuns : System NoSleepRun NoSleepAction where
  init s := ∃ now cooldown working, cooldown ≤ 3600 ∧
    s = ⟨now, cooldown, {}, [], [], working, if working = [] then none else some now, false, []⟩
  step := noSleepStep

/-- No pane works, and none has worked during the cooldown. -/
def Release.Idle (r : Release) : Prop :=
  r.working = [] ∧ ∀ worked, r.lastWorked = some worked → worked + r.cooldown * 1000 ≤ r.now

/-- The auto mode has ended only where nothing worked. -/
def NoSleepRun.HoldsWhileWorking (s : NoSleepRun) : Prop := ∀ r ∈ s.releases, r.Idle

def NoSleepAction.report : NoSleepAction → Option Bool
  | .event value _ => eventWorking value
  | .answer _ agents _ => some (agentsWorkingFromValue agents)
  | .update .auto (some agents) _ => some (agentsWorkingFromValue agents)
  | _ => none

/-- A report that nothing works comes to the auto mode when no pane works, and when none has begun
to work since the idle timer was started. A change of the mode clears the timer. -/
def reportsAll (s : NoSleepRun) (a : NoSleepAction) : Bool :=
  match a.report, a with
  | some false, .update .. => s.working == []
  | some false, _ =>
    s.noSleep.mode != .auto ||
      (s.working == [] && !(s.noSleep.autoIdleSinceMs.isSome && s.begun))
  | _, _ => true

theorem syncAutoNoSleep_cases (s : NoSleepState) (hasWorking : Bool) (cooldown now : Nat)
    (started : Except String Unit) :
    let next := syncAutoNoSleep s hasWorking cooldown now started
    (s.mode ≠ .auto ∧ next = s) ∨
    (s.mode = .auto ∧ hasWorking = true ∧ next.mode = .auto ∧ next.untilMs = s.untilMs ∧
      next.autoIdleSinceMs = none) ∨
    (s.mode = .auto ∧ hasWorking = false ∧
      saturatingMul cooldown 1000 ≤ now - s.autoIdleSinceMs.getD now ∧ next.mode = .off ∧
      next.autoIdleSinceMs = none) ∨
    (s.mode = .auto ∧ hasWorking = false ∧ next.mode = .auto ∧ next.untilMs = s.untilMs ∧
      next.autoIdleSinceMs = some (s.autoIdleSinceMs.getD now)) := by
  intro next
  by_cases hmode : s.mode = .auto
  · cases hasWorking with
    | true =>
      refine .inr (.inl ⟨hmode, rfl, ?_⟩)
      cases hguard : s.guard with
      | true => simp [next, syncAutoNoSleep, hmode, hguard]
      | false => cases started <;> simp [next, syncAutoNoSleep, hmode, hguard]
    | false =>
      by_cases hover : saturatingMul cooldown 1000 ≤ now - s.autoIdleSinceMs.getD now
      · refine .inr (.inr (.inl ⟨hmode, rfl, hover, ?_⟩))
        simp [next, syncAutoNoSleep, hmode, hover]
      · refine .inr (.inr (.inr ⟨hmode, rfl, ?_⟩))
        simp [next, syncAutoNoSleep, hmode, hover]
  · exact .inl ⟨hmode, by simp [next, syncAutoNoSleep, hmode]⟩

theorem applyNoSleepMode_auto (s : NoSleepState) (mode : NoSleepMode) (untilMs : Option Nat)
    (started : Except String Unit) :
    ((applyNoSleepMode s mode untilMs started).1.mode = .auto →
      (applyNoSleepMode s mode untilMs started).1.untilMs = none) ∧
    (applyNoSleepMode s mode untilMs started).1.autoIdleSinceMs = none := by
  unfold applyNoSleepMode
  simp only
  split
  · exact ⟨fun _ => rfl, rfl⟩
  · next hother =>
      split
      · exact ⟨fun hauto => absurd (.inr hauto) hother, rfl⟩
      · exact ⟨fun _ => rfl, rfl⟩

theorem saturatingMul_eq {a b : Nat} (h : a * b < 2 ^ 64) : saturatingMul a b = a * b :=
  min_eq_left (by omega)

/-- No pane has worked since a time, or one has begun to after the timer was started. -/
def NoSleepRun.IdleSince (s : NoSleepRun) (since : Nat) : Prop :=
  s.begun = true ∨ s.working = [] ∧ ∀ worked, s.lastWorked = some worked → worked ≤ since

structure NoSleepInvariant (s : NoSleepRun) : Prop where
  cooldown : s.cooldown ≤ 3600
  untilMs : s.noSleep.mode = .auto → s.noSleep.untilMs = none
  worked : ∀ worked, s.lastWorked = some worked → worked ≤ s.now
  timed : ∀ since, s.noSleep.autoIdleSinceMs = some since →
    s.noSleep.mode = .auto ∧ since ≤ s.now ∧ s.IdleSince since
  releases : s.HoldsWhileWorking

namespace NoSleepInvariant

variable {s s' : NoSleepRun}

theorem elapsed (h : NoSleepInvariant s) (ms : Nat) : NoSleepInvariant (s.elapsed ms) := by
  refine ⟨h.cooldown, h.untilMs, ?_, fun since hsince => ?_, h.releases⟩
  · intro worked hworked
    simp only [NoSleepRun.elapsed] at hworked ⊢
    split at hworked
    · exact (h.worked worked hworked).trans (Nat.le_add_right s.now ms)
    · obtain rfl := Option.some.inj hworked
      exact le_rfl
  · obtain ⟨hmode, hle, hidle⟩ := h.timed since hsince
    refine ⟨hmode, hle.trans (Nat.le_add_right s.now ms), hidle.imp_right ?_⟩
    rintro ⟨hnone, hworked⟩
    refine ⟨hnone, fun worked hlast => hworked worked ?_⟩
    simpa [NoSleepRun.elapsed, hnone] using hlast

theorem statusChanged (h : NoSleepInvariant s) (pane : String) (works : Bool) :
    NoSleepInvariant (s.statusChanged pane works) := by
  cases works with
  | true =>
    refine ⟨h.cooldown, h.untilMs, ?_, fun since hsince => ?_, h.releases⟩
    · intro worked hworked
      obtain rfl := Option.some.inj hworked
      exact le_rfl
    · obtain ⟨hmode, hle, -⟩ := h.timed since hsince
      exact ⟨hmode, hle, .inl rfl⟩
  | false =>
    refine ⟨h.cooldown, h.untilMs, h.worked, fun since hsince => ?_, h.releases⟩
    obtain ⟨hmode, hle, hidle⟩ := h.timed since hsince
    refine ⟨hmode, hle, hidle.imp_right ?_⟩
    rintro ⟨hnone, hworked⟩
    exact ⟨by simp [NoSleepRun.statusChanged, hnone], hworked⟩

/-- A change of the state that clears the idle timer, or leaves it and the modes alone. -/
theorem congr (h : NoSleepInvariant s) (hcooldown : s'.cooldown ≤ 3600) (hnow : s'.now = s.now)
    (hlast : s'.lastWorked = s.lastWorked) (hworking : s'.working = s.working)
    (hbegun : s'.begun = s.begun) (hreleases : s'.releases = s.releases)
    (hmode : s'.noSleep.mode = s.noSleep.mode) (huntil : s'.noSleep.untilMs = s.noSleep.untilMs)
    (htimer : s'.noSleep.autoIdleSinceMs = s.noSleep.autoIdleSinceMs) : NoSleepInvariant s' := by
  refine ⟨hcooldown, ?_, ?_, ?_, ?_⟩
  · rw [hmode, huntil]
    exact h.untilMs
  · rw [hlast, hnow]
    exact h.worked
  · rw [htimer, hmode, hnow]
    simp only [NoSleepRun.IdleSince, hbegun, hworking, hlast]
    exact h.timed
  · rw [NoSleepRun.HoldsWhileWorking, hreleases]
    exact h.releases

/-- The release of a sync is one of an idle time: the timer was started when nothing worked, and
nothing has begun to since. -/
theorem released (h : NoSleepInvariant s) (hnone : s.working = [])
    (hbegun : (s.noSleep.autoIdleSinceMs.isSome && s.begun) = false)
    (hover : saturatingMul s.cooldown 1000 ≤ s.now - s.noSleep.autoIdleSinceMs.getD s.now) :
    Release.Idle ⟨s.now, s.cooldown, s.working, s.lastWorked⟩ := by
  have hcooldown := h.cooldown
  rw [saturatingMul_eq (by omega)] at hover
  refine ⟨hnone, fun worked hworked => ?_⟩
  have hnow := h.worked worked hworked
  cases htimer : s.noSleep.autoIdleSinceMs with
  | none =>
    rw [htimer, Option.getD_none] at hover
    simp only
    omega
  | some since =>
    obtain ⟨-, hle, hidle⟩ := h.timed since htimer
    rw [htimer, Option.isSome_some, Bool.true_and] at hbegun
    have hsince := (hidle.resolve_left (by simp [hbegun])).2 worked hworked
    rw [htimer, Option.getD_some] at hover
    simp only
    omega

theorem sync (h : NoSleepInvariant s) {hasWorking : Bool} (started : Except String Unit)
    (hok : hasWorking = false → s.noSleep.mode = .auto →
      s.working = [] ∧ (s.noSleep.autoIdleSinceMs.isSome && s.begun) = false) :
    NoSleepInvariant (s.sync hasWorking started) := by
  rcases syncAutoNoSleep_cases s.noSleep hasWorking s.cooldown s.now started with
    ⟨hmode, hnext⟩ | ⟨hmode, rfl, hauto, huntil, htimer⟩ | ⟨hmode, rfl, hover, hoff, htimer⟩ |
      ⟨hmode, rfl, hauto, huntil, htimer⟩
  · refine ⟨h.cooldown, ?_, h.worked, fun since hsince => ?_, ?_⟩
    · simpa [NoSleepRun.sync, NoSleepRun.moveTo, hnext] using h.untilMs
    · simp only [NoSleepRun.sync, NoSleepRun.moveTo, hnext] at hsince
      exact absurd (h.timed since hsince).1 hmode
    · simpa [NoSleepRun.HoldsWhileWorking, NoSleepRun.sync, NoSleepRun.moveTo, hmode]
        using h.releases
  · refine ⟨h.cooldown, fun _ => huntil.trans (h.untilMs hmode), h.worked,
      fun since hsince => ?_, ?_⟩
    · have hnone := htimer.symm.trans hsince
      cases hnone
    · simpa [NoSleepRun.HoldsWhileWorking, NoSleepRun.sync, NoSleepRun.moveTo, hauto]
        using h.releases
  · obtain ⟨hnone, hbegun⟩ := hok rfl hmode
    refine ⟨h.cooldown, fun hauto => ?_, h.worked, fun since hsince => ?_, ?_⟩
    · have hboth := hoff.symm.trans hauto
      cases hboth
    · have hnone := htimer.symm.trans hsince
      cases hnone
    · simp only [NoSleepRun.HoldsWhileWorking, NoSleepRun.sync, NoSleepRun.moveTo, hmode, hoff,
        and_self, if_true, List.forall_mem_cons]
      exact ⟨h.released hnone hbegun hover, h.releases⟩
  · obtain ⟨hnone, hbegun⟩ := hok rfl hmode
    refine ⟨h.cooldown, fun _ => huntil.trans (h.untilMs hmode), h.worked,
      fun since hsince => ?_, ?_⟩
    · obtain rfl : s.noSleep.autoIdleSinceMs.getD s.now = since :=
        Option.some.inj (htimer.symm.trans hsince)
      cases hold : s.noSleep.autoIdleSinceMs with
      | none => exact ⟨hauto, le_rfl, .inr ⟨hnone, h.worked⟩⟩
      | some since =>
        obtain ⟨-, hle, hidle⟩ := h.timed since hold
        rw [hold, Option.isSome_some, Bool.true_and] at hbegun
        exact ⟨hauto, hle, .inr (hidle.resolve_left (by simp [hbegun]))⟩
    · simpa [NoSleepRun.HoldsWhileWorking, NoSleepRun.sync, NoSleepRun.moveTo, hauto]
        using h.releases

theorem withLoops (h : NoSleepInvariant s) (loops : List AutoLoop) :
    NoSleepInvariant { s with loops } :=
  h.congr h.cooldown rfl rfl rfl rfl rfl rfl rfl rfl

theorem setLoop (h : NoSleepInvariant s) (i : Nat) (phase : LoopPhase) :
    NoSleepInvariant (s.setLoop i phase) := h.withLoops _

theorem changed (h : NoSleepInvariant s) (mode : NoSleepMode) (untilMs : Option Nat)
    (started : Except String Unit) (timers : List Nat) :
    NoSleepInvariant { s with
      noSleep := (applyNoSleepMode s.noSleep mode untilMs started).1
      begun := false
      timers } := by
  obtain ⟨hauto, hcleared⟩ := applyNoSleepMode_auto s.noSleep mode untilMs started
  refine ⟨h.cooldown, hauto, h.worked, fun since hsince => ?_, h.releases⟩
  have hnone := hcleared.symm.trans hsince
  cases hnone

theorem updateNoSleep (h : NoSleepInvariant s) {mode : NoSleepMode} {agents : Option Json}
    (started : Except String Unit) (hok : reportsAll s (.update mode agents started) = true) :
    NoSleepInvariant (s.updateNoSleep mode agents started) := by
  unfold NoSleepRun.updateNoSleep
  simp only
  split
  · next hmode =>
      subst hmode
      refine withLoops ?_ _
      cases agents with
      | none => exact h.changed ..
      | some agents =>
        refine (h.changed ..).sync started fun hnone _ => ?_
        have hworking : s.working = [] := by
          simpa [reportsAll, NoSleepAction.report, hnone] using hok
        exact ⟨hworking, Bool.and_false _⟩
  · exact h.changed ..

theorem timer (h : NoSleepInvariant s) (untilMs : Nat) (timers : List Nat) :
    NoSleepInvariant ({ s with timers }.moveTo (s.timeUp untilMs)) := by
  by_cases hdue : s.noSleep.untilMs = some untilMs
  · have hmode : s.noSleep.mode ≠ .auto := fun hauto => by
      rw [h.untilMs hauto] at hdue
      cases hdue
    refine ⟨h.cooldown, fun hauto => ?_, h.worked, fun since hsince => ?_, ?_⟩
    · simp [NoSleepRun.moveTo, NoSleepRun.timeUp, hdue] at hauto
    · simp only [NoSleepRun.moveTo, NoSleepRun.timeUp, hdue, if_true] at hsince
      exact absurd (h.timed since hsince).1 hmode
    · simpa [NoSleepRun.HoldsWhileWorking, NoSleepRun.moveTo, hmode] using h.releases
  · have hsame : s.timeUp untilMs = s.noSleep := if_neg hdue
    refine h.congr h.cooldown rfl rfl rfl rfl ?_ ?_ ?_ ?_
    · refine if_neg fun hboth => ?_
      have hoff := hboth.2
      rw [hsame, hboth.1] at hoff
      cases hoff
    · rw [NoSleepRun.moveTo, hsame]
    · rw [NoSleepRun.moveTo, hsame]
    · rw [NoSleepRun.moveTo, hsame]

theorem step (h : NoSleepInvariant s) {a : NoSleepAction} (hok : reportsAll s a = true)
    (hstep : noSleepStep s a = some s') : NoSleepInvariant s' := by
  cases a with
  | elapse ms =>
    obtain rfl := Option.some.inj hstep
    exact h.elapsed ms
  | status pane works =>
    obtain rfl := Option.some.inj hstep
    exact h.statusChanged pane works
  | saveCooldown seconds =>
    obtain ⟨hle, hs'⟩ := Option.ite_none_right_eq_some.mp hstep
    obtain rfl := Option.some.inj hs'
    exact h.congr hle rfl rfl rfl rfl rfl rfl rfl rfl
  | event value started =>
    obtain rfl := Option.some.inj hstep
    cases hevent : eventWorking value with
    | none => exact h
    | some hasWorking =>
      refine h.sync started fun hnone hmode => ?_
      simpa only [reportsAll, NoSleepAction.report, hevent, hnone, hmode, bne_self_eq_false,
        Bool.false_or, Bool.and_eq_true, beq_iff_eq, Bool.not_eq_true'] using hok
  | update mode agents started =>
    obtain rfl := Option.some.inj hstep
    exact h.updateNoSleep started hok
  | tick i =>
    simp only [noSleepStep] at hstep
    split at hstep
    · obtain rfl := Option.some.inj hstep
      exact h.setLoop ..
    · cases hstep
  | answer i agents started =>
    simp only [noSleepStep] at hstep
    split at hstep
    · obtain rfl := Option.some.inj hstep
      refine (h.sync started fun hnone hmode => ?_).setLoop ..
      simpa only [reportsAll, NoSleepAction.report, hnone, hmode, bne_self_eq_false,
        Bool.false_or, Bool.and_eq_true, beq_iff_eq, Bool.not_eq_true'] using hok
    · cases hstep
  | fail i err =>
    simp only [noSleepStep] at hstep
    split at hstep
    · obtain rfl := Option.some.inj hstep
      refine setLoop ?_ ..
      split
      · exact h.congr h.cooldown rfl rfl rfl rfl rfl rfl rfl rfl
      · exact h
    · cases hstep
  | timer i =>
    simp only [noSleepStep] at hstep
    split at hstep
    · obtain ⟨-, hs'⟩ := Option.ite_none_right_eq_some.mp hstep
      obtain rfl := Option.some.inj hs'
      exact h.timer ..
    · cases hstep
end NoSleepInvariant

/-- In a run in which no work goes unreported, the auto mode ends only where nothing worked. -/
theorem noSleepRuns_holdsWhileWorking {s : NoSleepRun}
    (h : noSleepRuns.ReachVia (fun s a => reportsAll s a = true) s) : s.HoldsWhileWorking := by
  have hinvariant : NoSleepInvariant s := by
    refine h.invariant ?_ fun _ _ _ _ hs hok hstep => hs.step hok hstep
    rintro _ ⟨now, cooldown, working, hcooldown, rfl⟩
    refine ⟨hcooldown, nofun, fun worked hworked => ?_, nofun, nofun⟩
    split at hworked
    · cases hworked
    · obtain rfl := Option.some.inj hworked
      exact le_rfl
  exact hinvariant.releases

/-- `agent.list` with one agent. -/
def listOf (status : String) : Json :=
  .object [("result", .object [("agents", .array [.object [("agent_status", .string status)]])])]

/-- The event that tells the status of one pane. -/
def statusEventOf (status : String) : Json :=
  .object [("type", .string "event"), ("event", .object
    [("event", .string "pane.agent_status_changed"),
      ("data", .object [("agent_status", .string status)])])]

/-- The only pane stops, and the loop ends the mode a cooldown of one second later. -/
theorem noSleepRuns_holdsWhileWorking_stopped :
    NoSleepRun.HoldsWhileWorking
      ⟨1000, 1, { autoGeneration := 1 }, [⟨1, .waiting⟩], [], [], some 0, false,
        [⟨1000, 1, [], some 0⟩]⟩ := by
  have hrun : noSleepRuns.runVia (fun s a => reportsAll s a = true)
      ⟨0, 1, {}, [], [], ["w:p1"], some 0, false, []⟩
      [.update .auto (some (listOf "working")) (.ok ()), .status "w:p1" false,
        .event (statusEventOf "idle") (.ok ()), .elapse 1000, .tick 0,
        .answer 0 (listOf "idle") (.ok ())] =
      some ⟨1000, 1, { autoGeneration := 1 }, [⟨1, .waiting⟩], [], [], some 0, false,
        [⟨1000, 1, [], some 0⟩]⟩ := by decide +kernel
  exact noSleepRuns_holdsWhileWorking (.runVia (.init ⟨0, 1, ["w:p1"], by decide, rfl⟩) hrun)

/-- A pane that turns idle ends the mode while another works. -/
theorem noSleepRuns_releases_working :
    ∃ s, noSleepRuns.Reachable s ∧ ¬ s.HoldsWhileWorking := by
  have hrun : noSleepRuns.run ⟨0, 0, {}, [], [], ["w:p1", "w:p2"], some 0, false, []⟩
      [.update .auto (some (listOf "working")) (.ok ()), .status "w:p2" false,
        .event (statusEventOf "idle") (.ok ())] =
      some ⟨0, 0, { autoGeneration := 1 }, [⟨1, .waiting⟩], [], ["w:p1"], some 0, false,
        [⟨0, 0, ["w:p1"], some 0⟩]⟩ := by decide +kernel
  refine ⟨_, .runVia (.init ⟨0, 0, ["w:p1", "w:p2"], by decide, rfl⟩) hrun, fun h => ?_⟩
  have hidle := (h _ List.mem_cons_self).1
  cases hidle

end HerdrWebui.Server
