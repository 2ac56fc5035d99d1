import HerdrWebui.Concurrency.System

/-!
Agent status detection of one terminal: the detection pass, the throttle in front
of it and the threads that run it, one step for each atomic access or lock hold.
The reader thread extends the scrollback, asks the throttle and runs a pass or
marks one as pending; the sweeper takes the mark and runs the pass or puts the
mark back; every composer submit runs a pass of its own. Past the end of its
input the reader thread publishes the exit (`notify_exited`).

What a pass reads off the screen and the process table is an input of its commit.
-/

namespace HerdrWebui.Agent

open Concurrency

/-- The state a pass commits (`last_agent_state`). -/
structure AgentState where
  agent : Option String
  status : String
  seq : Nat
  deriving DecidableEq

/-- The pane events of a terminal runtime. -/
inductive PaneEvent where
  | agentStatusChanged (agent : Option String) (status : String)
  | exited
  deriving DecidableEq

/-- `detect_agent_status_with_osc`. The screens and payloads of the agents it
knows are behind `recognize`; without an agent every path answers `unknown`. -/
def detectAgentStatus (recognize : String → String) : Option String → String
  | none => "unknown"
  | some agent => recognize agent

/-- What `detect_and_publish_agent_status` does under the `last_agent_state`
lock: the state it leaves, and whether it goes on to publish the result. -/
def commitState (previous : Option AgentState) (current : AgentState) :
    Option AgentState × Bool :=
  if previous.any fun committed => decide (current.seq ≤ committed.seq) then
    -- A newer pass has committed; the result is dropped.
    (previous, false)
  else
    let changed := previous.all fun before =>
      decide ((before.agent, before.status) ≠ (current.agent, current.status))
    let previousAgentWasSome := previous.any (·.agent.isSome)
    (some current, changed && (current.agent.isSome || previousAgentWasSome))

/-- The last status `notify_exited` publishes, unless no agent is reported any
more. -/
def finalStatus : Option String → List PaneEvent
  | some agent => [.agentStatusChanged (some agent) "done"]
  | none => []

def statusThrottle : Nat := 500 * 1000 * 1000

/-- Whether a check may run. `duration_since` is zero for a later instant. -/
def shouldCheck (lastCheck : Option Nat) (now : Nat) : Bool :=
  lastCheck.all fun last => decide (statusThrottle ≤ now - last)

/-- Who runs detection passes. -/
inductive Caller where
  | reader
  | sweeper
  | prompt (n : Nat)
  deriving DecidableEq

/-- A pass has reserved its sequence number, or has committed a result that it
has yet to publish. -/
inductive PassPhase where
  | idle
  | reserved (seq : Nat)
  | publishing (agent : Option String) (status : String)
  deriving DecidableEq

/-- The reader thread: in `append_output`, and from `exiting` on in
`notify_exited`. -/
inductive ReaderPhase where
  | reading
  | extended
  | throttled
  | unthrottled
  | detecting
  | exiting
  | announced
  | cleared
  | ended
  deriving DecidableEq

/-- The sweeper: `taken` and `deciding` after it has swapped the pending mark
out, `restoring` when the throttle sent it back. -/
inductive SweeperPhase where
  | sleeping
  | awake
  | taken
  | deciding
  | restoring
  | detecting
  | ended
  deriving DecidableEq

inductive PromptPhase where
  | idle
  | admitted
  | detecting
  deriving DecidableEq

structure StatusState where
  exited : Bool
  lastStatusCheck : Option Nat
  pendingStatusCheck : Bool
  detectionSeq : Nat
  lastAgentState : Option AgentState
  events : List PaneEvent
  reader : ReaderPhase
  sweeper : SweeperPhase
  prompts : Nat → PromptPhase
  passes : Caller → PassPhase
  /-- How many times the scrollback was extended. No code reads it. -/
  extensions : Nat
  /-- The extensions when the last pass started. No code reads it. -/
  lookedAt : Nat

def StatusState.start : StatusState where
  exited := false
  lastStatusCheck := none
  pendingStatusCheck := false
  detectionSeq := 0
  lastAgentState := none
  events := []
  reader := .reading
  sweeper := .sleeping
  prompts _ := .idle
  passes _ := .idle
  extensions := 0
  lookedAt := 0

inductive StatusAction where
  | extendScrollback
  | readerThrottle (now : Nat)
  | markPending
  | clearPending
  | swapExited
  | announce (agent : Option String)
  | clearState
  | publishExited
  | sweeperWakes
  | swapPending
  | sweeperChecksExited
  | sweeperThrottle (now : Nat)
  | restorePending
  | promptArrives (n : Nat)
  | promptChecksStatus (n : Nat)
  | startPass (caller : Caller)
  | commitPass (caller : Caller) (agent : Option String) (recognize : String → String)
  | publishPass (caller : Caller)

namespace StatusState

variable (s : StatusState)

def publish (event : PaneEvent) : StatusState :=
  { s with events := s.events ++ [event] }

def setPrompt (n : Nat) (phase : PromptPhase) : StatusState :=
  { s with prompts := Function.update s.prompts n phase }

def setPass (caller : Caller) (phase : PassPhase) : StatusState :=
  { s with passes := Function.update s.passes caller phase }

/-- The caller has got to its call of `detect_and_publish_agent_status`. -/
def detects : Caller → Bool
  | .reader => s.reader = .detecting
  | .sweeper => s.sweeper = .detecting
  | .prompt n => s.prompts n = .detecting

def finishPass (caller : Caller) : StatusState :=
  let s := s.setPass caller .idle
  match caller with
  | .reader => { s with reader := .reading }
  | .sweeper => { s with sweeper := .sleeping }
  | .prompt n => s.setPrompt n .idle

@[simp] theorem finishPass_passes (caller : Caller) :
    (s.finishPass caller).passes = Function.update s.passes caller .idle := by
  cases caller <;> rfl

@[simp] theorem finishPass_lastAgentState (caller : Caller) :
    (s.finishPass caller).lastAgentState = s.lastAgentState := by
  cases caller <;> rfl

@[simp] theorem finishPass_events (caller : Caller) :
    (s.finishPass caller).events = s.events := by
  cases caller <;> rfl

theorem finishPass_reader (caller : Caller) :
    (s.finishPass caller).reader =
      if caller = .reader then .reading else s.reader := by
  cases caller <;> rfl

end StatusState

def statusStep (s : StatusState) : StatusAction → Option StatusState
  | .extendScrollback =>
    if s.reader = .reading then
      some { s with extensions := s.extensions + 1, reader := .extended }
    else none
  | .readerThrottle now =>
    if s.reader = .extended then
      if shouldCheck s.lastStatusCheck now then
        some { s with lastStatusCheck := some now, reader := .unthrottled }
      else some { s with reader := .throttled }
    else none
  | .markPending =>
    if s.reader = .throttled then
      some { s with pendingStatusCheck := true, reader := .reading }
    else none
  | .clearPending =>
    if s.reader = .unthrottled then
      some { s with pendingStatusCheck := false, reader := .detecting }
    else none
  | .swapExited =>
    if s.reader = .reading then some { s with exited := true, reader := .exiting }
    else none
  | .announce agent =>
    if s.reader = .exiting then
      some { s with events := s.events ++ finalStatus agent, reader := .announced }
    else none
  | .clearState =>
    if s.reader = .announced then
      some { s with lastAgentState := none, reader := .cleared }
    else none
  | .publishExited =>
    if s.reader = .cleared then
      some { s.publish .exited with reader := .ended }
    else none
  | .sweeperWakes =>
    if s.sweeper = .sleeping then
      some { s with sweeper := if s.exited then .ended else .awake }
    else none
  | .swapPending =>
    if s.sweeper = .awake then
      some { s with
        pendingStatusCheck := false
        sweeper := if s.pendingStatusCheck then .taken else .sleeping }
    else none
  | .sweeperChecksExited =>
    if s.sweeper = .taken then
      some { s with sweeper := if s.exited then .sleeping else .deciding }
    else none
  | .sweeperThrottle now =>
    if s.sweeper = .deciding then
      if shouldCheck s.lastStatusCheck now then
        some { s with lastStatusCheck := some now, sweeper := .detecting }
      else some { s with sweeper := .restoring }
    else none
  | .restorePending =>
    if s.sweeper = .restoring then
      some { s with pendingStatusCheck := true, sweeper := .sleeping }
    else none
  | .promptArrives n =>
    if s.prompts n = .idle then
      if s.exited then some s else some (s.setPrompt n .admitted)
    else none
  | .promptChecksStatus n =>
    if s.prompts n = .admitted then
      let blocked := s.lastAgentState.any fun state => state.status == "blocked"
      some (s.setPrompt n (if blocked then .idle else .detecting))
    else none
  | .startPass caller =>
    if s.detects caller ∧ s.passes caller = .idle then
      some { s.setPass caller (.reserved (s.detectionSeq + 1)) with
        detectionSeq := s.detectionSeq + 1
        lookedAt := s.extensions }
    else none
  | .commitPass caller agent recognize =>
    match s.passes caller with
    | .reserved seq =>
      let status := detectAgentStatus recognize agent
      let (state, shouldPublish) := commitState s.lastAgentState ⟨agent, status, seq⟩
      let s := { s with lastAgentState := state }
      some (if shouldPublish then s.setPass caller (.publishing agent status)
        else s.finishPass caller)
    | _ => none
  | .publishPass caller =>
    match s.passes caller with
    | .publishing agent status =>
      some ((s.publish (.agentStatusChanged agent status)).finishPass caller)
    | _ => none

def statusDetection : System StatusState StatusAction where
  init s := s = .start
  step := statusStep

/-- The state after a pass has committed, and returned if there is nothing to publish. -/
def StatusState.afterCommit (s : StatusState) (caller : Caller) (current : AgentState) :
    StatusState :=
  let committed := { s with lastAgentState := (commitState s.lastAgentState current).1 }
  if (commitState s.lastAgentState current).2 then
    committed.setPass caller (.publishing current.agent current.status)
  else committed.finishPass caller

/-- What a step can be. -/
inductive StatusMove (s : StatusState) : StatusAction → StatusState → Prop
  | extendScrollback : s.reader = .reading →
      StatusMove s .extendScrollback
        { s with extensions := s.extensions + 1, reader := .extended }
  | unthrottled {now : Nat} : s.reader = .extended →
      StatusMove s (.readerThrottle now)
        { s with lastStatusCheck := some now, reader := .unthrottled }
  | throttled {now : Nat} : s.reader = .extended →
      StatusMove s (.readerThrottle now) { s with reader := .throttled }
  | markPending : s.reader = .throttled →
      StatusMove s .markPending { s with pendingStatusCheck := true, reader := .reading }
  | clearPending : s.reader = .unthrottled →
      StatusMove s .clearPending { s with pendingStatusCheck := false, reader := .detecting }
  | swapExited : s.reader = .reading →
      StatusMove s .swapExited { s with exited := true, reader := .exiting }
  | announce {agent : Option String} : s.reader = .exiting →
      StatusMove s (.announce agent)
        { s with events := s.events ++ finalStatus agent, reader := .announced }
  | clearState : s.reader = .announced →
      StatusMove s .clearState { s with lastAgentState := none, reader := .cleared }
  | publishExited : s.reader = .cleared →
      StatusMove s .publishExited { s.publish .exited with reader := .ended }
  | sweeperWakes : s.sweeper = .sleeping →
      StatusMove s .sweeperWakes { s with sweeper := if s.exited then .ended else .awake }
  | swapPending : s.sweeper = .awake →
      StatusMove s .swapPending
        { s with
          pendingStatusCheck := false
          sweeper := if s.pendingStatusCheck then .taken else .sleeping }
  | sweeperChecksExited : s.sweeper = .taken →
      StatusMove s .sweeperChecksExited
        { s with sweeper := if s.exited then .sleeping else .deciding }
  | sweeperDetects {now : Nat} : s.sweeper = .deciding →
      StatusMove s (.sweeperThrottle now)
        { s with lastStatusCheck := some now, sweeper := .detecting }
  | sweeperRestores {now : Nat} : s.sweeper = .deciding →
      StatusMove s (.sweeperThrottle now) { s with sweeper := .restoring }
  | restorePending : s.sweeper = .restoring →
      StatusMove s .restorePending { s with pendingStatusCheck := true, sweeper := .sleeping }
  | promptRefused {n : Nat} : StatusMove s (.promptArrives n) s
  | promptArrives {n : Nat} : s.prompts n = .idle →
      StatusMove s (.promptArrives n) (s.setPrompt n .admitted)
  | promptChecksStatus {n : Nat} (phase : PromptPhase) : s.prompts n = .admitted →
      StatusMove s (.promptChecksStatus n) (s.setPrompt n phase)
  | startPass {caller : Caller} : s.detects caller = true → s.passes caller = .idle →
      StatusMove s (.startPass caller)
        { s.setPass caller (.reserved (s.detectionSeq + 1)) with
          detectionSeq := s.detectionSeq + 1
          lookedAt := s.extensions }
  | commitPass {caller : Caller} {agent : Option String} {recognize : String → String}
      {seq : Nat} : s.passes caller = .reserved seq →
      StatusMove s (.commitPass caller agent recognize)
        (s.afterCommit caller ⟨agent, detectAgentStatus recognize agent, seq⟩)
  | publishPass {caller : Caller} {agent : Option String} {status : String} :
      s.passes caller = .publishing agent status →
      StatusMove s (.publishPass caller)
        ((s.publish (.agentStatusChanged agent status)).finishPass caller)

theorem statusStep_cases {s s' : StatusState} {a : StatusAction}
    (h : statusStep s a = some s') : StatusMove s a s' := by
  cases a with
  | extendScrollback =>
    obtain ⟨hfrom, hsame⟩ := Option.ite_none_right_eq_some.mp h
    obtain rfl := Option.some.inj hsame
    exact .extendScrollback hfrom
  | readerThrottle now =>
    obtain ⟨hfrom, hsame⟩ := Option.ite_none_right_eq_some.mp h
    split at hsame
    · obtain rfl := Option.some.inj hsame
      exact .unthrottled hfrom
    · obtain rfl := Option.some.inj hsame
      exact .throttled hfrom
  | markPending =>
    obtain ⟨hfrom, hsame⟩ := Option.ite_none_right_eq_some.mp h
    obtain rfl := Option.some.inj hsame
    exact .markPending hfrom
  | clearPending =>
    obtain ⟨hfrom, hsame⟩ := Option.ite_none_right_eq_some.mp h
    obtain rfl := Option.some.inj hsame
    exact .clearPending hfrom
  | swapExited =>
    obtain ⟨hfrom, hsame⟩ := Option.ite_none_right_eq_some.mp h
    obtain rfl := Option.some.inj hsame
    exact .swapExited hfrom
  | announce agent =>
    obtain ⟨hfrom, hsame⟩ := Option.ite_none_right_eq_some.mp h
    obtain rfl := Option.some.inj hsame
    exact .announce hfrom
  | clearState =>
    obtain ⟨hfrom, hsame⟩ := Option.ite_none_right_eq_some.mp h
    obtain rfl := Option.some.inj hsame
    exact .clearState hfrom
  | publishExited =>
    obtain ⟨hfrom, hsame⟩ := Option.ite_none_right_eq_some.mp h
    obtain rfl := Option.some.inj hsame
    exact .publishExited hfrom
  | sweeperWakes =>
    obtain ⟨hfrom, hsame⟩ := Option.ite_none_right_eq_some.mp h
    obtain rfl := Option.some.inj hsame
    exact .sweeperWakes hfrom
  | swapPending =>
    obtain ⟨hfrom, hsame⟩ := Option.ite_none_right_eq_some.mp h
    obtain rfl := Option.some.inj hsame
    exact .swapPending hfrom
  | sweeperChecksExited =>
    obtain ⟨hfrom, hsame⟩ := Option.ite_none_right_eq_some.mp h
    obtain rfl := Option.some.inj hsame
    exact .sweeperChecksExited hfrom
  | sweeperThrottle now =>
    obtain ⟨hfrom, hsame⟩ := Option.ite_none_right_eq_some.mp h
    split at hsame
    · obtain rfl := Option.some.inj hsame
      exact .sweeperDetects hfrom
    · obtain rfl := Option.some.inj hsame
      exact .sweeperRestores hfrom
  | restorePending =>
    obtain ⟨hfrom, hsame⟩ := Option.ite_none_right_eq_some.mp h
    obtain rfl := Option.some.inj hsame
    exact .restorePending hfrom
  | promptArrives n =>
    obtain ⟨hfrom, hsame⟩ := Option.ite_none_right_eq_some.mp h
    split at hsame
    · obtain rfl := Option.some.inj hsame
      exact .promptRefused
    · obtain rfl := Option.some.inj hsame
      exact .promptArrives hfrom
  | promptChecksStatus n =>
    obtain ⟨hfrom, hsame⟩ := Option.ite_none_right_eq_some.mp h
    obtain rfl := Option.some.inj hsame
    exact .promptChecksStatus _ hfrom
  | startPass caller =>
    obtain ⟨hready, hsame⟩ := Option.ite_none_right_eq_some.mp h
    obtain rfl := Option.some.inj hsame
    exact .startPass hready.1 hready.2
  | commitPass caller agent recognize =>
    simp only [statusStep] at h
    split at h
    · next hpass =>
        obtain rfl := Option.some.inj h
        exact .commitPass hpass
    · cases h
  | publishPass caller =>
    simp only [statusStep] at h
    split at h
    · next hpass =>
        obtain rfl := Option.some.inj h
        exact .publishPass hpass
    · cases h

end HerdrWebui.Agent
