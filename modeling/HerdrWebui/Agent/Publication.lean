import HerdrWebui.Agent.Throttle

/-!
Published statuses against committed ones. A pass commits under the
`last_agent_state` lock and publishes after it has released it, and `notify_exited`
clears the state while passes may be on their way. In a run in which every pass
publishes what is still committed, and none commits to a cleared state, the last
event and the committed state agree and nothing follows the exit.
-/

namespace HerdrWebui.Agent

open Concurrency

/-- The agent and the status of a status event. -/
def PaneEvent.status? : PaneEvent → Option (Option String × String)
  | .agentStatusChanged agent status => some (agent, status)
  | .exited => none

def lastPublished (events : List PaneEvent) : Option (Option String × String) :=
  (events.filterMap PaneEvent.status?).getLast?

/-- A pass publishes while the state still carries what it committed, and does
not commit once `notify_exited` has cleared the state. -/
def publishesCommitted (s : StatusState) : StatusAction → Bool
  | .publishPass caller =>
    match s.passes caller with
    | .publishing agent status =>
      s.lastAgentState.any fun state => state.agent == agent && state.status == status
    | _ => true
  | .commitPass _ _ _ => s.reader ≠ .cleared ∧ s.reader ≠ .ended
  | _ => true

@[simp] theorem lastPublished_publish (events : List PaneEvent)
    (agent : Option String) (status : String) :
    lastPublished (events ++ [.agentStatusChanged agent status]) =
      some (agent, status) := by
  simp [lastPublished, PaneEvent.status?]

/-- Every state without an agent has the same status. -/
def AgentState.Plain (state : AgentState) : Prop :=
  state.agent = none → state.status = "unknown"

theorem detectAgentStatus_plain (recognize : String → String) (agent : Option String)
    (seq : Nat) : AgentState.Plain ⟨agent, detectAgentStatus recognize agent, seq⟩ := by
  intro hnone
  obtain rfl : agent = none := hnone
  rfl

/-- A commit is dropped as stale, goes on to be published, or changes nothing
that is published. -/
theorem commitState_cases (previous : Option AgentState) (current : AgentState)
    (hprevious : ∀ before, previous = some before → before.Plain)
    (hcurrent : current.Plain) :
    (previous.isSome ∧ commitState previous current = (previous, false)) ∨
    commitState previous current = (some current, true) ∨
    (commitState previous current = (some current, false) ∧
      (previous = none ∧ current.agent = none ∨
        ∃ before, previous = some before ∧ before.agent = current.agent ∧
          before.status = current.status)) := by
  cases previous with
  | none =>
    right
    cases hagent : current.agent with
    | none => exact .inr ⟨by simp [commitState, hagent], .inl ⟨rfl, rfl⟩⟩
    | some agent => exact .inl (by simp [commitState, hagent])
  | some before =>
    by_cases hstale : current.seq ≤ before.seq
    · exact .inl ⟨rfl, by simp [commitState, hstale]⟩
    · right
      by_cases hsame : before.agent = current.agent ∧ before.status = current.status
      · exact .inr ⟨by simp [commitState, hstale, hsame],
          .inr ⟨before, rfl, hsame.1, hsame.2⟩⟩
      · refine .inl ?_
        have hpublish : current.agent.isSome = true ∨ before.agent.isSome = true := by
          by_contra hneither
          simp only [not_or, Option.not_isSome_iff_eq_none] at hneither
          refine hsame ⟨hneither.2.trans hneither.1.symm, ?_⟩
          rw [hprevious before rfl hneither.2, hcurrent hneither.1]
        simp only [commitState, Option.any_some, hstale, decide_false,
          Bool.false_eq_true, if_false, Option.all_some, ne_eq, Prod.mk.injEq, hsame,
          not_false_eq_true, decide_true, Bool.true_and, true_and, Bool.or_eq_true]
        exact hpublish

/-- `notify_exited` is past its last status event. -/
def ReaderPhase.exits : ReaderPhase → Bool
  | .announced | .cleared | .ended => true
  | _ => false

structure Converges (s : StatusState) : Prop where
  plain : ∀ state, s.lastAgentState = some state → state.Plain
  silent : s.reader.exits = false → s.lastAgentState = none →
    lastPublished s.events = none
  agrees : s.reader ≠ .announced → ∀ state, s.lastAgentState = some state →
    lastPublished s.events = some (state.agent, state.status) ∨
    (lastPublished s.events = none ∧ state.agent = none) ∨
    ∃ caller, s.passes caller = .publishing state.agent state.status
  cleared : s.reader = .cleared ∨ s.reader = .ended → s.lastAgentState = none
  open_ : s.reader ≠ .ended → .exited ∉ s.events
  ended : s.reader = .ended → ∃ pre, s.events = pre ++ [.exited] ∧ .exited ∉ pre

namespace Converges

variable {s s' : StatusState}

theorem start : Converges .start where
  plain _ h := by cases h
  silent _ _ := rfl
  agrees _ _ h := by cases h
  cleared h := by rcases h with h | h <;> cases h
  open_ _ h := by cases h
  ended h := by cases h

/-- A step that leaves state, events and passes alone, outside of the last part
of `notify_exited`. -/
theorem of_frame (h : Converges s) (hstate : s'.lastAgentState = s.lastAgentState)
    (hevents : s'.events = s.events) (hpasses : s'.passes = s.passes)
    (hreader : s'.reader = s.reader ∨
      (s.reader.exits = false ∧ s'.reader.exits = false)) : Converges s' := by
  have hphase (phase : ReaderPhase) (hexits : phase.exits = true) :
      s'.reader = phase ↔ s.reader = phase := by
    rcases hreader with hsame | ⟨hfrom, hto⟩
    · rw [hsame]
    · constructor
      · rintro rfl
        rw [hexits] at hto
        cases hto
      · rintro rfl
        rw [hexits] at hfrom
        cases hfrom
  have hexits : s'.reader.exits = s.reader.exits := by
    rcases hreader with hsame | ⟨hfrom, hto⟩
    · rw [hsame]
    · rw [hfrom, hto]
  constructor
  case plain =>
    rw [hstate]
    exact h.plain
  case silent =>
    rw [hexits, hstate, hevents]
    exact h.silent
  case agrees =>
    rw [ne_eq, hphase .announced rfl, hstate, hevents, hpasses]
    exact h.agrees
  case cleared =>
    rw [hphase .cleared rfl, hphase .ended rfl, hstate]
    exact h.cleared
  case open_ =>
    rw [ne_eq, hphase .ended rfl, hevents]
    exact h.open_
  case ended =>
    rw [hphase .ended rfl, hevents]
    exact h.ended

theorem announce (h : Converges s) (hexiting : s.reader = .exiting)
    (agent : Option String) :
    Converges { s with events := s.events ++ finalStatus agent, reader := .announced } where
  plain := h.plain
  silent hexits := by cases hexits
  agrees hne := absurd rfl hne
  cleared hreader := by rcases hreader with hreader | hreader <;> cases hreader
  open_ _ := by
    have hopen := h.open_ (by simp [hexiting])
    cases agent <;> simpa [finalStatus] using hopen
  ended hreader := by cases hreader

theorem clearState (h : Converges s) (hannounced : s.reader = .announced) :
    Converges { s with lastAgentState := none, reader := .cleared } where
  plain _ hstate := by cases hstate
  silent hexits := by cases hexits
  agrees _ _ hstate := by cases hstate
  cleared _ := rfl
  open_ _ := h.open_ (by simp [hannounced])
  ended hreader := by cases hreader

theorem publishExited (h : Converges s) (hcleared : s.reader = .cleared) :
    Converges { s.publish .exited with reader := .ended } where
  plain := h.plain
  silent hexits := by cases hexits
  agrees _ state hstate := by
    have hnone := h.cleared (.inl hcleared)
    rw [show s.lastAgentState = some state from hstate] at hnone
    cases hnone
  cleared _ := h.cleared (.inl hcleared)
  open_ hne := absurd rfl hne
  ended _ := ⟨s.events, rfl, h.open_ (by simp [hcleared])⟩

theorem startPass (h : Converges s) {caller : Caller} (hidle : s.passes caller = .idle)
    (seq : Nat) :
    Converges { s.setPass caller (.reserved seq) with
      detectionSeq := seq, lookedAt := s.extensions } where
  plain := h.plain
  silent := h.silent
  agrees hreader state hstate := by
    refine (h.agrees hreader state hstate).imp_right (.imp_right ?_)
    rintro ⟨other, hother⟩
    have hne : other ≠ caller := by
      rintro rfl
      rw [hidle] at hother
      cases hother
    refine ⟨other, ?_⟩
    rw [← hother]
    exact Function.update_of_ne hne _ s.passes
  cleared := h.cleared
  open_ := h.open_
  ended := h.ended

/-- A pass returns: it had nothing to publish, or it has just published what is
committed. -/
theorem finishPass (h : Converges s) {caller : Caller}
    (hreader : caller = .reader → s.reader = .detecting)
    (hpass : ∀ agent status, s.passes caller = .publishing agent status →
      lastPublished s.events = some (agent, status)) :
    Converges (s.finishPass caller) := by
  have hsettled : Converges (s.setPass caller .idle) := by
    refine ⟨h.plain, h.silent, fun hphase state hstate => ?_, h.cleared, h.open_, h.ended⟩
    rcases h.agrees hphase state hstate with hagrees | hsilent | ⟨other, hother⟩
    · exact .inl hagrees
    · exact .inr (.inl hsilent)
    · rcases eq_or_ne other caller with rfl | hne
      · exact .inl (hpass _ _ hother)
      · refine .inr (.inr ⟨other, ?_⟩)
        rw [← hother]
        exact Function.update_of_ne hne _ s.passes
  apply hsettled.of_frame (by simp; rfl) (by simp; rfl) (by simp; rfl)
  rw [StatusState.finishPass_reader]
  split
  · next heq =>
      refine .inr ⟨?_, rfl⟩
      rw [show (s.setPass caller .idle).reader = .detecting from hreader heq]
      rfl
  · exact .inl rfl

theorem commitPass (h : Converges s) {caller : Caller} {seq : Nat}
    (hpass : s.passes caller = .reserved seq)
    (hreader : caller = .reader → s.reader = .detecting)
    (hopen : s.reader ≠ .cleared ∧ s.reader ≠ .ended)
    {current : AgentState} (hcurrent : current.Plain) :
    Converges (s.afterCommit caller current) := by
  have hreturn {s' : StatusState} (hconverges : Converges s')
      (hpasses : s'.passes = s.passes) (hsame : s'.reader = s.reader) :
      Converges (s'.finishPass caller) := by
    refine hconverges.finishPass (fun heq => hsame.trans (hreader heq)) ?_
    intro agent status hpublishing
    rw [hpasses, hpass] at hpublishing
    cases hpublishing
  unfold StatusState.afterCommit
  rcases commitState_cases s.lastAgentState current h.plain hcurrent with
    ⟨_, hstale⟩ | hpublish | ⟨hquiet, hsame⟩
  · rw [hstale]
    exact hreturn h rfl rfl
  · rw [hpublish]
    constructor
    case plain =>
      rintro state hstate
      obtain rfl := Option.some.inj hstate
      exact hcurrent
    case silent => exact fun _ hstate => by cases hstate
    case agrees =>
      rintro _ state hstate
      obtain rfl := Option.some.inj hstate
      exact .inr (.inr ⟨caller, Function.update_self _ _ _⟩)
    case cleared => exact fun hphase => (hphase.elim hopen.1 hopen.2).elim
    case open_ => exact h.open_
    case ended => exact h.ended
  · rw [hquiet]
    refine hreturn ?_ rfl rfl
    constructor
    case plain =>
      rintro state hstate
      obtain rfl := Option.some.inj hstate
      exact hcurrent
    case silent => exact fun _ hstate => by cases hstate
    case agrees =>
      rintro hphase state hstate
      obtain rfl := Option.some.inj hstate
      rcases hsame with ⟨hnone, hagent⟩ | ⟨before, hbefore, hagent, hstatus⟩
      · refine .inr (.inl ⟨h.silent ?_ hnone, hagent⟩)
        cases hr : s.reader <;> simp_all [ReaderPhase.exits]
      · rw [← hagent, ← hstatus]
        exact h.agrees hphase before hbefore
    case cleared => exact fun hphase => (hphase.elim hopen.1 hopen.2).elim
    case open_ => exact h.open_
    case ended => exact h.ended

theorem publishPass (h : Converges s) {caller : Caller} {agent : Option String}
    {status : String} (hpass : s.passes caller = .publishing agent status)
    (hreader : caller = .reader → s.reader = .detecting)
    {state : AgentState} (hstate : s.lastAgentState = some state)
    (hagent : state.agent = agent) (hstatus : state.status = status) :
    Converges ((s.publish (.agentStatusChanged agent status)).finishPass caller) := by
  have hopen : s.reader ≠ .ended := by
    intro hended
    rw [h.cleared (.inr hended)] at hstate
    cases hstate
  have hpublished : Converges (s.publish (.agentStatusChanged agent status)) := by
    constructor
    case plain => exact h.plain
    case silent =>
      intro _ hnone
      rw [show s.lastAgentState = none from hnone] at hstate
      cases hstate
    case agrees =>
      intro _ committed hcommitted
      rw [show s.lastAgentState = some committed from hcommitted] at hstate
      obtain rfl := Option.some.inj hstate
      left
      rw [hagent, hstatus]
      exact lastPublished_publish s.events agent status
    case cleared => exact h.cleared
    case open_ =>
      intro hne hmem
      rcases List.mem_append.mp hmem with hold | hnew
      · exact h.open_ hopen hold
      · cases List.mem_singleton.mp hnew
    case ended => exact fun hended => absurd hended hopen
  apply hpublished.finishPass hreader
  intro agent' status' hpublishing
  rw [show s.passes caller = .publishing agent' status' from hpublishing] at hpass
  obtain ⟨rfl, rfl⟩ := PassPhase.publishing.inj hpass
  exact lastPublished_publish s.events agent' status'

theorem step (h : Converges s) (hedge : TrailingEdge s) {a : StatusAction}
    (hok : publishesCommitted s a = true) (hstep : statusStep s a = some s') :
    Converges s' := by
  have hdetects {caller : Caller} (hpass : s.passes caller ≠ .idle) :
      caller = .reader → s.reader = .detecting := by
    rintro rfl
    simpa [StatusState.detects] using hedge.detects_of_pass hpass
  cases statusStep_cases hstep with
  | extendScrollback hreader | unthrottled hreader | throttled hreader
  | markPending hreader | clearPending hreader | swapExited hreader =>
    refine h.of_frame rfl rfl rfl (.inr ⟨?_, rfl⟩)
    rw [hreader]
    rfl
  | announce hreader => exact h.announce hreader _
  | clearState hreader => exact h.clearState hreader
  | publishExited hreader => exact h.publishExited hreader
  | sweeperWakes | swapPending | sweeperChecksExited | sweeperDetects | sweeperRestores
  | restorePending | promptArrives | promptChecksStatus =>
    exact h.of_frame rfl rfl rfl (.inl rfl)
  | promptRefused => exact h
  | startPass _ hidle => exact h.startPass hidle _
  | @commitPass caller agent recognize seq hpass =>
    have hopen : s.reader ≠ .cleared ∧ s.reader ≠ .ended := by
      simpa [publishesCommitted] using hok
    exact h.commitPass hpass (hdetects (by simp [hpass])) hopen
      (detectAgentStatus_plain recognize agent seq)
  | publishPass hpass =>
    simp only [publishesCommitted, hpass, Option.any_eq_true, Bool.and_eq_true,
      beq_iff_eq] at hok
    obtain ⟨state, hstate, hagent, hstatus⟩ := hok
    exact h.publishPass hpass (hdetects (by simp [hpass])) hstate hagent hstatus

end Converges

/-- In a run in which passes publish what is still committed and none commits to
a cleared state: when no pass is under way and `notify_exited` is not between its
last status and the clearing, the last status published is the committed one, and
there is none only where no agent was ever found. Once the exit is published
nothing follows it and the state stays cleared. -/
theorem status_converges {s : StatusState}
    (h : statusDetection.ReachVia (fun s a => publishesCommitted s a = true) s) :
    ((∀ caller, s.passes caller = .idle) → s.reader ≠ .announced →
      ∀ state, s.lastAgentState = some state →
        lastPublished s.events = some (state.agent, state.status) ∨
          (lastPublished s.events = none ∧ state.agent = none)) ∧
    ∀ pre post, s.events = pre ++ .exited :: post →
      post = [] ∧ s.lastAgentState = none := by
  have hinv : TrailingEdge s ∧ Converges s := by
    refine h.invariant (I := fun s => TrailingEdge s ∧ Converges s) ?_ ?_
    · rintro _ rfl
      exact ⟨.start, .start⟩
    · rintro s a s' _ ⟨hedge, hinv⟩ hok hstep
      exact ⟨hedge.step hstep, hinv.step hedge hok hstep⟩
  obtain ⟨_, hinv⟩ := hinv
  constructor
  · intro hidle hreader state hstate
    rcases hinv.agrees hreader state hstate with hagrees | hsilent | ⟨caller, hpass⟩
    · exact .inl hagrees
    · exact .inr hsilent
    · rw [hidle caller] at hpass
      cases hpass
  · intro pre post hevents
    have hended : s.reader = .ended := by
      by_contra hne
      apply hinv.open_ hne
      rw [hevents]
      exact List.mem_append_right pre List.mem_cons_self
    refine ⟨?_, hinv.cleared (.inr hended)⟩
    obtain ⟨pre', hlast, hfirst⟩ := hinv.ended hended
    rw [hlast] at hevents
    rcases List.eq_nil_or_concat post with rfl | ⟨front, last, rfl⟩
    · rfl
    · have hshift : pre' ++ [.exited] = (pre ++ .exited :: front) ++ [last] := by
        simpa using hevents
      have hpre := (List.append_inj' hshift rfl).1
      exact absurd (hpre ▸ List.mem_append_right pre List.mem_cons_self) hfirst

/-- A submit's pass commits after the reader's and publishes before it. -/
def overtakes : List StatusAction :=
  [.extendScrollback, .readerThrottle 0, .clearPending, .startPass .reader,
    .promptArrives 0, .promptChecksStatus 0, .startPass (.prompt 0),
    .commitPass .reader (some "jcode") fun _ => "working",
    .commitPass (.prompt 0) (some "jcode") fun _ => "idle",
    .publishPass (.prompt 0), .publishPass .reader]

/-- A submit's pass is under way while the terminal exits. -/
def outlives : List StatusAction :=
  [.promptArrives 0, .promptChecksStatus 0, .startPass (.prompt 0), .swapExited,
    .announce none, .clearState, .publishExited,
    .commitPass (.prompt 0) (some "jcode") fun _ => "working",
    .publishPass (.prompt 0)]

/-- In the first run the last event is not the committed state, in the second a
status follows the exit and the state is set again. -/
theorem overtakes_stale_outlives_exit :
    (∃ s, statusDetection.Reachable s ∧ s.passes .reader = .idle ∧
      s.passes (.prompt 0) = .idle ∧ s.reader = .reading ∧
      lastPublished s.events = some (some "jcode", "working") ∧
      s.lastAgentState = some ⟨some "jcode", "idle", 2⟩) ∧
    ∃ s, statusDetection.Reachable s ∧ s.passes (.prompt 0) = .idle ∧
      s.events = [.exited, .agentStatusChanged (some "jcode") "working"] ∧
      s.lastAgentState.isSome = true := by
  have hovertakes : (statusDetection.run .start overtakes).isSome := by decide +kernel
  have houtlives : (statusDetection.run .start outlives).isSome := by decide +kernel
  refine ⟨⟨_, System.reachable_get rfl hovertakes, ?_⟩,
    ⟨_, System.reachable_get rfl houtlives, ?_⟩⟩
  all_goals decide +kernel +revert

/-- The reader's pass and a submit's pass, one after the other, then the exit. -/
def inTurn : List StatusAction :=
  [.extendScrollback, .readerThrottle 0, .clearPending, .startPass .reader,
    .commitPass .reader (some "jcode") fun _ => "working", .publishPass .reader,
    .promptArrives 0, .promptChecksStatus 0, .startPass (.prompt 0),
    .commitPass (.prompt 0) (some "jcode") fun _ => "idle", .publishPass (.prompt 0),
    .swapExited, .announce (some "jcode"), .clearState, .publishExited]

theorem inTurn_converges :
    ∃ s, statusDetection.runVia (fun s a => publishesCommitted s a = true) .start
        inTurn = some s ∧
      s.events = [.agentStatusChanged (some "jcode") "working",
        .agentStatusChanged (some "jcode") "idle",
        .agentStatusChanged (some "jcode") "done", .exited] ∧
      s.lastAgentState = none := by
  have hrun : (statusDetection.runVia (fun s a => publishesCommitted s a = true) .start
      inTurn).isSome := by decide +kernel
  have hevents : ((statusDetection.runVia (fun s a => publishesCommitted s a = true)
      .start inTurn).get hrun).events = [.agentStatusChanged (some "jcode") "working",
        .agentStatusChanged (some "jcode") "idle",
        .agentStatusChanged (some "jcode") "done"] ++ .exited :: [] := by
    decide +kernel +revert
  exact ⟨_, (Option.some_get hrun).symm, hevents,
    ((status_converges (System.reachVia_get rfl hrun)).2 _ _ hevents).2⟩

end HerdrWebui.Agent
