import HerdrWebui.Agent.Detection

/-!
The throttle keeps the trailing edge: whenever `append_output` has returned, the
screen it left has been looked at, is marked as pending, or its mark is with the
sweeper.
-/

namespace HerdrWebui.Agent

open Concurrency

/-- The sweeper has taken the mark and has not yet run the pass or put the mark
back. -/
def StatusState.sweeperHolds (s : StatusState) : Bool :=
  match s.sweeper with
  | .taken | .deciding | .restoring => true
  | .detecting => s.passes .sweeper = .idle
  | .sleeping | .awake | .ended => false

/-- A pass has started since the scrollback was last extended, or one will. -/
def StatusState.Watched (s : StatusState) : Prop :=
  s.lookedAt = s.extensions ∨ s.pendingStatusCheck = true ∨ s.sweeperHolds = true

def StatusAction.isSweepers : StatusAction → Bool
  | .sweeperWakes | .swapPending | .sweeperChecksExited | .sweeperThrottle _
  | .restorePending => true
  | .startPass caller | .commitPass caller _ _ | .publishPass caller =>
    caller = .sweeper
  | _ => false

/-- Steps the sweeper is away from running the pass or putting the mark back. -/
def StatusState.sweeperDistance (s : StatusState) : Nat :=
  match s.sweeper with
  | .taken => 3
  | .deciding => 2
  | .restoring | .detecting => 1
  | .sleeping | .awake | .ended => 0

structure TrailingEdge (s : StatusState) : Prop where
  idle : ∀ caller, s.detects caller = false → s.passes caller = .idle
  pass : s.passes .reader ≠ .idle → s.lookedAt = s.extensions
  edge : s.exited = false → s.reader = .reading → s.Watched

namespace TrailingEdge

variable {s s' : StatusState}

theorem start : TrailingEdge .start where
  idle _ _ := rfl
  pass h := absurd rfl h
  edge _ _ := .inl rfl

theorem detects_of_pass (h : TrailingEdge s) {caller : Caller}
    (hpass : s.passes caller ≠ .idle) : s.detects caller = true := by
  by_contra hd
  exact hpass (h.idle caller (Bool.eq_false_iff.mpr hd))

theorem reader_idle (h : TrailingEdge s) (hfrom : s.reader ≠ .detecting) :
    s.passes .reader = .idle := by
  apply h.idle
  simpa [StatusState.detects] using hfrom

theorem readerMoves (h : TrailingEdge s) (hfrom : s.reader ≠ .detecting)
    (hpasses : s'.passes = s.passes) (hsweeper : s'.sweeper = s.sweeper)
    (hprompts : s'.prompts = s.prompts)
    (hedge : s'.exited = false → s'.reader = .reading → s'.Watched) :
    TrailingEdge s' where
  idle caller hd := by
    rw [hpasses]
    cases caller with
    | reader => exact h.reader_idle hfrom
    | sweeper =>
      apply h.idle
      simpa [StatusState.detects, hsweeper] using hd
    | prompt n =>
      apply h.idle
      simpa [StatusState.detects, hprompts] using hd
  pass hpass := by
    rw [hpasses] at hpass
    exact absurd (h.reader_idle hfrom) hpass
  edge := hedge

theorem sweeperMoves (h : TrailingEdge s) (hfrom : s.sweeper ≠ .detecting)
    (hpasses : s'.passes = s.passes) (hreader : s'.reader = s.reader)
    (hprompts : s'.prompts = s.prompts) (hexited : s'.exited = s.exited)
    (hlooked : s'.lookedAt = s.lookedAt) (hextensions : s'.extensions = s.extensions)
    (hedge : s.exited = false → s.Watched → s'.Watched) : TrailingEdge s' where
  idle caller hd := by
    rw [hpasses]
    apply h.idle
    cases caller with
    | reader => simpa [StatusState.detects, hreader] using hd
    | sweeper => simpa [StatusState.detects] using hfrom
    | prompt n => simpa [StatusState.detects, hprompts] using hd
  pass hpass := by
    rw [hpasses] at hpass
    rw [hlooked, hextensions]
    exact h.pass hpass
  edge hrunning hreading := by
    rw [hexited] at hrunning
    rw [hreader] at hreading
    exact hedge hrunning (h.edge hrunning hreading)

theorem setPrompt (h : TrailingEdge s) {n : Nat} (hfrom : s.prompts n ≠ .detecting)
    (phase : PromptPhase) : TrailingEdge (s.setPrompt n phase) where
  idle caller hd := by
    apply h.idle
    cases caller with
    | reader => exact hd
    | sweeper => exact hd
    | prompt m =>
      rcases eq_or_ne m n with rfl | hne
      · simpa [StatusState.detects] using hfrom
      · simpa [StatusState.detects, StatusState.setPrompt, hne] using hd
  pass := h.pass
  edge := h.edge

theorem setPass (h : TrailingEdge s) {caller : Caller}
    (hpass : s.passes caller ≠ .idle) (phase : PassPhase) :
    TrailingEdge (s.setPass caller phase) where
  idle other hd := by
    have hne : other ≠ caller := by
      rintro rfl
      have hdetects : s.detects other = true := h.detects_of_pass hpass
      rw [show s.detects other = false from hd] at hdetects
      cases hdetects
    have hidle := h.idle other hd
    simpa [StatusState.setPass, hne] using hidle
  pass hactive := by
    rcases eq_or_ne caller .reader with rfl | hne
    · exact h.pass hpass
    · apply h.pass
      simpa [StatusState.setPass, Ne.symm hne] using hactive
  edge hrunning hreading := by
    refine (h.edge hrunning hreading).imp_right (.imp_right fun hholds => ?_)
    rcases eq_or_ne caller .sweeper with rfl | hne
    · have hdetects := h.detects_of_pass hpass
      simp only [StatusState.detects, decide_eq_true_eq] at hdetects
      simp [StatusState.sweeperHolds, hdetects, hpass] at hholds
    · simpa [StatusState.sweeperHolds, StatusState.setPass, Ne.symm hne] using hholds

theorem startPass (h : TrailingEdge s) {caller : Caller}
    (hdetects : s.detects caller = true) (seq : Nat) :
    TrailingEdge { s.setPass caller (.reserved seq) with
      detectionSeq := seq, lookedAt := s.extensions } where
  idle other hd := by
    have hne : other ≠ caller := by
      rintro rfl
      rw [show s.detects other = false from hd] at hdetects
      cases hdetects
    have hidle := h.idle other hd
    simpa [StatusState.setPass, hne] using hidle
  pass _ := rfl
  edge _ _ := .inl rfl

/-- A pass of the reader saw the last extension; a pass of another thread leaves
the reader where it is. -/
theorem finishPass (h : TrailingEdge s) {caller : Caller}
    (hpass : s.passes caller ≠ .idle) : TrailingEdge (s.finishPass caller) := by
  have hdetects := h.detects_of_pass hpass
  cases caller with
  | reader =>
    constructor
    case idle =>
      intro other hd
      rcases eq_or_ne other .reader with rfl | hne
      · exact Function.update_self Caller.reader PassPhase.idle s.passes
      · have hidle := h.idle other (by
          cases other with
          | reader => exact absurd rfl hne
          | sweeper => exact hd
          | prompt n => exact hd)
        simpa [StatusState.finishPass, StatusState.setPass, hne] using hidle
    case pass =>
      refine fun hactive => absurd ?_ hactive
      exact Function.update_self Caller.reader PassPhase.idle s.passes
    case edge => exact fun _ _ => .inl (h.pass hpass)
  | sweeper =>
    simp only [StatusState.detects, decide_eq_true_eq] at hdetects
    constructor
    case idle =>
      intro other hd
      rcases eq_or_ne other .sweeper with rfl | hne
      · exact Function.update_self Caller.sweeper PassPhase.idle s.passes
      · have hidle := h.idle other (by
          cases other with
          | reader => exact hd
          | sweeper => exact absurd rfl hne
          | prompt n => exact hd)
        simpa [StatusState.finishPass, StatusState.setPass, hne] using hidle
    case pass => exact h.pass
    case edge =>
      intro hrunning hreading
      rcases h.edge hrunning hreading with hlooked | hpending | hholds
      · exact .inl hlooked
      · exact .inr (.inl hpending)
      · simp [StatusState.sweeperHolds, hdetects, hpass] at hholds
  | prompt n =>
    constructor
    case idle =>
      intro other hd
      rcases eq_or_ne other (.prompt n) with rfl | hne
      · exact Function.update_self (Caller.prompt n) PassPhase.idle s.passes
      · have hidle := h.idle other (by
          cases other with
          | reader => exact hd
          | sweeper => exact hd
          | prompt m =>
            have hm : m ≠ n := fun heq => hne (heq ▸ rfl)
            simpa [StatusState.detects, StatusState.finishPass,
              StatusState.setPrompt, StatusState.setPass, hm] using hd)
        simpa [StatusState.finishPass, StatusState.setPass, StatusState.setPrompt,
          hne] using hidle
    case pass => exact h.pass
    case edge => exact h.edge

theorem commitPass (h : TrailingEdge s) {caller : Caller}
    (hpass : s.passes caller ≠ .idle) (current : AgentState) :
    TrailingEdge (s.afterCommit caller current) := by
  -- What is committed plays no part here.
  have hcommitted : TrailingEdge
      { s with lastAgentState := (commitState s.lastAgentState current).1 } :=
    ⟨h.idle, h.pass, h.edge⟩
  unfold StatusState.afterCommit
  split
  · exact hcommitted.setPass hpass _
  · exact hcommitted.finishPass hpass

theorem move (h : TrailingEdge s) {a : StatusAction} (hmove : StatusMove s a s') :
    TrailingEdge s' := by
  cases hmove with
  | extendScrollback hreader | unthrottled hreader | throttled hreader
  | clearPending hreader | swapExited hreader | announce hreader | clearState hreader
  | publishExited hreader =>
    exact h.readerMoves (by simp [hreader]) rfl rfl rfl nofun
  | markPending hreader =>
    exact h.readerMoves (by simp [hreader]) rfl rfl rfl fun _ _ => .inr (.inl rfl)
  | sweeperWakes hsweeper =>
    refine h.sweeperMoves (by simp [hsweeper]) rfl rfl rfl rfl rfl rfl ?_
    intro _ hwatched
    refine hwatched.imp_right (.imp_right fun hholds => ?_)
    simp [StatusState.sweeperHolds, hsweeper] at hholds
  | swapPending hsweeper =>
    refine h.sweeperMoves (by simp [hsweeper]) rfl rfl rfl rfl rfl rfl ?_
    intro _ hwatched
    rcases hwatched with hlooked | hpending | hholds
    · exact .inl hlooked
    · exact .inr (.inr (by simp [StatusState.sweeperHolds, hpending]))
    · simp [StatusState.sweeperHolds, hsweeper] at hholds
  | sweeperChecksExited hsweeper =>
    refine h.sweeperMoves (by simp [hsweeper]) rfl rfl rfl rfl rfl rfl ?_
    intro hrunning _
    exact .inr (.inr (by simp [StatusState.sweeperHolds, hrunning]))
  | sweeperDetects hsweeper =>
    have hidle : s.passes .sweeper = .idle :=
      h.idle .sweeper (by simp [StatusState.detects, hsweeper])
    refine h.sweeperMoves (by simp [hsweeper]) rfl rfl rfl rfl rfl rfl ?_
    exact fun _ _ => .inr (.inr (by simp [StatusState.sweeperHolds, hidle]))
  | sweeperRestores hsweeper =>
    refine h.sweeperMoves (by simp [hsweeper]) rfl rfl rfl rfl rfl rfl ?_
    exact fun _ _ => .inr (.inr rfl)
  | restorePending hsweeper =>
    refine h.sweeperMoves (by simp [hsweeper]) rfl rfl rfl rfl rfl rfl ?_
    exact fun _ _ => .inr (.inl rfl)
  | promptRefused => exact h
  | promptArrives hprompt => exact h.setPrompt (by simp [hprompt]) _
  | promptChecksStatus phase hprompt => exact h.setPrompt (by simp [hprompt]) phase
  | startPass hdetects => exact h.startPass hdetects _
  | commitPass hpass => exact h.commitPass (by simp [hpass]) _
  | @publishPass _ agent status hpass =>
    have hpublished : TrailingEdge (s.publish (.agentStatusChanged agent status)) :=
      ⟨h.idle, h.pass, h.edge⟩
    exact hpublished.finishPass (by simp [StatusState.publish, hpass])

theorem step (h : TrailingEdge s) {a : StatusAction}
    (hstep : statusStep s a = some s') : TrailingEdge s' :=
  h.move (statusStep_cases hstep)

theorem sweeper_idle (h : TrailingEdge s) (hholds : s.sweeperHolds = true) :
    s.passes .sweeper = .idle := by
  cases hs : s.sweeper with
  | detecting => simpa [StatusState.sweeperHolds, hs] using hholds
  | _ => exact h.idle .sweeper (by simp [StatusState.detects, hs])

theorem sweeper_enabled (h : TrailingEdge s) (hholds : s.sweeperHolds = true) :
    ∃ a, a.isSweepers = true ∧ (statusStep s a).isSome = true := by
  have hidle := h.sweeper_idle hholds
  cases hs : s.sweeper with
  | taken => exact ⟨.sweeperChecksExited, rfl, by simp [statusStep, hs]⟩
  | deciding =>
    refine ⟨.sweeperThrottle 0, rfl, ?_⟩
    simp only [statusStep, hs, if_true]
    split <;> rfl
  | restoring => exact ⟨.restorePending, rfl, by simp [statusStep, hs]⟩
  | detecting =>
    refine ⟨.startPass .sweeper, rfl, ?_⟩
    simp [statusStep, StatusState.detects, hs, hidle]
  | _ => simp [StatusState.sweeperHolds, hs] at hholds

/-- Each step of a sweeper that holds the mark runs the pass, puts the mark back
or brings it closer to either. -/
theorem sweeper_closer (h : TrailingEdge s) (hrunning : s.exited = false)
    (hholds : s.sweeperHolds = true) {a : StatusAction} (ha : a.isSweepers = true)
    (hstep : statusStep s a = some s') :
    s'.lookedAt = s'.extensions ∨ s'.pendingStatusCheck = true ∨
      (s'.sweeperHolds = true ∧ s'.sweeperDistance < s.sweeperDistance) := by
  have hidle := h.sweeper_idle hholds
  cases statusStep_cases hstep with
  | sweeperWakes hs | swapPending hs => simp [StatusState.sweeperHolds, hs] at hholds
  | sweeperChecksExited hs =>
    right
    right
    simp [StatusState.sweeperHolds, StatusState.sweeperDistance, hs, hrunning]
  | sweeperDetects hs =>
    right
    right
    simp [StatusState.sweeperHolds, StatusState.sweeperDistance, hs, hidle]
  | sweeperRestores hs =>
    right
    right
    simp [StatusState.sweeperHolds, StatusState.sweeperDistance, hs]
  | restorePending => exact .inr (.inl rfl)
  | startPass => exact .inl rfl
  | @commitPass caller _ _ _ hpass | @publishPass caller _ _ hpass =>
    obtain rfl : caller = .sweeper := by simpa [StatusAction.isSweepers] using ha
    rw [hidle] at hpass
    cases hpass
  | _ => cases ha

end TrailingEdge

/-- In every state in which `append_output` has returned and the terminal has
not exited, a pass has started since the last extension, or the mark is set, or
the sweeper holds it. A sweeper that holds the mark has a step to take, and its
steps bring it to run the pass or to put the mark back. -/
theorem throttle_keepsTrailingEdge {s : StatusState}
    (h : statusDetection.Reachable s) (hrunning : s.exited = false) :
    (s.reader = .reading → s.Watched) ∧
    (s.sweeperHolds = true →
      (∃ a, a.isSweepers = true ∧ (statusStep s a).isSome = true) ∧
      ∀ a s', a.isSweepers = true → statusStep s a = some s' →
        s'.lookedAt = s'.extensions ∨ s'.pendingStatusCheck = true ∨
          (s'.sweeperHolds = true ∧ s'.sweeperDistance < s.sweeperDistance)) := by
  have hinv : TrailingEdge s := by
    refine h.invariant ?_ ?_
    · rintro _ rfl
      exact .start
    · exact fun _ _ _ _ hinv _ hstep => hinv.step hstep
  refine ⟨hinv.edge hrunning, fun hholds => ⟨hinv.sweeper_enabled hholds, ?_⟩⟩
  intro a s' ha hstep
  exact hinv.sweeper_closer hrunning hholds ha hstep

/-- A burst whose end falls into the throttle window: the sweeper comes too early
once, and puts the mark back. -/
def burst : List StatusAction :=
  [.extendScrollback, .readerThrottle 0, .clearPending, .startPass .reader,
    .commitPass .reader none id, .extendScrollback, .readerThrottle 1, .markPending,
    .sweeperWakes, .swapPending, .sweeperChecksExited, .sweeperThrottle 2]

theorem burst_watched :
    ∃ s, statusDetection.run .start burst = some s ∧ s.sweeper = .restoring ∧
      s.Watched := by
  have hrun : (statusDetection.run .start burst).isSome := by decide +kernel
  refine ⟨_, (Option.some_get hrun).symm, by decide +kernel +revert, ?_⟩
  exact (throttle_keepsTrailingEdge (System.reachable_get rfl hrun)
    (by decide +kernel +revert)).1 (by decide +kernel +revert)

end HerdrWebui.Agent
