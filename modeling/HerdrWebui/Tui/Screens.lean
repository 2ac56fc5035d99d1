import HerdrWebui.Tui.Overlays

/-!
Where keys lead: the screen in front, the lens over it and the replace prompt.

A screen is left by the shortcuts for screens, by the search palette and by the panels, the lens is
opened by its shortcut, and the replace prompt by the editor. Everything else leaves them alone.
-/

namespace HerdrWebui.Tui

namespace PaneBuffers

@[simp] theorem syncHistorySuffix_lens (b : PaneBuffers) :
    b.syncHistorySuffix.lens.active = b.lens.active := by
  simp only [syncHistorySuffix, LensState.observeLen]
  split <;> rfl

@[simp] theorem setTailFromText_lens (text : String) (b : PaneBuffers) :
    (b.setTailFromText text).lens.active = b.lens.active := by
  simp [setTailFromText]

@[simp] theorem setTailFromStyledLines_lens (styled : List (List Terminal.TuiTextSpan))
    (b : PaneBuffers) : (b.setTailFromStyledLines styled).lens.active = b.lens.active := by
  simp [setTailFromStyledLines]

@[simp] theorem switchedTo_lens (paneId : String) (b : PaneBuffers) :
    (b.switchedTo paneId).lens = b.lens := by
  unfold switchedTo
  split <;> rfl

@[simp] theorem deepen_lens (text : TerminalText) (read : Option Json) (b : PaneBuffers) :
    (b.deepen text read).1.lens = b.lens := by
  unfold deepen
  split <;> rfl

theorem scrollPaneUp_lens (text : TerminalText) (hasPane : Bool) (reads : List (Option Json))
    (delta : Nat) (b : PaneBuffers) :
    (b.scrollPaneUp text hasPane reads delta).lens = b.lens := by
  induction reads generalizing delta b with
  | nil =>
    rw [scrollPaneUp.eq_def]
    dsimp only
    split
    · rfl
    · split <;> rfl
  | cons read reads ih =>
    rw [scrollPaneUp.eq_def]
    dsimp only
    split
    · rfl
    · split
      · rfl
      · split
        · exact deepen_lens _ _ _
        · exact (ih _ _).trans (deepen_lens _ _ _)

theorem scrollLensUp_lens (text : TerminalText) (hasPane : Bool) (reads : List (Option Json))
    (delta : Nat) (b : PaneBuffers) :
    (b.scrollLensUp text hasPane reads delta).lens.active = b.lens.active := by
  induction reads generalizing delta b with
  | nil =>
    rw [scrollLensUp.eq_def]
    dsimp only
    split
    · rfl
    · split <;> rfl
  | cons read reads ih =>
    rw [scrollLensUp.eq_def]
    dsimp only
    split
    · rfl
    · split
      · rfl
      · have hdeepen (top : PaneBuffers) :
            (top.deepen text read).1.lens.active = top.lens.active :=
          congrArg LensState.active (deepen_lens text read top)
        split
        · exact hdeepen _
        · exact (ih _ _).trans (hdeepen _)

theorem refreshTail_lens {text : TerminalText} {read : Option Json} {s : Selection}
    {b : PaneBuffers} (h : (b.refreshTail text read s).lens.active = true) :
    b.lens.active = true := by
  have hgated : (if b.lens.active && !s.lensSupported then { b with lens := b.lens.close }
      else b : PaneBuffers).lens.active = true → b.lens.active = true := by
    split
    · simp [LensState.close]
    · exact id
  apply hgated
  unfold refreshTail at h
  cases hpane : s.paneId with
  | none => simpa [hpane, cleared] using h
  | some paneId =>
    cases read with
    | none => simpa [hpane] using h
    | some value => simpa [hpane, LensState.observeLen] using h

end PaneBuffers

namespace TuiView

/-- A screen is in front afterwards. The lens and the replace prompt are not opened. -/
structure GoesTo (screen : TuiScreen) (view view' : TuiView) : Prop where
  screen : view'.screen = screen
  lens : view'.buffers.lens.active = true → view.buffers.lens.active = true
  replace : view'.PromptOpen .replaceInFile → view.PromptOpen .replaceInFile

def Stays (view view' : TuiView) : Prop := view.GoesTo view.screen view'

variable {screen screen' : TuiScreen} {u v view view' : TuiView}

theorem GoesTo.trans (h : GoesTo screen u v) (h' : GoesTo screen' v view) :
    GoesTo screen' u view :=
  ⟨h'.screen, h.lens ∘ h'.lens, h.replace ∘ h'.replace⟩

theorem GoesTo.stays (h : GoesTo screen u v) (h' : v.Stays view) : GoesTo screen u view :=
  h.screen ▸ h.trans h'

theorem Stays.refl (view : TuiView) : view.Stays view := ⟨rfl, id, id⟩

theorem Stays.trans (h : u.Stays v) (h' : v.Stays view) : u.Stays view := GoesTo.stays h h'

theorem Stays.after (h' : v.Stays view) (h : u.Stays v) : u.Stays view := h.trans h'

theorem goesTo_onScreen (screen : TuiScreen) (view : TuiView) :
    view.GoesTo screen (view.onScreen screen) := ⟨rfl, id, id⟩

theorem stays_withPrompt {prompt : PromptInput} (h : prompt.kind ≠ .replaceInFile)
    (view : TuiView) : view.Stays (view.withPrompt prompt) := by
  refine ⟨rfl, id, fun hopen => ?_⟩
  simp [PromptOpen, withPrompt, h] at hopen

theorem stays_withoutPrompt (view : TuiView) : view.Stays view.withoutPrompt := by
  refine ⟨rfl, id, fun hopen => ?_⟩
  simp [PromptOpen, withoutPrompt] at hopen

theorem stays_retargetView (name backend : String) (view : TuiView) :
    view.Stays (TuiApp.retargetView name backend view) := by
  refine ⟨rfl, fun hlens => ?_, id⟩
  simp [TuiApp.retargetView, LensState.close] at hlens

theorem stays_handleCommitKey (key : KeyEvent) (view : TuiView) :
    view.Stays (view.handleCommitKey key) := by
  unfold handleCommitKey
  split
  · exact .refl view
  · split <;> exact ⟨rfl, id, id⟩

theorem stays_scrollLensUp (w : KeyWorld) (delta : Nat) (view : TuiView) :
    view.Stays (view.scrollLensUp w delta) := by
  refine ⟨rfl, fun hlens => ?_, id⟩
  simpa [scrollLensUp, PaneBuffers.scrollLensUp_lens] using hlens

theorem stays_scrollLensDown (delta : Nat) (view : TuiView) :
    view.Stays (view.withLens (LensState.scrollDown delta)) := by
  refine ⟨rfl, fun hlens => ?_, id⟩
  simp only [withLens, LensState.scrollDown] at hlens
  split at hlens <;> exact hlens

theorem stays_handleLensKey (w : KeyWorld) (key : KeyEvent) (view : TuiView) :
    view.Stays (view.handleLensKey w key) := by
  unfold handleLensKey
  split
  · refine ⟨rfl, fun hlens => ?_, id⟩
    simp [withLens, LensState.close] at hlens
  repeat' split
  all_goals first
    | exact stays_scrollLensUp w _ view
    | exact stays_scrollLensDown _ view
    | exact .refl view

theorem stays_handleHelpKey (key : KeyEvent) (view : TuiView) :
    view.Stays (view.handleHelpKey key) := by
  unfold handleHelpKey
  repeat' split
  all_goals exact ⟨rfl, id, id⟩

theorem stays_handleConfirmQuitKey (key : KeyEvent) (view : TuiView) :
    view.Stays (view.handleConfirmQuitKey key) := by
  unfold handleConfirmQuitKey
  split <;> exact ⟨rfl, id, id⟩

theorem stays_handleSettingsKey (key : KeyEvent) (view : TuiView) :
    view.Stays (view.handleSettingsKey key) := by
  unfold handleSettingsKey
  split <;> exact ⟨rfl, id, id⟩

theorem stays_navigationView (key : KeyEvent) (view : TuiView) :
    view.Stays (TuiApp.navigationView key view) := by
  unfold TuiApp.navigationView
  repeat' split
  all_goals exact ⟨rfl, id, id⟩

theorem stays_scrollPaneUp (w : KeyWorld) (delta : Nat) (view : TuiView) :
    view.Stays (view.scrollPaneUp w delta) := by
  refine ⟨rfl, fun hlens => ?_, id⟩
  simpa [scrollPaneUp, PaneBuffers.scrollPaneUp_lens] using hlens

theorem stays_scrollPaneDown (delta : Nat) (view : TuiView) :
    view.Stays (view.scrollPaneDown delta) := ⟨rfl, id, id⟩

theorem stays_scrollKey (w : KeyWorld) (key : KeyEvent) (view : TuiView) :
    view.Stays (TuiApp.scrollKey w key view) := by
  unfold TuiApp.scrollKey
  repeat' split
  all_goals first
    | exact stays_scrollPaneUp w _ view
    | exact stays_scrollPaneDown _ view
    | exact .refl view

theorem stays_ensureOverlay (overlay : TuiMode) (view : TuiView) :
    view.Stays (view.ensureOverlay overlay) := by
  unfold ensureOverlay
  split <;> exact ⟨rfl, id, id⟩

end TuiView

namespace TuiApp

open TuiView

theorem stays_refreshTail (text : TerminalText) (read : Option Json) (app : TuiApp) :
    app.Stays (app.refreshTail text read).toTuiView :=
  ⟨rfl, PaneBuffers.refreshTail_lens, id⟩

theorem stays_ingestTerminalOutput (text : TerminalText) (output : TerminalOutput) (app : TuiApp) :
    app.Stays (app.ingestTerminalOutput text output).toTuiView := by
  refine ⟨rfl, fun hlens => ?_, id⟩
  simpa [ingestTerminalOutput] using hlens

theorem stays_withBoard (board : StampBoard) (app : TuiApp) :
    app.Stays (app.withBoard board).toTuiView := ⟨rfl, id, id⟩

theorem stays_applyRefresh (w : World) (snapshot : Json) (app : TuiApp) :
    app.Stays (app.applyRefresh w snapshot).toTuiView := by
  refine Stays.trans (v := (app.applyRows w snapshot).toTuiView) ?_ (stays_withBoard _ _)
  unfold applyRows
  dsimp only
  split
  · exact ⟨rfl, id, id⟩
  · exact ⟨rfl, PaneBuffers.refreshTail_lens, id⟩

theorem stays_refresh {w : World} {app app' : TuiApp} (h : app.refresh w = some app') :
    app.Stays app'.toTuiView := by
  obtain ⟨snapshot, -, rfl⟩ := Option.map_eq_some_iff.mp h
  exact stays_applyRefresh w snapshot app

theorem stays_tryRefresh (w : World) (app : TuiApp) :
    app.Stays (app.tryRefresh w).toTuiView := by
  unfold tryRefresh
  cases h : app.refresh w with
  | none => exact .refl _
  | some app' => exact stays_refresh h

theorem stays_pollRefresh (w : World) (app : TuiApp) :
    app.Stays (app.pollRefresh w).toTuiView := by
  refine Stays.trans (v := (app.pollStampFetches w).toTuiView) (stays_withBoard _ _) ?_
  unfold pollRefresh
  dsimp only
  split
  · exact .refl _
  · exact .refl _
  · exact ⟨rfl, id, id⟩
  · exact ⟨rfl, id, id⟩
  · exact (stays_applyRefresh w _ _).after ⟨rfl, id, id⟩

theorem stays_refreshIfDue (w : World) (app : TuiApp) :
    app.Stays (app.refreshIfDue w).toTuiView := by
  refine Stays.trans (stays_pollRefresh w app) ?_
  unfold refreshIfDue
  dsimp only
  split
  · split <;> exact ⟨rfl, id, id⟩
  · split
    · exact ⟨rfl, PaneBuffers.refreshTail_lens, id⟩
    · exact .refl _

theorem stays_step (app : TuiApp) {a : TuiAction} (h : ∀ w key, a ≠ .key w key) :
    app.Stays (app.step a).1.toTuiView := by
  cases a with
  | key w key => exact absurd rfl (h w key)
  | tick w => exact stays_refreshIfDue w app
  | output text output => exact stays_ingestTerminalOutput text output app
  | elapse _ | refreshReplied _ | refreshDied | stampReplied _ _ | stampDied _ =>
    exact ⟨rfl, id, id⟩

theorem stays_moveSelection (w : World) (delta : Int) (app : TuiApp) :
    app.Stays (app.moveSelection w delta).toTuiView :=
  ⟨rfl, PaneBuffers.refreshTail_lens, id⟩

theorem stays_movePanel (w : World) (delta : Int) (app : TuiApp) :
    app.Stays (app.movePanel w delta).toTuiView := by
  unfold movePanel
  split
  · exact .refl _
  · exact ⟨rfl, PaneBuffers.refreshTail_lens, id⟩

theorem stays_focusWorkspaceById (w : World) (id' : String) (app : TuiApp) :
    app.Stays (app.focusWorkspaceById w id').toTuiView := by
  unfold focusWorkspaceById
  split
  · exact .refl _
  · exact ⟨rfl, PaneBuffers.refreshTail_lens, id⟩

theorem stays_selectSearchTarget (w : World) (i : Nat) (workspaceId tabId paneId : Option String)
    (app : TuiApp) :
    app.Stays (app.selectSearchTarget w i workspaceId tabId paneId).toTuiView := by
  unfold selectSearchTarget
  dsimp only
  split
  · exact ⟨rfl, PaneBuffers.refreshTail_lens, id⟩
  · exact ⟨rfl, id, id⟩

theorem stays_requestThenRefresh (w : World) (app : TuiApp) :
    app.Stays (app.requestThenRefresh w).toTuiView := by
  unfold requestThenRefresh
  split
  · exact stays_tryRefresh w app
  · exact .refl _

theorem stays_closeSelectedTab (w : World) (app : TuiApp) :
    app.Stays (app.closeSelectedTab w).toTuiView := by
  unfold closeSelectedTab
  split
  · exact (stays_tryRefresh w app).trans ⟨rfl, id, id⟩
  · exact .refl _

theorem stays_refreshActiveScreen (w : World) (app : TuiApp) :
    app.Stays (app.refreshActiveScreen w).toTuiView := by
  unfold refreshActiveScreen
  split
  · exact stays_tryRefresh w app
  · exact .refl _

theorem stays_loadSelectedTerminalHistory (w : World) (app : TuiApp) :
    app.Stays (app.loadSelectedTerminalHistory w).toTuiView := by
  unfold loadSelectedTerminalHistory
  split
  · exact .refl _
  · exact stays_ingestTerminalOutput _ _ _

theorem stays_attachSelected (w : World) (app : TuiApp) :
    app.Stays (app.attachSelected w).1.toTuiView := by
  unfold attachSelected
  split
  · exact .refl _
  · apply (stays_loadSelectedTerminalHistory w _).after
    exact (stays_refreshTail w.text (w.read 0) _).after ⟨rfl, id, id⟩

theorem stays_handleAttachKey (w : World) (key : KeyEvent) (app : TuiApp) :
    app.Stays (app.handleAttachKey w key).1.toTuiView := by
  unfold handleAttachKey
  split
  · exact ⟨rfl, id, id⟩
  · split
    · exact ⟨rfl, id, id⟩
    · split
      · exact .refl _
      · split
        · exact stays_refreshTail _ _ _
        · exact .refl _

theorem stays_retargetSession (w : World) (name backend : String) (app : TuiApp) :
    app.Stays (app.retargetSession w name backend).toTuiView := by
  unfold retargetSession
  split
  · exact .refl _
  · exact (stays_retargetView name backend app.toTuiView).trans
      (stays_tryRefresh w (app.onView (retargetView name backend)))

theorem stays_handleNavigationKey (w : KeyWorld) (key : KeyEvent) {app : TuiApp}
    (hscreen : app.screen = .terminal) :
    app.Stays (app.handleNavigationKey w key).1.toTuiView := by
  unfold handleNavigationKey
  rw [if_neg (not_not.mpr hscreen)]
  split
  · exact stays_attachSelected w.toWorld app
  split
  · exact stays_refreshActiveScreen w.toWorld app
  split
  · exact (stays_navigationView key app.toTuiView).trans (stays_scrollKey w key _)
  split
  · exact stays_moveSelection w.toWorld 1 app
  split
  · exact stays_moveSelection w.toWorld (-1) app
  split
  · exact stays_scrollPaneUp w 10 app.toTuiView
  split
  · exact stays_scrollPaneDown 10 app.toTuiView
  · exact stays_navigationView key app.toTuiView

theorem stays_submitComposerMessage (w : World) (text : String) (app : TuiApp) :
    app.Stays (app.submitComposerMessage w text).1.toTuiView := by
  unfold submitComposerMessage
  split
  · exact .refl _
  · dsimp only
    split
    · exact .refl _
    · dsimp only
      split
      · exact ⟨rfl, PaneBuffers.refreshTail_lens, id⟩
      · exact .refl _

theorem stays_closeWorkspace (w : World) (app : TuiApp) :
    app.Stays (app.closeWorkspace w).1.toTuiView := by
  unfold closeWorkspace
  split
  · exact .refl _
  · dsimp only
    split
    · cases h : app.refresh w with
      | none => exact .refl _
      | some app' => exact (stays_refresh h).trans ⟨rfl, id, id⟩
    · exact .refl _

theorem stays_invalidateStamps (repos : List String) (app : TuiApp) :
    app.Stays (repos.foldl (fun app repo => app.invalidateStamp repo) app).toTuiView := by
  induction repos generalizing app with
  | nil => exact .refl _
  | cons repo repos ih => exact (ih (app.invalidateStamp repo)).after ⟨rfl, id, id⟩

theorem stays_otherPromptAction (w : KeyWorld) (app : TuiApp) :
    app.Stays (app.otherPromptAction w).toTuiView := by
  unfold otherPromptAction
  cases w.prompt with
  | nothing => exact .refl _
  | reopened kind =>
    apply stays_withPrompt
    intro hkind
    have hchained := kind.2
    rw [show kind.1 = .replaceInFile from hkind] at hchained
    exact absurd hchained (by decide)
  | refreshed => exact stays_tryRefresh w.toWorld app
  | created id' =>
    dsimp only
    cases h : app.refresh w.toWorld with
    | none => exact .refl _
    | some app' => exact (stays_refresh h).trans (stays_focusWorkspaceById w.toWorld id' app')
  | invalidated repos => exact stays_invalidateStamps repos app
  | session name => exact stays_retargetSession w.toWorld name "builtin" app

theorem stays_runPromptAction (w : KeyWorld) (kind : PromptKind) (text : String) (app : TuiApp) :
    app.Stays (app.runPromptAction w kind text).1.toTuiView := by
  unfold runPromptAction
  split
  · exact stays_submitComposerMessage w.toWorld text app
  · exact stays_closeWorkspace w.toWorld app
  · exact stays_otherPromptAction w app

theorem stays_syncComposerDraft (app : TuiApp) : app.Stays app.syncComposerDraft.toTuiView := by
  unfold syncComposerDraft
  split
  · split <;> exact ⟨rfl, id, id⟩
  · exact .refl _

theorem stays_handlePromptKey (w : KeyWorld) (key : KeyEvent) (app : TuiApp) :
    app.Stays (app.handlePromptKey w key).1.toTuiView := by
  unfold handlePromptKey
  cases hprompt : app.promptInput with
  | none => exact .refl _
  | some prompt =>
    have hwithout := stays_withoutPrompt app.toTuiView
    dsimp only
    split
    · exact hwithout
    split
    · split
      · exact hwithout
      · exact hwithout.trans (stays_runPromptAction w _ _ (app.onView withoutPrompt))
    split
    · exact .refl _
    · refine (stays_syncComposerDraft _).after ⟨rfl, id, fun hopen => ?_⟩
      simpa [PromptOpen, onView, withPrompt, hprompt] using hopen

theorem stays_openCheckout (w : World) (path : String) (isOpened : TuiWorkspace → Bool)
    (app : TuiApp) : app.Stays (app.openCheckout w path isOpened).toTuiView := by
  unfold openCheckout
  dsimp only
  cases h : app.refresh w with
  | none => exact .refl _
  | some app' =>
    dsimp only
    split
    · exact (stays_refresh h).trans ⟨rfl, id, id⟩
    · next workspace _ =>
        have hfocus := stays_focusWorkspaceById w workspace.id app'
        exact ((stays_refresh h).trans hfocus).trans ⟨rfl, id, id⟩

theorem stays_handleWorktreeListKey (w : KeyWorld) (app : TuiApp) :
    app.Stays (app.handleWorktreeListKey w).toTuiView := by
  unfold handleWorktreeListKey
  split
  · exact .refl _
  · exact ⟨rfl, id, id⟩
  · exact stays_withPrompt (by simp [PromptInput.new]) _
  · exact (stays_withPrompt (by simp [PromptInput.new]) _).after ⟨rfl, id, id⟩
  · exact stays_openCheckout w.toWorld _ _ app

theorem stays_handleBranchPickerKey (w : KeyWorld) (app : TuiApp) :
    app.Stays (app.handleBranchPickerKey w).toTuiView := by
  unfold handleBranchPickerKey
  split
  · exact .refl _
  · exact ⟨rfl, id, id⟩
  · next root _ =>
      have hread : app.Stays ((app.invalidateStamp root).tryRefresh w.toWorld).toTuiView :=
        (stays_tryRefresh w.toWorld _).after ⟨rfl, id, id⟩
      exact hread.trans ⟨rfl, id, id⟩
  · exact stays_openCheckout w.toWorld _ _ app

theorem goesTo_handleSearchPaletteKey (w : KeyWorld) (app : TuiApp) :
    app.GoesTo (match w.palette with | .file => .files | _ => app.screen)
      (app.handleSearchPaletteKey w).toTuiView := by
  have hclosed : app.Stays (app.onView closeOverlay).toTuiView := ⟨rfl, id, id⟩
  unfold handleSearchPaletteKey
  cases w.palette with
  | nothing => exact Stays.refl _
  | closed => exact hclosed
  | workspace id' =>
    have hselect := stays_selectSearchTarget w.toWorld 0 (some id') none none
      (app.onView closeOverlay)
    exact hclosed.trans hselect
  | panel id' workspaceId =>
    have hselect := stays_selectSearchTarget w.toWorld 0 (some workspaceId) (some id') none
      (app.onView closeOverlay)
    exact hclosed.trans hselect
  | agent paneId =>
    have hselect := stays_selectSearchTarget w.toWorld 0 none none (some paneId)
      (app.onView closeOverlay)
    exact hclosed.trans hselect
  | file => exact ⟨rfl, id, id⟩
  | recent workspaceId tabId paneId =>
    dsimp only
    cases h : (app.onView closeOverlay).refresh w.toWorld with
    | none => exact hclosed
    | some app' =>
      have hselect := stays_selectSearchTarget w.toWorld 1 (some workspaceId) tabId paneId app'
      exact (hclosed.trans (stays_refresh h)).trans hselect

theorem stays_handleSessionManagerKey (w : KeyWorld) (app : TuiApp) :
    app.Stays (app.handleSessionManagerKey w).toTuiView := by
  unfold handleSessionManagerKey
  split
  · exact .refl _
  · exact ⟨rfl, id, id⟩
  · exact stays_withPrompt (by simp [PromptInput.new]) _
  · exact stays_retargetSession w.toWorld _ _ app

def shortcutScreen (w : KeyWorld) (app : TuiApp) : Shortcut → TuiScreen
  | .files => .files
  | .terminal => .terminal
  | .editFile => if app.screen = .files then .files else if w.proceeds then .files else .git
  | .gitDiscardFile | .gitStageAll => if w.proceeds then .git else app.screen
  | .git | .gitChanges | .gitLog | .gitStash | .gitBranch | .gitStageFile | .gitUnstageFile
  | .gitStashFile | .gitPush | .gitFileHistory | .gitChangesBack | .gitBlame | .gitCommit
  | .gitCwdPicker | .gitFocusFile => .git
  | _ => app.screen

theorem goesTo_runShortcut (w : KeyWorld) {app : TuiApp} {shortcut : Shortcut}
    (hlens : shortcut ≠ .lens) :
    app.GoesTo (app.shortcutScreen w shortcut) (app.runShortcut w shortcut).1.toTuiView := by
  cases shortcut with
  | lens => exact absurd rfl hlens
  | search | sessionManager => exact stays_ensureOverlay _ _
  | refresh => exact stays_refreshActiveScreen w.toWorld app
  | nextWorkspace | prevWorkspace => exact stays_moveSelection w.toWorld _ app
  | nextAgent | prevAgent =>
    exact (stays_moveSelection w.toWorld _ { app with sidebarFocus := .agents }).after
      ⟨rfl, id, id⟩
  | newTab =>
    simp only [runShortcut]
    split
    · exact stays_requestThenRefresh w.toWorld app
    · exact Stays.refl _
  | closeTab => exact stays_closeSelectedTab w.toWorld app
  | nextPanel | prevPanel => exact stays_movePanel w.toWorld _ app
  | newWorkspace | openWorktrees =>
    simp only [runShortcut]
    split
    · exact stays_ensureOverlay _ _
    · exact Stays.refl _
  | createWorktree | closeWorkspace | renameWorkspace =>
    exact stays_withPrompt (by simp [PromptInput.new]) _
  | renamePanel => exact stays_withPrompt (by simp [renamePanelPrompt]) _
  | gitCwdPicker =>
    have hgit := goesTo_onScreen .git app.toTuiView
    exact hgit.stays (stays_withPrompt (by simp [PromptInput.new]) _)
  | removeWorktree =>
    simp only [runShortcut]
    split
    · exact stays_requestThenRefresh w.toWorld app
    · exact Stays.refl _
  | gitSwitchBranch =>
    simp only [runShortcut]
    split
    · exact stays_ensureOverlay _ _
    · exact Stays.refl _
  | composer =>
    simp only [runShortcut, openComposer]
    split
    · exact stays_withPrompt (by simp) _
    · exact Stays.refl _
  | focusNext | focusPrev =>
    simp only [runShortcut, onView, walkFocus]
    split <;> exact ⟨rfl, id, id⟩
  | editFile =>
    simp only [runShortcut, shortcutScreen]
    split
    · next hfiles => exact hfiles ▸ Stays.refl app.toTuiView
    · exact goesTo_onScreen _ _
  | gitDiscardFile | gitStageAll =>
    simp only [runShortcut, shortcutScreen]
    split
    · exact goesTo_onScreen _ _
    · exact Stays.refl _
  | _ => exact ⟨rfl, id, id⟩

theorem runShortcut_lens (w : KeyWorld) (app : TuiApp) :
    (app.runShortcut w .lens).1.screen = app.screen ∧
      ((app.runShortcut w .lens).1.PromptOpen .replaceInFile → app.PromptOpen .replaceInFile) ∧
      ((app.runShortcut w .lens).1.buffers.lens.active = true → app.buffers.lens.active = true ∨
        app.screen = .terminal ∧ app.selection.lensSupported = true) := by
  simp only [runShortcut, onView, toggleLens]
  split
  · next hlens => exact ⟨rfl, id, fun _ => .inr hlens⟩
  · exact ⟨rfl, id, .inl⟩

theorem replace_handlePanelKey {w : KeyWorld} {app : TuiApp}
    (h : (app.handlePanelKey w).PromptOpen .replaceInFile) :
    app.PromptOpen .replaceInFile ∨
      ∃ kind text, w.panel = .prompt kind text ∧ kind.1 = .replaceInFile := by
  unfold handlePanelKey at h
  cases hpanel : w.panel with
  | prompt kind text =>
    rw [hpanel] at h
    exact .inr ⟨kind, text, rfl, Option.some.inj h⟩
  | nothing | commit | help | terminal | git | invalidate _ =>
    rw [hpanel] at h
    exact .inl h

end TuiApp

end HerdrWebui.Tui
