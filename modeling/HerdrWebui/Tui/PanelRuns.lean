import HerdrWebui.Tui.EditorTurns
import HerdrWebui.Tui.Panels
import HerdrWebui.Tui.Screens

/-!
What a key can do to the interface with its panels: it runs a shortcut, it arms the prefix, or it
gets to the handler in front.
-/

namespace HerdrWebui.Tui

namespace TuiApp

def fed (key : KeyEvent) (app : TuiApp) : TuiApp :=
  app.onView fun view =>
    { view with prefixArmedAt := (feedPrefix app.now app.prefixArmedAt key).1 }

theorem handleKey_shortcut {app : TuiApp} {key : KeyEvent} {shortcut : Shortcut}
    (h : (feedPrefix app.now app.prefixArmedAt key).2 = some shortcut) (w : KeyWorld) :
    app.handleKey w key = (app.fed key).runShortcut w shortcut := by
  unfold handleKey
  simp only [h]
  rfl

theorem handleKey_unprefixed {app : TuiApp} {key : KeyEvent}
    (h : (feedPrefix app.now app.prefixArmedAt key).2 = none) (w : KeyWorld) :
    app.handleKey w key =
      if isArmed app.now (feedPrefix app.now app.prefixArmedAt key).1 then (app.fed key, [])
      else (app.fed key).handleUnprefixed w key := by
  unfold handleKey
  simp only [h]
  rfl

end TuiApp

def PanelOutcome.Plain (outcome : PanelOutcome) : Prop :=
  ∀ kind text, outcome = .prompt kind text → kind.1 ≠ .replaceInFile

theorem FilesPanel.treeKey_asks (e : FilesPanel) (key : KeyEvent) (replies : FilesReplies)
    (gitFile : Option String) :
    (e.treeKey key replies gitFile).2 = .nothing ∨
      (e.treeKey key replies gitFile).1 = e ∧ (e.treeKey key replies gitFile).2.Plain := by
  have hname (kind : { kind : PromptKind // kind.ofPanel }) (text : String → String)
      (hkind : kind.1 ≠ .replaceInFile) :
      (e.nameToChange.elim .nothing fun name => .prompt kind (text name) : PanelOutcome).Plain := by
    intro kind' text' houtcome
    cases hname : e.nameToChange with
    | none => simp [hname] at houtcome
    | some name =>
      simp only [hname, Option.elim_some, PanelOutcome.prompt.injEq] at houtcome
      exact houtcome.1 ▸ hkind
  unfold treeKey
  cases treeCommand key with
  | none => exact .inl rfl
  | some command =>
    simp only [Option.elim_some]
    cases command with
    | create | createDirectory => exact .inr ⟨rfl, by simp [PanelOutcome.Plain, runTree]⟩
    | rename => exact .inr ⟨rfl, hname ⟨.renameFile, rfl⟩ id (by simp)⟩
    | delete => exact .inr ⟨rfl, hname ⟨.confirmDeleteFile, rfl⟩ (fun _ => "") (by simp)⟩
    | log =>
      refine .inr ⟨rfl, fun kind text houtcome => ?_⟩
      simp only [runTree] at houtcome
      split at houtcome <;> cases houtcome
    | toggle =>
      simp only [runTree]
      split <;> exact .inl rfl
    | enter =>
      simp only [runTree]
      split
      · exact .inl rfl
      · split <;> exact .inl rfl
    | help | leave => exact .inr ⟨rfl, by simp [PanelOutcome.Plain, runTree]⟩
    | move _ | up | refresh | cycle | reveal | filter | kind | edit => exact .inl rfl

theorem GitPanel.outcome_plain (g : GitPanel) (w : PanelWorld) (key : KeyEvent) :
    (g.outcome w key).Plain := by
  unfold outcome PanelOutcome.Plain
  dsimp only
  intro kind text houtcome
  repeat' split at houtcome
  all_goals cases houtcome
  all_goals simp

namespace PanelApp

def fed (key : KeyEvent) (s : PanelApp) : PanelApp := { s with app := s.app.fed key }

def shortcutWorld (w : PanelWorld) (shortcut : Shortcut) (s : PanelApp) : KeyWorld :=
  { w.toKeyWorld with proceeds := s.proceeds w shortcut }

def runs (w : PanelWorld) (shortcut : Shortcut) (s : PanelApp) : PanelApp :=
  ⟨(s.app.runShortcut (s.shortcutWorld w shortcut) shortcut).1, (s.runShortcut w shortcut).1,
    (s.runShortcut w shortcut).2⟩

/-- What the handlers in front know of the panels and of the prompt that is accepted. -/
def unprefixedWorld (w : PanelWorld) (key : KeyEvent) (panel : PanelOutcome) (s : PanelApp) :
    KeyWorld :=
  { w.toKeyWorld with
    panel
    prompt := (s.acceptedPrompt key).elim w.prompt fun accepted =>
      promptOutcome w accepted.1 accepted.2 }

/-- The part of `handle_key` behind the prefix. -/
def unprefixed (engine : RegexEngine) (w : PanelWorld) (key : FileKey) (s : PanelApp) :
    Option PanelApp :=
  (s.panelKey engine w key).map fun turn =>
    ⟨(s.app.handleUnprefixed (s.unprefixedWorld w key.toKeyEvent turn.2.2) key.toKeyEvent).1,
      turn.1, turn.2.1⟩

variable {engine : RegexEngine} {w : PanelWorld} {key : FileKey} {s s' : PanelApp}

@[simp] theorem files_fed (key : KeyEvent) (s : PanelApp) : (s.fed key).files = s.files := rfl

@[simp] theorem git_fed (key : KeyEvent) (s : PanelApp) : (s.fed key).git = s.git := rfl

@[simp] theorem handler_fed (key : KeyEvent) (s : PanelApp) : (s.fed key).handler = s.handler := rfl

@[simp] theorem acceptedPrompt_fed (key key' : KeyEvent) (s : PanelApp) :
    (s.fed key').acceptedPrompt key = s.acceptedPrompt key := rfl

@[simp] theorem openGitScreen_fed (key : KeyEvent) (s : PanelApp) :
    (s.fed key).openGitScreen w = s.openGitScreen w := rfl

@[simp] theorem runCandidate_fed (key : KeyEvent) (s : PanelApp) :
    (s.fed key).runCandidate w = s.runCandidate w := rfl

@[simp] theorem runPromptAction_fed (key : KeyEvent) (s : PanelApp) (kind : PromptKind)
    (text : String) : (s.fed key).runPromptAction engine w kind text =
      s.runPromptAction engine w kind text := by
  cases kind with
  | createFile | replaceInFile => simp only [runPromptAction, files_fed, git_fed]
  | _ => rfl

theorem panelKey_fed (key' : KeyEvent) :
    (s.fed key').panelKey engine w key = s.panelKey engine w key := by
  simp [panelKey]

theorem handleKey_cases (h : s.handleKey engine w key = some s') :
    (∃ shortcut, s.shortcut key.toKeyEvent = some shortcut ∧
        s' = (s.fed key.toKeyEvent).runs w shortcut) ∨
      s.shortcut key.toKeyEvent = none ∧
        (s.armed key.toKeyEvent = true ∧ s' = s.fed key.toKeyEvent ∨
          s.armed key.toKeyEvent = false ∧
            (s.fed key.toKeyEvent).unprefixed engine w key = some s') := by
  unfold handleKey at h
  cases hshortcut : s.shortcut key.toKeyEvent with
  | some shortcut =>
    simp only [hshortcut, TuiApp.handleKey_shortcut hshortcut] at h
    exact .inl ⟨shortcut, rfl, (Option.some.inj h).symm⟩
  | none =>
    refine .inr ⟨rfl, ?_⟩
    simp only [hshortcut, TuiApp.handleKey_unprefixed hshortcut] at h
    cases harmed : s.armed key.toKeyEvent with
    | true =>
      have hwaits : isArmed s.app.now
          (feedPrefix s.app.now s.app.prefixArmedAt key.toKeyEvent).1 = true := harmed
      simp only [harmed, hwaits, if_true] at h
      exact .inl ⟨rfl, (Option.some.inj h).symm⟩
    | false =>
      have hwaits : isArmed s.app.now
          (feedPrefix s.app.now s.app.prefixArmedAt key.toKeyEvent).1 = false := harmed
      simp only [harmed, hwaits, Bool.false_eq_true, if_false] at h
      refine .inr ⟨rfl, ?_⟩
      unfold unprefixed
      rw [panelKey_fed]
      exact h

/-- No layer and no overlay is in front of a screen. -/
structure InScreen (screen : TuiScreen) (s : PanelApp) : Prop where
  free : ¬s.app.TakenByInput
  base : s.app.mode.isBase = true
  screen : s.app.screen = screen

def Front (s : PanelApp) : KeyHandler → Prop
  | .commitInput => s.app.commitInput.isSome = true
  | .promptInput kind => s.app.commitInput = none ∧ s.app.PromptOpen kind
  | .lens =>
    s.app.commitInput = none ∧ s.app.promptInput = none ∧
      s.app.buffers.lens.active = true ∧ s.app.screen = .terminal
  | .overlay mode => ¬s.app.TakenByInput ∧ s.app.mode = mode ∧ mode.isBase = false
  | .diffSearch => s.InScreen .git
  | .editorFind | .fileEdit => s.InScreen .files ∧ s.files.editActive = true
  | .filterBar | .contentSearch =>
    s.InScreen .files ∧ s.files.editActive = false ∧ s.files.captures = true
  | .screen .files => s.InScreen .files ∧ s.files.captures = false
  | .screen .git => s.InScreen .git ∧ s.git.diffSearchActive = false
  | .screen .terminal => s.InScreen .terminal

theorem front_panelHandler (hfree : ¬s.app.TakenByInput) (hbase : s.app.mode.isBase = true) :
    s.Front s.panelHandler := by
  unfold panelHandler
  cases hscreen : s.app.screen with
  | terminal => exact ⟨hfree, hbase, hscreen⟩
  | git =>
    have hin : s.InScreen .git := ⟨hfree, hbase, hscreen⟩
    cases hsearch : s.git.diffSearchActive with
    | true => exact hin
    | false => exact ⟨hin, hsearch⟩
  | files =>
    have hin : s.InScreen .files := ⟨hfree, hbase, hscreen⟩
    simp only [FilesPanel.handler]
    split
    · next hedit => split <;> exact ⟨hin, hedit⟩
    next hedit =>
    have hedit : s.files.editActive = false := by simpa using hedit
    split
    · next hfilter => exact ⟨hin, hedit, by simp [FilesPanel.captures, hfilter]⟩
    next hfilter =>
    split
    · next hcontent =>
        have hcontent : (s.files.showsContent && s.files.contentSearch.hasResults) = true :=
          hcontent
        exact ⟨hin, hedit, by simp [FilesPanel.captures, hcontent]⟩
    · next hcontent =>
        have hcontent : (s.files.showsContent && s.files.contentSearch.hasResults) = false := by
          simpa using hcontent
        exact ⟨hin, by simp [FilesPanel.captures, hedit, hcontent, hfilter]⟩

theorem front_handler (s : PanelApp) : s.Front s.handler := by
  unfold handler
  split
  · next hcommit => exact hcommit
  next hcommit =>
  have hcommit : s.app.commitInput = none := by simpa using hcommit
  split
  · next prompt hprompt => exact ⟨hcommit, by simp [TuiView.PromptOpen, hprompt]⟩
  next hprompt =>
  split
  · next hlens => exact ⟨hcommit, hprompt, hlens⟩
  next hlens =>
  have hfree : ¬s.app.TakenByInput := by simp [TuiApp.TakenByInput, hcommit, hprompt, hlens]
  cases hmode : s.app.mode with
  | navigate | attach => exact front_panelHandler hfree (by rw [hmode]; rfl)
  | help | confirmQuit | settings | worktreeList | branchPicker | searchPalette | sessionManager =>
    exact ⟨hfree, hmode, rfl⟩


open TuiView

/-- The handlers in front of the screens. The search palette may lead to the Files screen. -/
theorem stays_input (h : s.app.TakenByInput) (w : KeyWorld) (key : KeyEvent) :
    s.app.Stays (s.app.handleUnprefixed w key).1.toTuiView := by
  unfold TuiApp.handleUnprefixed
  split
  · exact stays_handleCommitKey key s.app.toTuiView
  next hcommit =>
  split
  · exact TuiApp.stays_handlePromptKey w key s.app
  next hprompt =>
  rw [if_pos ((h.resolve_left hcommit).resolve_left hprompt)]
  exact stays_handleLensKey w key s.app.toTuiView

theorem stays_overlay {mode : TuiMode} (h : s.Front (.overlay mode)) (hmode : mode ≠ .searchPalette)
    (w : KeyWorld) (key : KeyEvent) :
    s.app.Stays (s.app.handleUnprefixed w key).1.toTuiView := by
  obtain ⟨hfree, hfront, hbase⟩ := h
  rw [TuiApp.handleUnprefixed_of_not_takenByInput hfree, hfront]
  cases mode with
  | navigate | attach => cases hbase
  | searchPalette => exact absurd rfl hmode
  | help => exact stays_handleHelpKey key s.app.toTuiView
  | confirmQuit => exact stays_handleConfirmQuitKey key s.app.toTuiView
  | settings => exact stays_handleSettingsKey key s.app.toTuiView
  | worktreeList => exact TuiApp.stays_handleWorktreeListKey w s.app
  | branchPicker => exact TuiApp.stays_handleBranchPickerKey w s.app
  | sessionManager => exact TuiApp.stays_handleSessionManagerKey w s.app

theorem goesTo_palette (h : s.Front (.overlay .searchPalette)) (w : KeyWorld) (key : KeyEvent) :
    s.app.GoesTo (match w.palette with | .file => .files | _ => s.app.screen)
      (s.app.handleUnprefixed w key).1.toTuiView := by
  rw [TuiApp.handleUnprefixed_of_not_takenByInput h.1, h.2.1]
  exact TuiApp.goesTo_handleSearchPaletteKey w s.app

theorem stays_terminal (h : s.InScreen .terminal) (w : KeyWorld) (key : KeyEvent) :
    s.app.Stays (s.app.handleUnprefixed w key).1.toTuiView := by
  rw [TuiApp.handleUnprefixed_of_not_takenByInput h.free]
  have hbase := h.base
  cases hmode : s.app.mode with
  | navigate => exact TuiApp.stays_handleNavigationKey w key h.screen
  | attach => simpa [h.screen] using TuiApp.stays_handleAttachKey w.toWorld key s.app
  | help | confirmQuit | settings | worktreeList | branchPicker | searchPalette | sessionManager =>
    rw [hmode] at hbase
    cases hbase

theorem handleUnprefixed_panel {screen : TuiScreen} (h : s.InScreen screen)
    (hscreen : screen ≠ .terminal) (w : KeyWorld) (key : KeyEvent) :
    (s.app.handleUnprefixed w key).1 = s.app.handlePanelKey w := by
  have hpanel : s.app.screen ≠ .terminal := by simpa [h.screen] using hscreen
  rw [TuiApp.handleUnprefixed_of_not_takenByInput h.free]
  have hbase := h.base
  cases hmode : s.app.mode with
  | navigate => simp [TuiApp.handleNavigationKey, hpanel]
  | attach => simp [hpanel]
  | help | confirmQuit | settings | worktreeList | branchPicker | searchPalette | sessionManager =>
    rw [hmode] at hbase
    cases hbase

/-- On the screen of a panel no prompt is open, and the panel alone opens one. -/
theorem replace_panel {screen : TuiScreen} (h : s.InScreen screen) (hscreen : screen ≠ .terminal)
    {w : KeyWorld} {key : KeyEvent}
    (hopen : (s.app.handleUnprefixed w key).1.PromptOpen .replaceInFile) :
    ∃ kind text, w.panel = .prompt kind text ∧ kind.1 = .replaceInFile := by
  rw [handleUnprefixed_panel h hscreen] at hopen
  refine (TuiApp.replace_handlePanelKey hopen).resolve_left fun hbefore => ?_
  obtain ⟨prompt, hprompt, -⟩ := Option.map_eq_some_iff.mp hbefore
  exact h.free (.inr (.inl (by rw [hprompt]; rfl)))

theorem promptOpen_accepted {kind : PromptKind} {text : String} {key : KeyEvent}
    (h : s.acceptedPrompt key = some (kind, text)) : s.app.PromptOpen kind := by
  unfold acceptedPrompt at h
  split at h
  · obtain ⟨prompt, hprompt, heq⟩ := Option.map_eq_some_iff.mp (Option.filter_eq_some_iff.mp h).1
    exact Option.map_eq_some_iff.mpr ⟨prompt, hprompt, congrArg Prod.fst heq⟩
  · cases h

end PanelApp

end HerdrWebui.Tui
