import HerdrWebui.Tui.UnsavedEdits

/-!
The footer names the context that has the keyboard (`footer_context`), in a chain of its own beside
the one of `handle_key`. The two agree just while the context that takes the keys is in front.
-/

namespace HerdrWebui.Tui

open Concurrency

inductive FooterContext where
  | commitInput
  | promptInput (kind : PromptKind)
  | diffSearch
  | editorFind
  | fileEdit
  | filterBar
  | contentSearch
  | confirmQuit
  | helpOverlay
  | settingsOverlay
  | worktreeList
  | branchPicker
  | searchPalette
  | sessionManager
  | lens
  | terminalMain
  | terminal (mode : TuiMode)
  | files (mode : TuiMode)
  | git (mode : TuiMode) (view : GitView)
  deriving DecidableEq

/-- The handler whose keys a context shows. -/
def FooterContext.handler : FooterContext → KeyHandler
  | .commitInput => .commitInput
  | .promptInput kind => .promptInput kind
  | .diffSearch => .diffSearch
  | .editorFind => .editorFind
  | .fileEdit => .fileEdit
  | .filterBar => .filterBar
  | .contentSearch => .contentSearch
  | .confirmQuit => .overlay .confirmQuit
  | .helpOverlay => .overlay .help
  | .settingsOverlay => .overlay .settings
  | .worktreeList => .overlay .worktreeList
  | .branchPicker => .overlay .branchPicker
  | .searchPalette => .overlay .searchPalette
  | .sessionManager => .overlay .sessionManager
  | .lens => .lens
  | .terminalMain | .terminal _ => .screen .terminal
  | .files _ => .screen .files
  | .git _ _ => .screen .git

namespace PanelApp

/-- The screens and sub-views of `footer_context`. -/
def screenContext (s : PanelApp) : FooterContext :=
  if s.app.buffers.lens.active ∧ s.app.screen = .terminal then .lens
  else
    match s.app.screen with
    | .terminal =>
      if s.app.mode = .navigate ∧ s.app.mainFocused then .terminalMain else .terminal s.app.mode
    | .files => .files s.app.mode
    | .git => .git s.app.mode s.git.view

/-- The overlays of `footer_context`, and what is behind them. -/
def modeContext (s : PanelApp) : FooterContext :=
  match s.app.mode with
  | .confirmQuit => .confirmQuit
  | .help => .helpOverlay
  | .settings => .settingsOverlay
  | .worktreeList => .worktreeList
  | .branchPicker => .branchPicker
  | .searchPalette => .searchPalette
  | .sessionManager => .sessionManager
  | .navigate | .attach => s.screenContext

def footerContext (s : PanelApp) : FooterContext :=
  if s.app.commitInput.isSome then .commitInput
  else
    match s.app.promptInput with
    | some prompt => .promptInput prompt.kind
    | none =>
      if s.git.diffSearchActive then .diffSearch
      else if s.files.editorFind.active then .editorFind
      else if s.files.editActive then .fileEdit
      else if s.files.filterActive then .filterBar
      else if s.files.showsContent && s.files.contentSearch.hasResults then .contentSearch
      else s.modeContext

/-- The footer shows the keys of the handler in front. -/
def NamesHandler (s : PanelApp) : Prop := s.footerContext.handler = s.handler

/-- A bar or the editor that the footer looks for first is on the screen, with no overlay over it.
Where there is none, no overlay is over the lens. -/
def ShowsFront (s : PanelApp) : Prop :=
  s.app.commitInput.isSome = true ∨ s.app.promptInput.isSome = true ∨
    if s.git.diffSearchActive then s.app.screen = .git ∧ s.app.mode.isBase = true
    else if s.files.captures then s.app.screen = .files ∧ s.app.mode.isBase = true
    else
      s.app.buffers.lens.active = true ∧ s.app.screen = .terminal → s.app.mode.isBase = true

variable {engine : RegexEngine} {s : PanelApp}

theorem handler_of_base (hcommit : s.app.commitInput = none) (hprompt : s.app.promptInput = none)
    (hlens : ¬(s.app.buffers.lens.active = true ∧ s.app.screen = .terminal))
    (hbase : s.app.mode.isBase = true) : s.handler = s.panelHandler := by
  unfold handler
  simp only [hcommit, hprompt, hlens, Option.isSome_none, Bool.false_eq_true, if_false]
  cases hmode : s.app.mode with
  | navigate | attach => rfl
  | help | confirmQuit | settings | worktreeList | branchPicker | searchPalette | sessionManager =>
    rw [hmode] at hbase
    cases hbase

theorem filesContext_handler {e : FilesPanel} (hsound : e.toFileExplorer.Sound)
    (behind : FooterContext) :
    FooterContext.handler
        (if e.editorFind.active then .editorFind
        else if e.editActive then .fileEdit
        else if e.filterActive then .filterBar
        else if e.showsContent && e.contentSearch.hasResults then .contentSearch
        else behind) =
      if e.captures then e.handler else behind.handler := by
  unfold FilesPanel.captures FilesPanel.handler
  cases hfind : e.editorFind.active with
  | true => simp [hsound.find hfind, FooterContext.handler]
  | false =>
    cases hedit : e.editActive with
    | true => simp [FooterContext.handler]
    | false =>
      cases hfilter : e.filterActive with
      | true => simp [FooterContext.handler]
      | false =>
        cases hcontent : e.showsContent && e.contentSearch.hasResults with
        | true => simp [FooterContext.handler]
        | false => simp

/-- The handlers of the bars and of the editor are those of the Files screen in front. -/
theorem front_of_filesHandler (hhandler : s.handler = s.files.handler) :
    s.app.screen = .files ∧ s.app.mode.isBase = true := by
  have hfront := front_handler s
  rw [hhandler] at hfront
  unfold FilesPanel.handler at hfront
  split at hfront
  · split at hfront
    · exact ⟨hfront.1.screen, hfront.1.base⟩
    · exact ⟨hfront.1.screen, hfront.1.base⟩
  split at hfront
  · exact ⟨hfront.1.screen, hfront.1.base⟩
  split at hfront
  · exact ⟨hfront.1.screen, hfront.1.base⟩
  · exact ⟨hfront.1.screen, hfront.1.base⟩

/-- Where no bar and no editor has the keys, the chains differ only in which of the lens and the
overlays they ask first. -/
theorem modeContext_handler_iff (hcommit : s.app.commitInput = none)
    (hprompt : s.app.promptInput = none) (hgit : s.git.diffSearchActive = false)
    (hfiles : s.files.handler = .screen .files) :
    s.modeContext.handler = s.handler ↔
      (s.app.buffers.lens.active = true ∧ s.app.screen = .terminal →
        s.app.mode.isBase = true) := by
  unfold handler
  simp only [hcommit, hprompt, Option.isSome_none, Bool.false_eq_true, if_false]
  by_cases hlens : s.app.buffers.lens.active = true ∧ s.app.screen = .terminal
  · rw [if_pos hlens, forall_prop_of_true hlens]
    cases hmode : s.app.mode <;>
      simp [modeContext, hmode, screenContext, hlens, FooterContext.handler, TuiMode.isBase]
  · rw [if_neg hlens]
    refine iff_of_true ?_ fun h => absurd h hlens
    cases hmode : s.app.mode with
    | navigate | attach =>
      simp only [modeContext, hmode, screenContext, if_neg hlens, panelHandler]
      cases hscreen : s.app.screen with
      | terminal =>
        dsimp only
        split <;> rfl
      | files => exact hfiles.symm
      | git => simp [hgit, FooterContext.handler]
    | help | confirmQuit | settings | worktreeList | branchPicker | searchPalette
    | sessionManager => simp [modeContext, hmode, FooterContext.handler]

theorem namesHandler_iff (hs : s.Sound) : s.NamesHandler ↔ s.ShowsFront := by
  unfold NamesHandler ShowsFront footerContext
  by_cases hcommit : s.app.commitInput.isSome = true
  · simp [handler, hcommit, FooterContext.handler]
  have hcommit : s.app.commitInput = none := by simpa using hcommit
  cases hprompt : s.app.promptInput with
  | some prompt => simp [handler, hcommit, hprompt, FooterContext.handler]
  | none =>
    simp only [hcommit, Option.isSome_none, Bool.false_eq_true, if_false, false_or]
    -- with a panel on the screen and no overlay over it, the panel has the keys
    have htaken {screen : TuiScreen} (hpanel : screen ≠ .terminal)
        (h : s.app.screen = screen ∧ s.app.mode.isBase = true) : s.handler = s.panelHandler :=
      handler_of_base hcommit hprompt (fun hlens => hpanel (h.1.symm.trans hlens.2)) h.2
    cases hgit : s.git.diffSearchActive with
    | true =>
      simp only [if_true]
      constructor
      · intro hnames
        have hfront := front_handler s
        rw [← hnames] at hfront
        exact ⟨hfront.screen, hfront.base⟩
      · intro hfront
        rw [htaken (by simp) hfront]
        simp [panelHandler, hfront.1, hgit, FooterContext.handler]
    | false =>
      simp only [Bool.false_eq_true, if_false, filesContext_handler hs.editor]
      cases hcaptures : s.files.captures with
      | true =>
        simp only [if_true]
        constructor
        · exact fun hnames => front_of_filesHandler hnames.symm
        · intro hfront
          rw [htaken (by simp) hfront]
          simp [panelHandler, hfront.1]
      | false =>
        have hfiles : s.files.handler = .screen .files := by
          simp only [FilesPanel.captures, Bool.or_eq_false_iff] at hcaptures
          simp [FilesPanel.handler, hcaptures]
        simpa using modeContext_handler_iff hcommit hprompt hgit hfiles

end PanelApp

/-- In every state of a run, the footer shows the keys of the handler that gets the next one just
if what it looks for first is in front. -/
theorem panelSystem_namesHandler_iff {engine : RegexEngine} {s : PanelApp}
    (h : (panelSystem engine).Reachable s) : s.NamesHandler ↔ s.ShowsFront :=
  PanelApp.namesHandler_iff (PanelApp.sound_of_reachable h)

def typedFilter : List PanelAction :=
  [typedKey (.char 'b') true, typedKey (.char 'f') false, typedKey (.char '/') false,
    typedKey (.char 'd') false]

theorem typedFilter_runs : ((panelSystem charEngine).run (PanelApp.start 1000 "")
    typedFilter).isSome = true := by
  decide +kernel

/-- The filter of the Files screen has the keys, and the footer says so. -/
theorem panelSystem_namesHandler_iff_filterBar :
    let s := ((panelSystem charEngine).run (PanelApp.start 1000 "") typedFilter).get
      typedFilter_runs
    s.handler = .filterBar ∧ s.NamesHandler := by
  refine ⟨by decide +kernel, (panelSystem_namesHandler_iff
    (System.reachable_get (M := panelSystem charEngine) ⟨1000, "", rfl⟩ typedFilter_runs)).mpr ?_⟩
  unfold PanelApp.ShowsFront
  decide +kernel

end HerdrWebui.Tui
