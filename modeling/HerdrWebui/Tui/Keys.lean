import HerdrWebui.Tui.App

/-!
The keys of the terminal interface (`handle_key`): the prefix and its shortcuts,
the input layers in the order they take a key, and what each of them does to the
modelled state. `deliveries` are what leaves the interface for a pane or a
workspace, with the moments a target is chosen.
-/

namespace HerdrWebui.Tui

inductive KeyCode where
  | char (ch : Char)
  | enter
  | esc
  | backspace
  | tab
  | backTab
  | up
  | down
  | left
  | right
  | pageUp
  | pageDown
  | home
  | «end»
  | delete
  | other
  deriving DecidableEq

structure KeyEvent where
  code : KeyCode
  control : Bool
  shift : Bool
  deriving DecidableEq

inductive Shortcut where
  | help | files | git | terminal | search | refresh
  | nextWorkspace | prevWorkspace | nextAgent | prevAgent
  | newTab | closeTab | quit
  | gitChanges | gitCommit | gitLog | gitStash | gitBranch | gitStageFile | gitUnstageFile
  | gitDiscardFile | gitStashFile | gitPush | gitSwitchBranch
  | editFile | gitFileHistory | gitChangesBack | gitBlame
  | nextPanel | prevPanel | newWorkspace | openWorktrees | createWorktree | closeWorkspace
  | removeWorktree | renamePanel | renameWorkspace | gitCwdPicker | settings | sidebar
  | focusNext | focusPrev | lens | composer | gitStageAll | gitFocusFile | sessionManager
  deriving DecidableEq

/-- The arms of `shortcut_for_key` for characters, in their order. An arm without
a shift takes both. -/
def shortcutTable : List (List Char × Option Bool × Shortcut) :=
  [ (['?'], none, .help), (['/'], none, .search), (['f', 'F'], none, .files),
    (['g'], some false, .git), (['t'], some false, .terminal),
    (['r', 'R'], some false, .refresh), (['R'], some true, .renamePanel),
    (['j'], some false, .nextWorkspace), (['k'], some false, .prevWorkspace),
    (['a'], some false, .nextAgent), (['A'], some true, .prevAgent),
    (['p'], some false, .newTab), (['n', 'N'], some false, .newWorkspace),
    (['x'], some false, .closeTab), (['X'], some true, .closeWorkspace),
    (['q'], some false, .quit), (['1'], some false, .gitChanges),
    (['2'], some false, .gitCommit), (['3'], some false, .gitLog),
    (['4'], some false, .gitStash), (['s'], some false, .settings),
    (['0'], some false, .help), (['B'], some true, .sidebar), (['.'], none, .focusNext),
    ([','], none, .focusPrev), (['C'], some true, .composer), (['L'], some true, .lens),
    (['b'], some false, .gitBranch), (['c'], some false, .gitCommit),
    (['l', 'L'], some false, .gitLog), (['y'], some false, .gitStageFile),
    (['u'], some false, .gitUnstageFile), (['d'], some false, .gitDiscardFile),
    (['z'], some false, .gitStashFile), (['v'], some false, .gitSwitchBranch),
    (['e', 'E'], none, .editFile), (['h', 'H'], some false, .gitFileHistory),
    (['o', 'O'], some false, .gitChangesBack), (['m', 'M'], some false, .gitBlame),
    ([']'], none, .nextPanel), (['['], none, .prevPanel),
    (['w', 'W'], some false, .openWorktrees), (['T'], some true, .createWorktree),
    (['S'], some true, .renameWorkspace), (['G'], some true, .gitStageAll),
    (['i'], some false, .gitFocusFile), (['I'], some true, .gitCwdPicker),
    (['P'], some true, .sessionManager) ]

def shortcutForKey (key : KeyEvent) : Option Shortcut :=
  match key.code with
  | .char ch =>
    let shifted := key.shift || ch.isUpper
    (shortcutTable.find? fun arm => arm.1.contains ch && arm.2.1.all (· == shifted)).map
      (·.2.2)
  | .enter => some .gitCommit
  | .delete | .backspace => some .removeWorktree
  | _ => none

def isPrefixKey (key : KeyEvent) : Bool := key.control && key.code == .char 'b'

def prefixArmWindow : Nat := 5000

/-- `PrefixState::is_armed`. -/
def isArmed (now : Nat) (armedAt : Option Nat) : Bool :=
  armedAt.any fun since => now - since < prefixArmWindow

/-- `PrefixState::feed`, with the prefix as it is afterwards. -/
def feedPrefix (now : Nat) (armedAt : Option Nat) (key : KeyEvent) :
    Option Nat × Option Shortcut :=
  let armed := isArmed now armedAt
  if isPrefixKey key then (if armed then none else some now, none)
  else if !armed ∨ key.code = .esc then (none, none)
  else (none, shortcutForKey key)

def isChar (key : KeyEvent) (chars : List Char) : Bool :=
  match key.code with
  | .char ch => chars.contains ch
  | _ => false

def keyToTerminalBytes (key : KeyEvent) : Option (List UInt8) :=
  match key.code with
  | .char ch =>
    if key.control ∧ ch.toLower.isLower then
      some [UInt8.ofNat (ch.toLower.toNat - 'a'.toNat + 1)]
    else some (utf8 [ch])
  | .enter => some [0x0D]
  | .backspace => some [0x7F]
  | .tab => some [0x09]
  | .esc => some [0x1B]
  | .left => some [0x1B, 0x5B, 0x44]
  | .right => some [0x1B, 0x5B, 0x43]
  | .up => some [0x1B, 0x5B, 0x41]
  | .down => some [0x1B, 0x5B, 0x42]
  | .home => some [0x1B, 0x5B, 0x48]
  | .«end» => some [0x1B, 0x5B, 0x46]
  | .delete => some [0x1B, 0x5B, 0x33, 0x7E]
  | .backTab | .pageUp | .pageDown | .other => none

/-- The prompts that the file and git panels open. -/
def PromptKind.ofPanel : PromptKind → Bool
  | renameFile | confirmDeleteFile | confirmDeleteBranch | confirmDropStash
  | createWorktreeBranch | confirmCleanupDelete | createTag | resetMode | rebaseUpstream
  | createBranch | createFile | createDirectory | replaceInFile => true
  | _ => false

/-- The prompts that an accepted prompt leads on to. -/
def PromptKind.isChained : PromptKind → Bool
  | newWorkspace | newWorkspaceName | createWorktreePath | createWorktreeBase
  | confirmWorktreePullBase | confirmResetHard | confirmRebase => true
  | _ => false

/-- `handle_files_key` and `handle_git_key`. -/
inductive PanelOutcome where
  | nothing
  | prompt (kind : { kind : PromptKind // kind.ofPanel }) (text : String)
  | commit
  | help
  | terminal
  | git
  | invalidate (cwd : String)

/-- `handle_worktree_list_key`. -/
inductive BrowserOutcome where
  | nothing
  | closed
  | prompt
  | staged
  | opened (path : String)

/-- `handle_branch_picker_key`. -/
inductive PickerOutcome where
  | nothing
  | closed
  | switched (root : String)
  | rerouted (path : String)

/-- `handle_search_palette_key`, by the row it navigates to. -/
inductive PaletteOutcome where
  | nothing
  | closed
  | workspace (id : String)
  | panel (id workspaceId : String)
  | agent (paneId : String)
  | file
  | recent (workspaceId : String) (tabId paneId : Option String)

/-- `handle_session_manager_key`. -/
inductive SessionOutcome where
  | nothing
  | closed
  | prompt
  | target (name backend : String)

/-- `run_prompt_action`, of the prompts not modelled in full. -/
inductive PromptOutcome where
  | nothing
  | reopened (kind : { kind : PromptKind // kind.isChained })
  | refreshed
  | created (id : String)
  | invalidated (repos : List String)
  | session (name : String)

/-- The world of a key: `proceeds` says that a panel's own check lets a shortcut
through. -/
structure KeyWorld extends World where
  proceeds : Bool
  panel : PanelOutcome
  browser : BrowserOutcome
  picker : PickerOutcome
  palette : PaletteOutcome
  sessions : SessionOutcome
  prompt : PromptOutcome

inductive Delivery where
  | attached (paneId : String)
  | composerOpened (paneId : Option String)
  | closeAsked (workspaceId : Option String)
  | keys (paneId terminalId : String) (bytes : List UInt8)
  | message (paneId text : String)
  | closed (workspaceId : String)
  deriving DecidableEq

/-- The interface after a key, with what left it. -/
abbrev Handled := TuiApp × List Delivery

namespace TuiView

def openOverlay (overlay : TuiMode) (view : TuiView) : TuiView :=
  { view with overlayStack := view.mode :: view.overlayStack, mode := overlay }

def closeOverlay (view : TuiView) : TuiView :=
  { view with
    mode := view.overlayStack.head?.getD .navigate
    overlayStack := view.overlayStack.tail }

/-- An overlay that stays when it is already open. -/
def ensureOverlay (overlay : TuiMode) (view : TuiView) : TuiView :=
  if view.mode = overlay then view else view.openOverlay overlay

def requestQuit (view : TuiView) : TuiView :=
  { view with quitPrevMode := view.mode, mode := .confirmQuit }

def cancelQuit (view : TuiView) : TuiView := { view with mode := view.quitPrevMode }

def openHelpOverlay (view : TuiView) : TuiView :=
  { view.openOverlay .help with helpFilter := [] }

def closeHelpOverlay (view : TuiView) : TuiView := { view.closeOverlay with helpFilter := [] }

def onScreen (screen : TuiScreen) (view : TuiView) : TuiView := { view with screen }

def withPrompt (prompt : PromptInput) (view : TuiView) : TuiView :=
  { view with promptInput := some prompt }

def withoutPrompt (view : TuiView) : TuiView := { view with promptInput := none }

/-- An overlay switch to `Navigate` that drops the stack. -/
def leaveOverlays (view : TuiView) : TuiView :=
  { view with overlayStack := [], mode := .navigate }

def toggleSidebarFocus (view : TuiView) : TuiView :=
  { view with
    sidebarFocus :=
      match view.sidebarFocus with
      | .workspaces => .agents
      | .agents => .workspaces }

/-- `walk_focus`: workspaces, agents, main screen. -/
def walkFocus (delta : Int) (view : TuiView) : TuiView :=
  let current : Int :=
    if view.mainFocused then 2 else if view.sidebarFocus = .agents then 1 else 0
  match (current + delta) % 3 with
  | 0 => { view with mainFocused := false, sidebarFocus := .workspaces }
  | 1 => { view with mainFocused := false, sidebarFocus := .agents }
  | _ => { view with mainFocused := true }

def scrollPaneUp (w : KeyWorld) (delta : Nat) (view : TuiView) : TuiView :=
  { view with
    buffers :=
      view.buffers.scrollPaneUp w.text view.selection.pane.isSome w.reads delta }

def scrollPaneDown (delta : Nat) (view : TuiView) : TuiView :=
  { view with buffers := view.buffers.scrollPaneDown delta }

def scrollLensUp (w : KeyWorld) (delta : Nat) (view : TuiView) : TuiView :=
  { view with
    buffers :=
      view.buffers.scrollLensUp w.text view.selection.pane.isSome w.reads delta }

def withLens (f : LensState → LensState) (view : TuiView) : TuiView :=
  { view with buffers := { view.buffers with lens := f view.buffers.lens } }

/-- `usize::MAX`. -/
def usizeMax : Nat := 2 ^ 64 - 1

def popChar (text : String) : String := String.ofList text.toList.dropLast

/-- What a key that edits a line of input makes of it. -/
def editedText (key : KeyEvent) (text : String) : Option String :=
  match key.code with
  | .backspace => some (popChar text)
  | .char ch =>
    if key.control ∧ (ch = 'u' ∨ ch = 'U') then some "" else some (text.push ch)
  | _ => none

def handleCommitKey (key : KeyEvent) (view : TuiView) : TuiView :=
  match view.commitInput with
  | none => view
  | some text =>
    if key.code = .enter ∨ key.code = .esc then { view with commitInput := none }
    else { view with commitInput := some ((editedText key text).getD text) }

def handleLensKey (w : KeyWorld) (key : KeyEvent) (view : TuiView) : TuiView :=
  if key.code = .esc ∨ isChar key ['q', 'i'] then view.withLens LensState.close
  else if key.code = .up ∨ isChar key ['k'] then view.scrollLensUp w 1
  else if key.code = .down ∨ isChar key ['j'] then view.withLens (LensState.scrollDown 1)
  else if key.code = .pageDown then view.withLens (LensState.scrollDown 10)
  else if key.code = .pageUp then view.scrollLensUp w 10
  else if key.code = .«end» ∨ isChar key ['G'] then
    view.withLens (LensState.scrollDown usizeMax)
  else if key.code = .home ∨ isChar key ['g'] then
    view.scrollLensUp w view.buffers.scrollback.length
  else view

def isControl (c : Char) : Bool := c.toNat < 0x20 || (0x7F ≤ c.toNat && c.toNat < 0xA0)

/-- The arm of `handle_key` for the help overlay. -/
def handleHelpKey (key : KeyEvent) (view : TuiView) : TuiView :=
  match key.code with
  | .esc =>
    if view.helpFilter = [] then view.closeHelpOverlay else { view with helpFilter := [] }
  | .backspace => { view with helpFilter := view.helpFilter.dropLast }
  | .char ch =>
    if ch = '?' then view.closeHelpOverlay
    else if key.control ∧ (ch = 'u' ∨ ch = 'U') then { view with helpFilter := [] }
    else if (ch = 'j' ∨ ch = 'k') ∧ view.helpFilter = [] then view
    else if isControl ch then view
    else { view with helpFilter := view.helpFilter ++ [ch] }
  | _ => view

/-- The arm of `handle_key` for the quit confirmation. A confirmed quit ends the
loop around it. -/
def handleConfirmQuitKey (key : KeyEvent) (view : TuiView) : TuiView :=
  if key.code = .esc ∨ isChar key ['n', 'q'] then view.cancelQuit else view

/-- The arm of `handle_key` for the settings. -/
def handleSettingsKey (key : KeyEvent) (view : TuiView) : TuiView :=
  if key.code = .esc ∨ isChar key ['q', 's'] then view.closeOverlay else view

end TuiView

namespace TuiApp

def onView (f : TuiView → TuiView) (app : TuiApp) : TuiApp :=
  { app with toTuiView := f app.toTuiView }

/-- A new selection, after which the tail is read. -/
def reselect (w : World) (i : Nat) (selection : Selection) (app : TuiApp) : TuiApp :=
  ({ app with selection } : TuiApp).refreshTail w.text (w.read i)

def moveSelection (w : World) (delta : Int) (app : TuiApp) : TuiApp :=
  app.reselect w 0 (app.selection.moved app.sidebarFocus delta)

def movePanel (w : World) (delta : Int) (app : TuiApp) : TuiApp :=
  match app.selection.panelMoved delta with
  | none => app
  | some selection => app.reselect w 0 selection

def focusWorkspaceById (w : World) (id : String) (app : TuiApp) : TuiApp :=
  match app.selection.focusedById id with
  | none => app
  | some selection => app.reselect w 1 selection

/-- `select_search_target`; `i` counts the tail reads before it. -/
def selectSearchTarget (w : World) (i : Nat) (workspaceId tabId paneId : Option String)
    (app : TuiApp) : TuiApp :=
  let target := app.selection.searchTarget workspaceId tabId paneId app.sidebarFocus
  let app := { app with selection := target.selection, sidebarFocus := target.focus }
  if target.reads then app.refreshTail w.text (w.read i) else app

/-- A request to the backend, and a refresh once it is accepted. -/
def requestThenRefresh (w : World) (app : TuiApp) : TuiApp :=
  if w.accepted then app.tryRefresh w else app

/-- `close_selected_tab`: whether its tab was closed or already gone. -/
def closeSelectedTab (w : World) (app : TuiApp) : TuiApp :=
  if app.selection.activeTabId.isSome ∧ w.accepted then
    (app.tryRefresh w).onView fun view => { view with selection := view.selection.clamped }
  else app

/-- `refresh_active_screen`; the panels refresh themselves. -/
def refreshActiveScreen (w : World) (app : TuiApp) : TuiApp :=
  if app.screen = .terminal then app.tryRefresh w else app

def loadSelectedTerminalHistory (w : World) (app : TuiApp) : TuiApp :=
  match w.output with
  | none => app
  | some output => app.ingestTerminalOutput w.text output

def attachSelected (w : World) (app : TuiApp) : Handled :=
  match app.selection.pane with
  | none => (app, [])
  | some pane =>
    ((({ app with mode := .attach } : TuiApp).refreshTail w.text
        (w.read 0)).loadSelectedTerminalHistory w,
      [.attached pane.id])

def handleAttachKey (w : World) (key : KeyEvent) (app : TuiApp) : Handled :=
  if key.control ∧ key.code = .char 'g' then ({ app with mode := .navigate }, [])
  else
    match app.selection.pane with
    | none => ({ app with mode := .navigate }, [])
    | some pane =>
      match keyToTerminalBytes key with
      | none => (app, [])
      | some bytes =>
        if w.accepted then
          (app.refreshTail w.text (w.read 0), [.keys pane.id pane.terminalId bytes])
        else (app, [])

/-- The view that `retarget_session` leaves before it refreshes. -/
def retargetView (name backend : String) (view : TuiView) : TuiView :=
  { view with
    currentSession := name
    currentBackend := backend
    selection := Selection.empty
    buffers := { view.buffers.cleared with lens := view.buffers.lens.close }
    mode := .navigate
    overlayStack := []
    lastRefresh := none
    refreshInflight := none }

/-- The switch of `retarget_session`; none where its refresh fails. -/
def retarget (w : World) (name backend : String) (app : TuiApp) : Option TuiApp :=
  (app.onView (retargetView name backend)).refresh w

def retargetSession (w : World) (name backend : String) (app : TuiApp) : TuiApp :=
  if name = app.currentSession ∧ backend = app.currentBackend then app
  else (app.retarget w name backend).getD (app.onView (retargetView name backend))

def composerOpen (view : TuiView) : Bool :=
  view.promptInput.any (·.kind = .composerMessage)

def syncComposerDraft (app : TuiApp) : TuiApp :=
  match app.promptInput, app.selection.paneId with
  | some prompt, some paneId =>
    if prompt.kind = .composerMessage then
      { app with composerDrafts := app.composerDrafts.insert paneId prompt.text }
    else app
  | _, _ => app

def draft (app : TuiApp) (paneId : String) : String :=
  (app.composerDrafts.lookup paneId).getD ""

/-- The composer shortcut: the prompt starts with the pane's draft. -/
def openComposer (app : TuiApp) : Handled :=
  if app.screen = .terminal then
    (app.onView (TuiView.withPrompt
        ⟨.composerMessage, (app.selection.paneId.map app.draft).getD ""⟩),
      [.composerOpened app.selection.paneId])
  else (app, [])

def maxComposerChars : Nat := 20000

/-- The message that `submit_composer_message` sends. -/
def composedMessage (text : String) : String :=
  let trimmed := String.ofList (text.toList.rdropWhile fun c => c = '\r' ∨ c = '\n')
  replaceStr (replaceStr trimmed "\r\n" "\n") "\r" "\n"

def submitComposerMessage (w : World) (text : String) (app : TuiApp) : Handled :=
  match app.selection.paneId with
  | none => (app, [])
  | some paneId =>
    let message := composedMessage text
    if trim message = "" ∨ maxComposerChars < message.length then (app, [])
    else
      (if w.accepted then
          ({ app with composerDrafts := app.composerDrafts.erase paneId } : TuiApp).refreshTail
            w.text (w.read 0)
        else app,
        [.message paneId message])

def closeWorkspace (w : World) (app : TuiApp) : Handled :=
  match app.selection.workspaceId with
  | none => (app, [])
  | some workspaceId =>
    (if w.accepted then
        match app.refresh w with
        | none => app
        | some app =>
          app.onView fun view => { view with selection := view.selection.clamped }
      else app,
      [.closed workspaceId])

/-- `run_prompt_action` of the prompts not modelled in full. -/
def otherPromptAction (w : KeyWorld) (app : TuiApp) : TuiApp :=
  match w.prompt with
  | .nothing => app
  | .reopened kind => app.onView (TuiView.withPrompt (PromptInput.new kind.1))
  | .refreshed => app.tryRefresh w.toWorld
  | .created id =>
    match app.refresh w.toWorld with
    | none => app
    | some app => app.focusWorkspaceById w.toWorld id
  | .invalidated repos => repos.foldl (fun app repo => app.invalidateStamp repo) app
  | .session name => app.retargetSession w.toWorld name "builtin"

def runPromptAction (w : KeyWorld) (kind : PromptKind) (text : String) (app : TuiApp) :
    Handled :=
  match kind with
  | .composerMessage => app.submitComposerMessage w.toWorld text
  | .confirmCloseWorkspace => app.closeWorkspace w.toWorld
  | _ => (app.otherPromptAction w, [])

/-- The text that a prompt which wants a confirmation is submitted with. -/
def confirms (kind : PromptKind) (text : String) : Bool :=
  text == "y" || (kind == .confirmCleanupDelete && text == "yb")

def handlePromptKey (w : KeyWorld) (key : KeyEvent) (app : TuiApp) : Handled :=
  match app.promptInput with
  | none => (app, [])
  | some prompt =>
    if key.code = .esc then (app.onView TuiView.withoutPrompt, [])
    else if key.code = .enter then
      let text := trim prompt.text
      let app := app.onView TuiView.withoutPrompt
      if prompt.kind.needsConfirm && !confirms prompt.kind text then (app, [])
      else app.runPromptAction w prompt.kind text
    else
      match TuiView.editedText key prompt.text with
      | none => (app, [])
      | some text =>
        ((app.onView (TuiView.withPrompt { prompt with text })).syncComposerDraft, [])

def isDefaultPanelTitle (label : String) : Bool :=
  let value := String.ofList ((trim label).toList.map Char.toLower)
  value == "" || value == "shell" || value == "terminal" ||
    (stripPrefix "tab " value).any fun rest =>
      rest != "" && rest.toList.all Char.isDigit

/-- The rename prompt starts with the panel's label, unless it is a default one. -/
def renamePanelPrompt (s : Selection) : PromptInput :=
  ⟨.renamePanel, (s.activePanelLabel.filter fun label => !isDefaultPanelTitle label).getD ""⟩

def toggleLens (view : TuiView) : TuiView :=
  if view.screen = .terminal ∧ view.selection.lensSupported then
    view.withLens LensState.toggle
  else view

def runShortcut (w : KeyWorld) (app : TuiApp) : Shortcut → Handled
  | .help => (app.onView TuiView.openHelpOverlay, [])
  | .files => (app.onView (TuiView.onScreen .files), [])
  | .terminal => (app.onView (TuiView.onScreen .terminal), [])
  | .search => (app.onView (TuiView.ensureOverlay .searchPalette), [])
  | .refresh => (app.refreshActiveScreen w.toWorld, [])
  | .nextWorkspace => (app.moveSelection w.toWorld 1, [])
  | .prevWorkspace => (app.moveSelection w.toWorld (-1), [])
  | .nextAgent =>
    (({ app with sidebarFocus := .agents } : TuiApp).moveSelection w.toWorld 1, [])
  | .prevAgent =>
    (({ app with sidebarFocus := .agents } : TuiApp).moveSelection w.toWorld (-1), [])
  | .newTab =>
    (if app.selection.workspace.isSome then app.requestThenRefresh w.toWorld else app, [])
  | .closeTab => (app.closeSelectedTab w.toWorld, [])
  | .nextPanel => (app.movePanel w.toWorld 1, [])
  | .prevPanel => (app.movePanel w.toWorld (-1), [])
  | .newWorkspace | .openWorktrees =>
    (if w.accepted then app.onView (TuiView.ensureOverlay .worktreeList) else app, [])
  | .createWorktree =>
    (app.onView (TuiView.withPrompt (PromptInput.new .createWorktreeBranch)), [])
  | .closeWorkspace =>
    (app.onView (TuiView.withPrompt (PromptInput.new .confirmCloseWorkspace)),
      [.closeAsked app.selection.workspaceId])
  | .removeWorktree =>
    (if app.selection.workspace.any (·.cwd ≠ "") then app.requestThenRefresh w.toWorld
      else app, [])
  | .renamePanel => (app.onView (TuiView.withPrompt (renamePanelPrompt app.selection)), [])
  | .renameWorkspace =>
    (app.onView (TuiView.withPrompt (PromptInput.new .renameWorkspace)), [])
  | .gitCwdPicker =>
    (app.onView fun view => (view.onScreen .git).withPrompt (PromptInput.new .gitCwd), [])
  | .settings => (app.onView (TuiView.openOverlay .settings), [])
  | .sidebar => (app, [])
  | .focusNext => (app.onView (TuiView.walkFocus 1), [])
  | .focusPrev => (app.onView (TuiView.walkFocus (-1)), [])
  | .lens => (app.onView toggleLens, [])
  | .composer => app.openComposer
  | .quit => (app.onView TuiView.requestQuit, [])
  | .gitCommit =>
    (app.onView fun view => { view.onScreen .git with commitInput := some "" }, [])
  | .editFile =>
    (if app.screen = .files then app
      else app.onView (TuiView.onScreen (if w.proceeds then .files else .git)), [])
  | .gitSwitchBranch =>
    (if app.selection.workspace.any (·.cwd ≠ "") ∧ w.accepted then
        app.onView (TuiView.ensureOverlay .branchPicker)
      else app, [])
  | .gitDiscardFile | .gitStageAll =>
    (if w.proceeds then app.onView (TuiView.onScreen .git) else app, [])
  | .gitFocusFile =>
    (app.onView fun view => { view.onScreen .git with mainFocused := true }, [])
  | .git | .gitChanges | .gitLog | .gitStash | .gitBranch | .gitStageFile | .gitUnstageFile
  | .gitStashFile | .gitPush | .gitFileHistory | .gitChangesBack | .gitBlame =>
    (app.onView (TuiView.onScreen .git), [])
  | .sessionManager => (app.onView (TuiView.ensureOverlay .sessionManager), [])

/-- An accepted open of a checkout (`worktree_open_selected`,
`branch_picker_reroute`): refresh, focus the workspace `isOpened` says, close the
one left behind when it is empty, leave the overlays. -/
def openCheckout (w : World) (path : String) (isOpened : TuiWorkspace → Bool) (app : TuiApp) :
    TuiApp :=
  let previous :=
    (app.selection.workspace.filter fun workspace => workspace.cwd ≠ path).map (·.id)
  match app.refresh w with
  | none => app
  | some app =>
    let app :=
      match app.selection.snapshot.workspaces.find? isOpened with
      | none => app
      | some workspace => app.focusWorkspaceById w workspace.id
    app.onView fun view =>
      { view.leaveOverlays with selection := view.selection.leftClosed previous }

def handleWorktreeListKey (w : KeyWorld) (app : TuiApp) : TuiApp :=
  match w.browser with
  | .nothing => app
  | .closed => app.onView TuiView.closeOverlay
  | .prompt => app.onView (TuiView.withPrompt (PromptInput.new .createWorktreeBranch))
  | .staged =>
    app.onView fun view =>
      view.closeOverlay.withPrompt (PromptInput.new .newWorkspaceName)
  | .opened path => app.openCheckout w.toWorld path fun workspace => workspace.cwd = path

def handleBranchPickerKey (w : KeyWorld) (app : TuiApp) : TuiApp :=
  match w.picker with
  | .nothing => app
  | .closed => app.onView TuiView.closeOverlay
  | .switched root =>
    ((app.invalidateStamp root).tryRefresh w.toWorld).onView TuiView.closeOverlay
  | .rerouted path =>
    app.openCheckout w.toWorld path fun workspace =>
      sameCheckoutPath w.canonicalize workspace.cwd path

def handleSearchPaletteKey (w : KeyWorld) (app : TuiApp) : TuiApp :=
  let closed := app.onView TuiView.closeOverlay
  match w.palette with
  | .nothing => app
  | .closed => closed
  | .workspace id => closed.selectSearchTarget w.toWorld 0 (some id) none none
  | .panel id workspaceId =>
    closed.selectSearchTarget w.toWorld 0 (some workspaceId) (some id) none
  | .agent paneId => closed.selectSearchTarget w.toWorld 0 none none (some paneId)
  | .file => closed.onView (TuiView.onScreen .files)
  | .recent workspaceId tabId paneId =>
    match closed.refresh w.toWorld with
    | none => closed
    | some app => app.selectSearchTarget w.toWorld 1 (some workspaceId) tabId paneId

def handleSessionManagerKey (w : KeyWorld) (app : TuiApp) : TuiApp :=
  match w.sessions with
  | .nothing => app
  | .closed => app.onView TuiView.closeOverlay
  | .prompt => app.onView (TuiView.withPrompt (PromptInput.new .createSession))
  | .target name backend => app.retargetSession w.toWorld name backend

def handlePanelKey (w : KeyWorld) (app : TuiApp) : TuiApp :=
  match w.panel with
  | .nothing => app
  | .prompt kind text => app.onView (TuiView.withPrompt ⟨kind.1, text⟩)
  | .commit => app.onView fun view => { view with commitInput := some "" }
  | .help => app.onView TuiView.openHelpOverlay
  | .terminal => app.onView (TuiView.onScreen .terminal)
  | .git => app.onView (TuiView.onScreen .git)
  | .invalidate cwd => app.invalidateStamp cwd

/-- The keys of `handle_navigation_key` that move only the view, whichever region
has the focus. -/
def navigationView (key : KeyEvent) (view : TuiView) : TuiView :=
  if key.code = .esc ∨ isChar key ['q'] then view.requestQuit
  else if isChar key ['?'] then view.openHelpOverlay
  else if key.code = .tab ∨ key.code = .backTab then view.toggleSidebarFocus
  else if isChar key ['a'] then { view with sidebarFocus := .agents }
  else if isChar key ['w'] then { view with sidebarFocus := .workspaces }
  else view

def scrollKey (w : KeyWorld) (key : KeyEvent) (view : TuiView) : TuiView :=
  if key.code = .up ∨ isChar key ['k'] then view.scrollPaneUp w 1
  else if key.code = .down ∨ isChar key ['j'] then view.scrollPaneDown 1
  else if key.code = .pageUp then view.scrollPaneUp w 10
  else if key.code = .pageDown then view.scrollPaneDown 10
  else if key.code = .«end» ∨ isChar key ['G'] then view.scrollPaneDown TuiView.usizeMax
  else if key.code = .home ∨ isChar key ['g'] then
    view.scrollPaneUp w view.buffers.scrollback.length
  else view

def handleNavigationKey (w : KeyWorld) (key : KeyEvent) (app : TuiApp) : Handled :=
  if app.screen ≠ .terminal then (app.handlePanelKey w, [])
  else if key.code = .enter then app.attachSelected w.toWorld
  else if isChar key ['r'] then (app.refreshActiveScreen w.toWorld, [])
  else if app.mainFocused then
    (app.onView fun view => scrollKey w key (navigationView key view), [])
  else if key.code = .down ∨ isChar key ['j'] then (app.moveSelection w.toWorld 1, [])
  else if key.code = .up ∨ isChar key ['k'] then (app.moveSelection w.toWorld (-1), [])
  else if key.code = .pageUp then (app.onView (TuiView.scrollPaneUp w 10), [])
  else if key.code = .pageDown then (app.onView (TuiView.scrollPaneDown 10), [])
  else (app.onView (navigationView key), [])

/-- The part of `handle_key` behind the prefix. -/
def handleUnprefixed (w : KeyWorld) (key : KeyEvent) (app : TuiApp) : Handled :=
  if app.commitInput.isSome then (app.onView (TuiView.handleCommitKey key), [])
  else if app.promptInput.isSome then app.handlePromptKey w key
  else if app.buffers.lens.active ∧ app.screen = .terminal then
    (app.onView (TuiView.handleLensKey w key), [])
  else
    match app.mode with
    | .help => (app.onView (TuiView.handleHelpKey key), [])
    | .confirmQuit => (app.onView (TuiView.handleConfirmQuitKey key), [])
    | .settings => (app.onView (TuiView.handleSettingsKey key), [])
    | .worktreeList => (app.handleWorktreeListKey w, [])
    | .branchPicker => (app.handleBranchPickerKey w, [])
    | .searchPalette => (app.handleSearchPaletteKey w, [])
    | .sessionManager => (app.handleSessionManagerKey w, [])
    | .navigate => app.handleNavigationKey w key
    | .attach =>
      if app.screen = .terminal then app.handleAttachKey w.toWorld key
      else (app.handlePanelKey w, [])

def handleKey (w : KeyWorld) (key : KeyEvent) (app : TuiApp) : Handled :=
  let fed := feedPrefix app.now app.prefixArmedAt key
  let app := app.onView fun view => { view with prefixArmedAt := fed.1 }
  match fed.2 with
  | some shortcut => app.runShortcut w shortcut
  | none => if isArmed app.now fed.1 then (app, []) else app.handleUnprefixed w key

end TuiApp

/-- What can happen to the interface next. -/
inductive TuiAction where
  | key (w : KeyWorld) (key : KeyEvent)
  | tick (w : World)
  | elapse (milliseconds : Nat)
  | refreshReplied (snapshot : Option Json)
  | refreshDied
  | stampReplied (worker : Nat) (reply : Option WorktreeReply)
  | stampDied (worker : Nat)
  | output (text : TerminalText) (output : TerminalOutput)

/-- A worker's channel gets its result, or loses its sender. -/
def StampReceiver.settle (settled : StampReceiver) : StampReceiver → StampReceiver
  | .asked => settled
  | receiver => receiver

def settleWorker (i : Nat) (settled : StampReceiver) (workers : List StampInflight) :
    List StampInflight :=
  workers.modify i fun worker => { worker with receiver := worker.receiver.settle settled }

def RefreshReceiver.settle (settled : RefreshReceiver) : RefreshReceiver → RefreshReceiver
  | .asked => settled
  | receiver => receiver

namespace TuiApp

def step (app : TuiApp) : TuiAction → Handled
  | .key w key => app.handleKey w key
  | .tick w => (app.refreshIfDue w, [])
  | .elapse milliseconds =>
    (app.onView fun view => { view with now := view.now + milliseconds }, [])
  | .refreshReplied snapshot =>
    (app.onView fun view =>
      { view with
        refreshInflight := view.refreshInflight.map (RefreshReceiver.settle (.landed snapshot)) },
      [])
  | .refreshDied =>
    (app.onView fun view =>
      { view with
        refreshInflight := view.refreshInflight.map (RefreshReceiver.settle .died) }, [])
  | .stampReplied i reply =>
    (app.onView fun view =>
      { view with stampInflight := settleWorker i (.landed reply) view.stampInflight }, [])
  | .stampDied i =>
    (app.onView fun view =>
      { view with stampInflight := settleWorker i .died view.stampInflight }, [])
  | .output text output => (app.ingestTerminalOutput text output, [])

def start (refreshInterval : Nat) (session : String) : TuiApp where
  now := 0
  selection := Selection.empty
  sidebarFocus := .workspaces
  mainFocused := true
  mode := .navigate
  overlayStack := []
  quitPrevMode := .navigate
  screen := .terminal
  prefixArmedAt := none
  commitInput := none
  promptInput := none
  helpFilter := []
  buffers :=
    { paneTail := [], paneTailStyles := [], paneScroll := 0, paneHistory := []
      paneBuffersPaneId := none, paneHistoryExhausted := false, lens := LensState.default }
  refreshInflight := none
  stampInflight := []
  lastRefresh := none
  lastTailRefresh := none
  refreshInterval
  currentSession := session
  currentBackend := "builtin"
  rawOutput := RawOutput.empty
  stampCache := ∅
  composerDrafts := ∅

end TuiApp

end HerdrWebui.Tui
