import HerdrWebui.Tui.Explorer
import HerdrWebui.Tui.Overlays

/-!
The interface with its panels. The Files and Git screens take the keys that the layers in front of
them leave (`handle_key`, `handle_panel_key`), and shortcuts, prompts and the search palette act on
the panels too.

Of the git panel this is the view, its directory and the search in the diff. What else it has for a
key to act on comes with the key's world.
-/

namespace HerdrWebui.Tui

open Concurrency

inductive GitView where
  | changes
  | log
  | branches
  | stash
  | history
  | conflicts
  | cleanup
  deriving DecidableEq

def GitView.next : GitView → GitView
  | .changes => .log
  | .log => .branches
  | .branches => .stash
  | .stash => .history
  | .history => .conflicts
  | .conflicts => .cleanup
  | .cleanup => .changes

structure GitPanel where
  cwd : String := ""
  view : GitView := .changes
  diffSearchActive : Bool := false
  diffSearchMatches : List Nat := []
  deriving DecidableEq

/-- A row of the search palette that leads to the Files screen. -/
inductive FileCandidate where
  | file (path : String) (isDir : Bool)
  | content (path : String)
  deriving DecidableEq

/-- The world of a key that may reach the panels. `gitReady` says that the git panel has what the
key acts on, `diffMatches` are the matches of the diff search after the key. -/
structure PanelWorld extends KeyWorld where
  files : FilesReplies
  agentCwd : Option String
  gitFile : Option String
  gitReady : Bool
  gitRoot : String
  diffMatches : List Nat
  candidate : FileCandidate

namespace GitPanel

variable (g : GitPanel)

/-- The keys of `handle_git_key` while the diff is searched. -/
def searchKey (key : KeyEvent) (diffMatches : List Nat) : GitPanel :=
  match key.code with
  | .enter => { g with diffSearchActive := false }
  | .esc => { g with diffSearchActive := false, diffSearchMatches := [] }
  | .backspace => { g with diffSearchMatches := diffMatches }
  | .char ch =>
    if ch = 'n' ∨ ch = 'N' then g else { g with diffSearchMatches := diffMatches }
  | _ => g

/-- What the other keys of `handle_git_key` ask the interface for. -/
def outcome (w : PanelWorld) (key : KeyEvent) : PanelOutcome :=
  let ifReady (outcome : PanelOutcome) : PanelOutcome := if w.gitReady then outcome else .nothing
  match key.code with
  | .esc => if g.view = .changes ∧ g.diffSearchMatches ≠ [] then .nothing else .terminal
  | .enter => if g.view = .branches then ifReady (.invalidate g.cwd) else .nothing
  | .char ch =>
    match ch, g.view with
    | 'q', _ => .terminal
    | '?', _ => .help
    | 't', .log => ifReady (.prompt ⟨.createTag, rfl⟩ "")
    | 'R', .log => ifReady (.prompt ⟨.resetMode, rfl⟩ "")
    | 'b', .log => ifReady (.prompt ⟨.rebaseUpstream, rfl⟩ "")
    | 'w', .log => .prompt ⟨.createWorktreeBranch, rfl⟩ ""
    -- two commits that are marked are compared
    | 'c', .log => if w.gitReady then .nothing else .commit
    | 'c', .branches => .prompt ⟨.createBranch, rfl⟩ ""
    | 'c', _ => .commit
    | 'a', .stash => .nothing
    | 'a', _ => .commit
    | 'D', .branches => ifReady (.prompt ⟨.confirmDeleteBranch, rfl⟩ "")
    | 'D', .stash => ifReady (.prompt ⟨.confirmDropStash, rfl⟩ "")
    | 'x', .cleanup => ifReady (.prompt ⟨.confirmCleanupDelete, rfl⟩ "")
    | 'B', .cleanup => ifReady (.invalidate w.gitRoot)
    | _, _ => .nothing
  | _ => .nothing

/-- The keys of `handle_git_key` while no diff is searched. -/
def key (w : PanelWorld) (key : KeyEvent) : GitPanel :=
  if key.code = .tab then { g with view := g.view.next, diffSearchMatches := w.diffMatches }
  else if g.view = .changes ∧ key.code = .esc then { g with diffSearchMatches := [] }
  else if g.view = .changes ∧ key.code = .char '/' then { g with diffSearchActive := true }
  else { g with diffSearchMatches := w.diffMatches }

/-- `open_git_screen` from another screen. -/
def opened (cwd : Option String) (diffMatches : List Nat) : GitPanel :=
  cwd.elim g fun cwd => { g with cwd, diffSearchMatches := diffMatches }

end GitPanel

/-- The handlers between which `handle_key` chooses behind the prefix. -/
inductive KeyHandler where
  | commitInput
  | promptInput (kind : PromptKind)
  | lens
  | overlay (mode : TuiMode)
  | diffSearch
  | editorFind
  | fileEdit
  | filterBar
  | contentSearch
  | screen (screen : TuiScreen)
  deriving DecidableEq

structure PanelApp where
  app : TuiApp
  files : FilesPanel
  git : GitPanel

/-- `handle_files_key`. -/
def FilesPanel.handler (e : FilesPanel) : KeyHandler :=
  if e.editActive then (if e.editorFind.active then .editorFind else .fileEdit)
  else if e.filterActive then .filterBar
  else if e.showsContent && e.contentSearch.hasResults then .contentSearch
  else .screen .files

namespace PanelApp

variable (s : PanelApp)

/-- `handle_panel_key`. -/
def panelHandler : KeyHandler :=
  match s.app.screen with
  | .files => s.files.handler
  | .git => if s.git.diffSearchActive then .diffSearch else .screen .git
  | .terminal => .screen .terminal

/-- `handle_key`. -/
def handler : KeyHandler :=
  if s.app.commitInput.isSome then .commitInput
  else
    match s.app.promptInput with
    | some prompt => .promptInput prompt.kind
    | none =>
      if s.app.buffers.lens.active ∧ s.app.screen = .terminal then .lens
      else
        match s.app.mode with
        | .navigate | .attach => s.panelHandler
        | mode => .overlay mode

def activeCwd (w : PanelWorld) : Option String :=
  ((s.app.selection.workspace.map (·.cwd)).filter (· ≠ "")).or (w.agentCwd.filter (· ≠ ""))

def openFilesScreen (w : PanelWorld) : FilesPanel :=
  if s.app.screen = .files then s.files
  else if s.files.preview.dirty && s.files.preview.path.isSome then s.files
  else (s.activeCwd w).elim s.files fun cwd => (FilesPanel.new cwd).tryRefresh w.files.listing

def openGitScreen (w : PanelWorld) : GitPanel :=
  if s.app.screen = .git then s.git else s.git.opened (s.activeCwd w) w.diffMatches

/-- `EditFile` reads the file. -/
def editsFile (w : PanelWorld) : Bool :=
  w.gitFile.any fun file => !s.files.refuses file && w.files.read.isOk

/-- The file of the git panel in a new explorer for the panel's directory. -/
def explorerOf (w : PanelWorld) (cwd file : String) (data : Json) : FilesPanel :=
  let explorer := (FilesPanel.new cwd).tryRefresh w.files.listing
  { explorer with
    toFileExplorer := (explorer.toFileExplorer.openPreviewPath data file).startEdit.1 }

/-- `EditFile`. -/
def editFile (w : PanelWorld) : FilesPanel :=
  if s.app.screen = .files then
    { s.files with toFileExplorer := s.files.toFileExplorer.startEdit.1 }
  else
    match w.gitFile, w.files.read with
    | some file, .ok data =>
      if s.files.refuses file then s.files
      else explorerOf w (s.openGitScreen w).cwd file data
    | _, _ => s.files

/-- A panel's own check lets a shortcut through. -/
def proceeds (w : PanelWorld) : Shortcut → Bool
  | .editFile => s.editsFile w
  | .gitDiscardFile =>
    !(s.files.preview.dirty && w.gitFile.any fun file => s.files.preview.path == some file)
  | .gitStageAll => s.git.cwd != ""
  | _ => w.proceeds

/-- The view that a shortcut of the git panel shows. -/
def shortcutView (w : PanelWorld) (view : GitView) : Shortcut → GitView
  | .git | .gitCommit | .gitCwdPicker => view
  | .gitLog => .log
  | .gitStash => .stash
  | .gitBranch => .branches
  | .gitFileHistory => if w.gitFile.isSome then .history else .changes
  | _ => .changes

/-- The shortcuts of `run_shortcut` that open the Git screen. -/
def opensGit (w : PanelWorld) : Shortcut → Bool
  | .git | .gitChanges | .gitCommit | .gitLog | .gitStash | .gitBranch | .gitStageFile
  | .gitUnstageFile | .gitStashFile | .gitPush | .gitFileHistory | .gitChangesBack | .gitBlame
  | .gitCwdPicker | .gitFocusFile => true
  | .gitDiscardFile => s.proceeds w .gitDiscardFile
  | .gitStageAll => s.proceeds w .gitStageAll
  | .editFile => s.app.screen ≠ .files
  | _ => false

/-- `run_shortcut`, on the panels. -/
def runShortcut (w : PanelWorld) (shortcut : Shortcut) : FilesPanel × GitPanel :=
  let files :=
    match shortcut with
    | .files => s.openFilesScreen w
    | .refresh =>
      if s.app.screen = .files then s.files.tryRefresh w.files.listing else s.files
    | .editFile => s.editFile w
    | _ => s.files
  let git :=
    if s.opensGit w shortcut then
      let git := s.openGitScreen w
      { git with view := shortcutView w git.view shortcut, diffSearchMatches := w.diffMatches }
    else s.git
  (files, git)

/-- `run_prompt_action`, on the panels. None where a replacement panics. -/
def runPromptAction (engine : RegexEngine) (w : PanelWorld) (kind : PromptKind) (text : String) :
    Option (FilesPanel × GitPanel) :=
  match kind with
  | .renameFile | .confirmDeleteFile =>
    some (if s.files.selectedEntry.isSome ∧ w.files.accepted then
      s.files.tryRefresh w.files.listing else s.files, s.git)
  | .createFile =>
    some (match s.files.createFile w.files text with
      | none => s.files
      | some files => (files.openPreview w.files).getD files, s.git)
  | .createDirectory => some ((s.files.createDirectory w.files text).getD s.files, s.git)
  | .replaceInFile => (s.files.replaceInFile engine text).map fun files => (files, s.git)
  | .gitCwd =>
    some (s.files, if text = "" then s.git
      else { s.git with cwd := text, diffSearchMatches := w.diffMatches })
  | .createBranch | .confirmDeleteBranch | .confirmDropStash | .createTag | .confirmResetHard
  | .confirmRebase | .confirmCleanupDelete =>
    some (s.files, { s.git with diffSearchMatches := w.diffMatches })
  | _ => some (s.files, s.git)

/-- What the interface itself makes of an accepted prompt. -/
def promptOutcome (w : PanelWorld) (kind : PromptKind) (text : String) : PromptOutcome :=
  match kind with
  | .renameFile | .confirmDeleteFile | .createFile | .createDirectory | .replaceInFile | .gitCwd
  | .createBranch | .confirmDeleteBranch | .confirmDropStash | .createTag | .confirmResetHard
  | .confirmRebase => .nothing
  | .resetMode => if text = "hard" then .reopened ⟨.confirmResetHard, rfl⟩ else .nothing
  | .rebaseUpstream => if text = "" then .nothing else .reopened ⟨.confirmRebase, rfl⟩
  | _ => w.prompt

/-- The prompt that Enter accepts, with its text. -/
def acceptedPrompt (key : KeyEvent) : Option (PromptKind × String) :=
  if key.code = .enter then
    (s.app.promptInput.map fun prompt => (prompt.kind, trim prompt.text)).filter fun prompt =>
      !prompt.1.needsConfirm || TuiApp.confirms prompt.1 prompt.2
  else none

/-- `run_search_candidate` for a file or a match in one. -/
def runCandidate (w : PanelWorld) : FilesPanel :=
  let files := s.openFilesScreen w
  match w.candidate with
  | .file path isDir =>
    if isDir then files.selectPath path else files.revealPath w.files.children path
  | .content path => (files.openPreviewAtLine w.files.read path).getD files

/-- What a key that gets to a panel does there, and what it asks the interface for. -/
def panelKey (engine : RegexEngine) (w : PanelWorld) (key : FileKey) :
    Option (FilesPanel × GitPanel × PanelOutcome) :=
  match s.handler with
  | .promptInput _ =>
    match s.acceptedPrompt key.toKeyEvent with
    | none => some (s.files, s.git, .nothing)
    | some (kind, text) =>
      (s.runPromptAction engine w kind text).map fun panels => (panels.1, panels.2, .nothing)
  | .overlay .searchPalette =>
    match w.palette with
    | .file => some (s.runCandidate w, s.git, .nothing)
    | _ => some (s.files, s.git, .nothing)
  | .diffSearch =>
    some (s.files, s.git.searchKey key.toKeyEvent w.diffMatches, .nothing)
  | .editorFind | .fileEdit =>
    (s.files.editorKey engine key w.files).map fun turn => (turn.1, s.git, turn.2)
  | .filterBar => some (s.files.filterKey key.toKeyEvent w.files, s.git, .nothing)
  | .contentSearch => some (s.files.contentSearchKey key.toKeyEvent w.files, s.git, .nothing)
  | .screen .files =>
    let turn := s.files.treeKey key.toKeyEvent w.files w.gitFile
    some (turn.1,
      match turn.2 with
      | .git => { s.openGitScreen w with view := .log, diffSearchMatches := w.diffMatches }
      | _ => s.git,
      turn.2)
  | .screen .git => some (s.files, s.git.key w key.toKeyEvent, s.git.outcome w key.toKeyEvent)
  | .commitInput =>
    some (s.files,
      if key.code = .enter then { s.git with diffSearchMatches := w.diffMatches } else s.git,
      .nothing)
  | .lens | .overlay _ | .screen .terminal => some (s.files, s.git, .nothing)

/-- The shortcut that the prefix makes of a key. -/
def shortcut (key : KeyEvent) : Option Shortcut :=
  (feedPrefix s.app.now s.app.prefixArmedAt key).2

/-- The prefix takes the key and waits for the next one. -/
def armed (key : KeyEvent) : Bool :=
  isArmed s.app.now (feedPrefix s.app.now s.app.prefixArmedAt key).1

/-- `handle_key`. None where it panics. -/
def handleKey (engine : RegexEngine) (w : PanelWorld) (key : FileKey) : Option PanelApp :=
  match s.shortcut key.toKeyEvent with
  | some shortcut =>
    let panels := s.runShortcut w shortcut
    let world := { w.toKeyWorld with proceeds := s.proceeds w shortcut }
    some ⟨(s.app.handleKey world key.toKeyEvent).1, panels.1, panels.2⟩
  | none =>
    if s.armed key.toKeyEvent then
      some { s with app := (s.app.handleKey w.toKeyWorld key.toKeyEvent).1 }
    else
      (s.panelKey engine w key).map fun turn =>
        let prompt :=
          (s.acceptedPrompt key.toKeyEvent).elim w.prompt fun accepted =>
            promptOutcome w accepted.1 accepted.2
        let world := { w.toKeyWorld with panel := turn.2.2, prompt }
        ⟨(s.app.handleKey world key.toKeyEvent).1, turn.1, turn.2.1⟩

end PanelApp

def TuiAction.isKey : TuiAction → Bool
  | .key _ _ => true
  | _ => false

/-- What can happen to the interface next: a key, or anything that is none. -/
inductive PanelAction where
  | key (w : PanelWorld) (key : FileKey)
  | other (a : TuiAction)

namespace PanelApp

def step (engine : RegexEngine) (s : PanelApp) : PanelAction → Option PanelApp
  | .key w key => s.handleKey engine w key
  | .other a => if a.isKey then none else some { s with app := (s.app.step a).1 }

def start (refreshInterval : Nat) (session : String) : PanelApp :=
  ⟨TuiApp.start refreshInterval session, FilesPanel.new "", {}⟩

end PanelApp

/-- The run of the interface. A key that panics ends it. -/
def panelSystem (engine : RegexEngine) : System PanelApp PanelAction where
  init s := ∃ refreshInterval session, s = PanelApp.start refreshInterval session
  step := PanelApp.step engine

end HerdrWebui.Tui
