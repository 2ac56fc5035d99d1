import HerdrWebui.Tui.Buffers

/-!
The state of the terminal interface (`TuiApp`) and what happens to it without a
key: refreshes that land, worktree stamps that land, tail reads, and the tick
that arms the next refresh.

Everything a frame is drawn from is in `TuiView`. Beside it stand the four
fields that outlive what is on the screen: the raw output of a terminal, the
cached stamps, the composer drafts. Texts of the status line, themes, and the
file explorer, git panel and list overlays with their rows are left out; a key
that one of these handles comes with what that handler makes of it.

The answers of the backend to the round trips of one event are in its `World`.
-/

namespace HerdrWebui.Tui

inductive TuiMode where
  | navigate
  | attach
  | help
  | confirmQuit
  | settings
  | worktreeList
  | searchPalette
  | sessionManager
  | branchPicker
  deriving DecidableEq

inductive TuiScreen where
  | terminal
  | files
  | git
  deriving DecidableEq

inductive PromptKind where
  | renameFile
  | confirmDeleteFile
  | confirmDeleteBranch
  | confirmDropStash
  | newWorkspace
  | newWorkspaceName
  | renameWorkspace
  | renamePanel
  | createWorktreeBranch
  | createWorktreePath
  | createWorktreeBase
  | confirmWorktreePullBase
  | confirmCloseWorkspace
  | confirmCleanupDelete
  | createTag
  | resetMode
  | confirmResetHard
  | rebaseUpstream
  | confirmRebase
  | gitCwd
  | createBranch
  | createFile
  | createDirectory
  | replaceInFile
  | composerMessage
  | createSession
  deriving DecidableEq

/-- Prompts that only submit the text `y`. -/
def PromptKind.needsConfirm : PromptKind → Bool
  | confirmDeleteFile | confirmDeleteBranch | confirmDropStash | confirmCloseWorkspace
  | confirmCleanupDelete | confirmResetHard | confirmRebase => true
  | _ => false

structure PromptInput where
  kind : PromptKind
  text : String
  deriving DecidableEq

def PromptInput.new (kind : PromptKind) : PromptInput := ⟨kind, ""⟩

/-- The receiver of the background refresh. -/
inductive RefreshReceiver where
  | asked
  | landed (snapshot : Option Json)
  | died

/-- What a frame is drawn from and keys are dispatched on. `now` is the clock the
code reads, in milliseconds. -/
structure TuiView where
  now : Nat
  selection : Selection
  sidebarFocus : SidebarFocus
  mainFocused : Bool
  mode : TuiMode
  overlayStack : List TuiMode
  quitPrevMode : TuiMode
  screen : TuiScreen
  prefixArmedAt : Option Nat
  commitInput : Option String
  promptInput : Option PromptInput
  helpFilter : List Char
  buffers : PaneBuffers
  refreshInflight : Option RefreshReceiver
  stampInflight : List StampInflight
  lastRefresh : Option Nat
  lastTailRefresh : Option Nat
  refreshInterval : Nat
  currentSession : String
  currentBackend : String

structure TuiApp extends TuiView where
  rawOutput : RawOutput
  stampCache : Table String StampCacheEntry
  composerDrafts : Table String String

/-- The answers of one event's round trips, in the order they are made. A
snapshot or read that is missing failed. -/
structure World where
  text : TerminalText
  canonicalize : String → Option String
  snapshot : Option Json
  reads : List (Option Json)
  output : Option TerminalOutput
  accepted : Bool

def World.read (w : World) (i : Nat) : Option Json := (w.reads[i]?).join

/-- `LensGate::Supported`: the pane has a transcript provider. -/
def Selection.lensSupported (s : Selection) : Bool :=
  (s.pane.bind (·.agentSession)).any fun session => session.kind = "jcode"

/-- The buffers of `refresh_tail`, with the answer of its read. -/
def PaneBuffers.refreshTail (text : TerminalText) (read : Option Json) (s : Selection)
    (b : PaneBuffers) : PaneBuffers :=
  let gated :=
    if b.lens.active && !s.lensSupported then { b with lens := b.lens.close } else b
  match s.paneId with
  | none => gated.cleared
  | some paneId =>
    let own := gated.switchedTo paneId
    match read with
    | none => own
    | some value =>
      let held := own.setTailFromText (text.stripAnsiLossy (readText value))
      { held with lens := held.lens.observeLen held.paneTail.length }

/-- `refresh_tail` forgets the raw output, unless its read fails. -/
def Selection.tailReset (s : Selection) (read : Option Json) : Bool :=
  s.paneId.isNone || read.isSome

namespace TuiApp

def refreshTail (text : TerminalText) (read : Option Json) (app : TuiApp) : TuiApp :=
  { app with
    buffers := app.buffers.refreshTail text read app.selection
    rawOutput := if app.selection.tailReset read then RawOutput.empty else app.rawOutput }

def ingestTerminalOutput (text : TerminalText) (output : TerminalOutput) (app : TuiApp) :
    TuiApp :=
  let raw := app.rawOutput.ingested (app.selection.pane.map (·.terminalId)) output
  { app with
    rawOutput := raw
    buffers :=
      app.buffers.setTailFromStyledLines (text.styledLinesForWidth raw.output output.width) }

/-- The fields the worktree stamps live in. -/
def board (app : TuiApp) : StampBoard :=
  ⟨app.selection.snapshot.workspaces, app.stampCache, app.stampInflight⟩

def withBoard (app : TuiApp) (board : StampBoard) : TuiApp :=
  { app with
    selection :=
      { app.selection with
        snapshot := { app.selection.snapshot with workspaces := board.workspaces } }
    stampCache := board.stampCache
    stampInflight := board.stampInflight }

/-- The lists of a refresh before they are stamped. -/
def landedSelection (w : World) (snapshot : Json) (app : TuiApp) : Selection :=
  app.selection.landed (TuiSnapshot.fromBackendResponse w.canonicalize snapshot)
    app.lastRefresh.isNone

/-- The list that has the focus after `apply_refresh`. -/
def landedFocus (w : World) (snapshot : Json) (app : TuiApp) : SidebarFocus :=
  if app.lastRefresh.isNone ∧ (app.landedSelection w snapshot).snapshot.agents ≠ [] then
    .agents
  else app.sidebarFocus

/-- `apply_refresh` before the stamps. -/
def applyRows (w : World) (snapshot : Json) (app : TuiApp) : TuiApp :=
  let landed :=
    { app with
      selection := app.landedSelection w snapshot
      sidebarFocus := app.landedFocus w snapshot }
  let shown :=
    if landed.mode = .attach then landed
    else { landed.refreshTail w.text (w.read 0) with lastTailRefresh := some app.now }
  { shown with lastRefresh := some app.now }

def applyRefresh (w : World) (snapshot : Json) (app : TuiApp) : TuiApp :=
  let rows := app.applyRows w snapshot
  rows.withBoard
    ((rows.board.applyCachedStamps w.canonicalize app.now).spawnStampFetches app.now)

/-- `refresh`; none where the round trip fails. -/
def refresh (w : World) (app : TuiApp) : Option TuiApp :=
  w.snapshot.map fun snapshot => app.applyRefresh w snapshot

/-- `refresh` where a failure only shows in the error slot. -/
def tryRefresh (w : World) (app : TuiApp) : TuiApp := (app.refresh w).getD app

def pollStampFetches (w : World) (app : TuiApp) : TuiApp :=
  app.withBoard (app.board.pollStampFetches w.canonicalize app.now)

def invalidateStamp (cwd : String) (app : TuiApp) : TuiApp :=
  app.withBoard (app.board.invalidateStamp cwd)

def pollRefresh (w : World) (app : TuiApp) : TuiApp :=
  let app := app.pollStampFetches w
  match app.refreshInflight with
  | none | some .asked => app
  | some .died => { app with refreshInflight := none }
  | some (.landed none) =>
    { app with refreshInflight := none, lastRefresh := some app.now }
  | some (.landed (some snapshot)) =>
    ({ app with refreshInflight := none } : TuiApp).applyRefresh w snapshot

def tailRefreshInterval : Nat := 200

/-- A point in time is at least `interval` old, or was never. -/
def isDue (now : Nat) (since : Option Nat) (interval : Nat) : Bool :=
  since.all fun loaded => interval ≤ now - loaded

/-- `refresh_if_due`. Its tail read comes after the one of a refresh that landed. -/
def refreshIfDue (w : World) (app : TuiApp) : TuiApp :=
  let app := app.pollRefresh w
  if isDue app.now app.lastRefresh app.refreshInterval then
    if app.refreshInflight.isNone then { app with refreshInflight := some .asked } else app
  else if isDue app.now app.lastTailRefresh tailRefreshInterval ∧ app.mode ≠ .attach ∧
      app.screen = .terminal then
    { app.refreshTail w.text (w.read 1) with lastTailRefresh := some app.now }
  else app

end TuiApp

end HerdrWebui.Tui
