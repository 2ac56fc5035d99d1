import HerdrWebui.Builtin.Registry
import HerdrWebui.Concurrency.Threads

/-!
The requests that change the registry, cut where the code takes and releases
the `data` lock. A request is a thread: its local state is the phase it is in
together with the locals it carries over to its next critical section, and one
step is one critical section with the I/O that precedes it (spawning a process,
resolving a path, running git), whose outcome is an input of the step.

Requests that only read the registry, the JSON of the answers and the published
events are left out. An error is the text the request answers with.
-/

namespace HerdrWebui.Builtin

open Concurrency

/-- The decoded parameters of the requests that change the registry. -/
inductive Request where
  | workspaceCreate (cwd : Option Path) (label : Option String)
      (openTerminal : Option Bool)
  | workspaceRename (workspaceId label : String)
  | workspaceClose (workspaceId : String)
  | tabCreate (workspaceId label : Option String) (focus : Option Bool)
  | tabRename (tabId label : String)
  | tabClose (tabId : String)
  | tabPromote (tabId : String)
  | paneClose (paneId : String)
  | agentStart (name : String) (argv : List String) (cwd : Option Path)
  | worktreeOpen (path cwd : Option Path) (label : Option String)
      (openTerminal : Option Bool)
  | worktreeRemove (workspaceId : Option String) (path repoRoot cwd : Option Path)

/-- What the machine answers during one step. `canonicalize` is asked about the
path at hand, `canonicalizeCwd` about the workspaces' own paths in the scan
that follows: the file system may change in between. -/
structure Environment where
  currentDir : Path
  spawn : Except String Unit
  canonicalize : Path → Option Path
  canonicalizeCwd : Path → Option Path
  liveCwd : Option Path
  isDir : Path → Bool
  git : Except String Unit
  order : IterationOrder

/-- The ids of one new terminal and the places above it. -/
structure FreshIds where
  workspaceId : String
  tabId : String
  paneId : String
  terminalId : String

inductive Reply where
  | ok
  | workspace (workspaceId : Option String)
  | tab (tabId paneId : String)
  | promoted (workspaceId tabId paneId : String) (created : Bool)
      (dropped : Option String)
  | agent (paneId : String) (argv : List String)
  | removed (workspaceIds : List String)

/-- The phase of a request: what it does at its next critical section. -/
inductive Phase where
  | idle
  | received (request : Request)
  | createWorkspace (cwd : Path) (label : Option String)
      (focus openTerminal : Bool)
  | createWorkspaceInsert (ids : FreshIds) (cwd : Path) (label : String)
      (focus openTerminal hasFocusTarget : Bool)
  | createWorkspaceReply (workspaceId : String)
  | createTabMint (workspaceId : String) (cwd : Path) (label : Option String)
      (focus : Bool)
  | createTabInsert (ids : FreshIds) (cwd : Path) (label : Option String)
      (focus : Bool)
  | startAgentInsert (ids : FreshIds) (name : String) (argv : List String)
      (cwd : Path)
  | promoteTabProbe (tabId paneId terminalId : String) (paneCwd : Path)
  | promoteTabCommit (tabId paneId : String) (canonicalLive : Path)
  | worktreeRemoveMatch (path repoRoot : Path)
  | worktreeRemoveGit (matching : List String)
  | finished (result : Except String Reply)

def mintAll (d : BuiltinData) : FreshIds × BuiltinData :=
  let (workspaceId, d) := nextId d "ws"
  let (tabId, d) := nextId d "tab"
  let (paneId, d) := nextId d "pane"
  let (terminalId, d) := nextId d "term"
  (⟨workspaceId, tabId, paneId, terminalId⟩, d)

/-- Three ids minted in one lock hold, for a tab of an existing workspace. -/
def mintTab (d : BuiltinData) (workspaceId : String) : FreshIds × BuiltinData :=
  let (tabId, d) := nextId d "tab"
  let (paneId, d) := nextId d "pane"
  let (terminalId, d) := nextId d "term"
  (⟨workspaceId, tabId, paneId, terminalId⟩, d)

/-- The tab, its pane and its terminal, as all three creating requests insert
them. The workspace row is the caller's. -/
def insertTerminalTab (d : BuiltinData) (ids : FreshIds) (cwd : Path)
    (tabLabel : String) (paneLabel : Option String) (argv : List String) :
    BuiltinData :=
  { d with
    tabs := d.tabs.insert ids.tabId
      { tabId := ids.tabId
        workspaceId := ids.workspaceId
        label := tabLabel
        paneIds := [ids.paneId] }
    panes := d.panes.insert ids.paneId
      { paneId := ids.paneId
        terminalId := ids.terminalId
        workspaceId := ids.workspaceId
        tabId := ids.tabId
        cwd := cwd
        label := paneLabel
        argv := argv }
    terminals := d.terminals.insert ids.terminalId
      { id := ids.terminalId
        argv := argv
        eventContext :=
          ⟨ids.workspaceId, ids.tabId, ids.paneId, ids.terminalId⟩ } }

def insertWorkspace (d : BuiltinData) (workspaceId label : String) (cwd : Path)
    (tabIds : List String) : BuiltinData :=
  { d with
    workspaces := d.workspaces.insert workspaceId
      { workspaceId := workspaceId, label := label, cwd := cwd, tabIds := tabIds } }

def setFocus (d : BuiltinData) (workspaceId tabId paneId : Option String) :
    BuiltinData :=
  { d with
    focusedWorkspaceId := workspaceId
    focusedTabId := tabId
    focusedPaneId := paneId }

/-- The insert of `create_workspace` with a terminal. Whether the new surface
takes the focus was decided when the ids were minted. -/
def createWorkspaceInsert (shell : String) (d : BuiltinData) (ids : FreshIds)
    (cwd : Path) (label : String) (hasFocusTarget : Bool) : BuiltinData :=
  let d := insertWorkspace d ids.workspaceId label cwd [ids.tabId]
  let d := insertTerminalTab d ids cwd "Shell" none [shell]
  if hasFocusTarget then
    setFocus d (some ids.workspaceId) (some ids.tabId) (some ids.paneId)
  else d

/-- The insert of `create_workspace` without a terminal. Here the focus is
decided against the state of the insert. -/
def createWorkspaceInsertEmpty (d : BuiltinData) (workspaceId : String)
    (cwd : Path) (label : String) (focus : Bool) : BuiltinData :=
  let d := insertWorkspace d workspaceId label cwd []
  if focus || d.focusedWorkspaceId.isNone then
    setFocus d (some workspaceId) none none
  else d

def createTabInsert (shell : String) (d : BuiltinData) (ids : FreshIds)
    (cwd : Path) (label : Option String) (focus : Bool) :
    Except String BuiltinData :=
  match d.workspaces.lookup ids.workspaceId with
  | none => .error s!"workspace {ids.workspaceId} not found"
  | some _ =>
    let d := insertTerminalTab d ids cwd (label.getD "Shell") none [shell]
    let d := { d with
      workspaces := Table.modify d.workspaces ids.workspaceId fun workspace =>
        { workspace with tabIds := workspace.tabIds ++ [ids.tabId] } }
    .ok <|
      if focus || d.focusedWorkspaceId.isNone || d.focusedTabId.isNone ||
          d.focusedPaneId.isNone then
        setFocus d (some ids.workspaceId) (some ids.tabId) (some ids.paneId)
      else d

def startAgentInsert (d : BuiltinData) (ids : FreshIds) (name : String)
    (argv : List String) (cwd : Path) : BuiltinData :=
  let d := insertWorkspace d ids.workspaceId name cwd [ids.tabId]
  let d := insertTerminalTab d ids cwd name (some name) argv
  setFocus d (some ids.workspaceId) (some ids.tabId) (some ids.paneId)

def renameWorkspace (d : BuiltinData) (workspaceId label : String) :
    Except String BuiltinData :=
  match d.workspaces.lookup workspaceId with
  | none => .error s!"workspace {workspaceId} not found"
  | some _ => .ok { d with
      workspaces := Table.modify d.workspaces workspaceId fun workspace =>
        { workspace with label := label } }

def renameTab (d : BuiltinData) (tabId label : String) :
    Except String BuiltinData :=
  match d.tabs.lookup tabId with
  | none => .error s!"tab {tabId} not found"
  | some _ => .ok { d with
      tabs := Table.modify d.tabs tabId fun tab => { tab with label := label } }

def closeWorkspace (order : IterationOrder) (d : BuiltinData)
    (workspaceId : String) : Except String BuiltinData :=
  match dropWorkspace d workspaceId with
  | none => .error s!"workspace {workspaceId} not found"
  | some d => .ok (normalizeFocus order d)

def closeTab (order : IterationOrder) (d : BuiltinData) (tabId : String) :
    Except String BuiltinData :=
  match d.tabs.lookup tabId with
  | none => .error s!"tab {tabId} not found"
  | some _ => .ok (normalizeFocus order (closeTabLocked d tabId))

/-- Closing the last pane of a tab closes the tab as well. -/
def closePane (order : IterationOrder) (d : BuiltinData) (paneId : String) :
    Except String BuiltinData :=
  match d.panes.lookup paneId with
  | none => .error s!"pane {paneId} not found"
  | some pane =>
    let closed := closePaneLocked d paneId
    let emptied := (closed.tabs.lookup pane.tabId).all (·.paneIds.isEmpty)
    .ok <| normalizeFocus order <|
      if emptied then normalizeFocus order (closeTabLocked closed pane.tabId)
      else closed

/-- The workspaces whose canonical path is the given one, in iteration order. -/
def workspacesAt (env : Environment) (d : BuiltinData) (path : Path) :
    List WorkspaceRecord :=
  (workspaceValues env.order d.workspaces).filter fun workspace =>
    (env.canonicalizeCwd workspace.cwd).getD workspace.cwd == path

/-- The same scan by key, as `worktree_remove` keeps the map's ids. -/
def workspaceIdsAt (env : Environment) (d : BuiltinData) (path : Path) :
    List String :=
  (env.order.keys d.workspaces).filter fun id =>
    (d.workspaces.lookup id).any fun workspace =>
      (env.canonicalizeCwd workspace.cwd).getD workspace.cwd == path

/-- Re-parent a tab and its panes to another workspace: the records first,
then the two workspaces' lists. -/
def moveTab (d : BuiltinData) (tabId : String) (tab : TabRecord)
    (workspaceId : String) (canonicalLive : Path) : BuiltinData :=
  let unlisted := Table.modify d.workspaces tab.workspaceId fun workspace =>
    { workspace with tabIds := workspace.tabIds.filter (· ≠ tabId) }
  { d with
    tabs := Table.modify d.tabs tabId fun record =>
      { record with
        workspaceId := workspaceId
        label := if record.label = "temp" then "Shell" else record.label }
    panes := tab.paneIds.foldl (fun panes paneId =>
      Table.modify panes paneId fun pane =>
        { pane with workspaceId := workspaceId, cwd := canonicalLive }) d.panes
    workspaces := Table.modify unlisted workspaceId fun workspace =>
      { workspace with tabIds := workspace.tabIds ++ [tabId] } }

/-- Drop the workspace a tab was moved away from when the tab was its last.
Answers the dropped workspace. -/
def dropEmptied (d : BuiltinData) (workspaceId : String) :
    BuiltinData × Option String :=
  match d.workspaces.lookup workspaceId with
  | none => (d, none)
  | some workspace =>
    if workspace.tabIds.isEmpty then
      ({ d with workspaces := d.workspaces.erase workspaceId },
        some workspaceId)
    else (d, none)

/-- Find or create the workspace at the canonical live path. -/
def promotionTarget (env : Environment) (d : BuiltinData)
    (canonicalLive : Path) : String × Bool × BuiltinData :=
  match (workspacesAt env d canonicalLive).head? with
  | some existing => (existing.workspaceId, false, d)
  | none =>
    let (workspaceId, d) := nextId d "ws"
    (workspaceId, true,
      insertWorkspace d workspaceId (workspaceLabel canonicalLive)
        canonicalLive [])

/-- The second critical section of `promote_tab`: everything is re-read, since
the tab may have been closed or moved while the path was probed. -/
def promoteTabCommit (env : Environment) (d : BuiltinData)
    (tabId paneId : String) (canonicalLive : Path) :
    Except String (BuiltinData × Reply) :=
  match d.tabs.lookup tabId with
  | none => .error s!"tab {tabId} not found"
  | some tab =>
    let currentCwd := ((d.workspaces.lookup tab.workspaceId).map fun workspace =>
      (env.canonicalize workspace.cwd).getD workspace.cwd).getD ""
    if currentCwd = canonicalLive then
      .error s!"tab {tabId} already runs in workspace {tab.workspaceId} (cwd {canonicalLive})"
    else
      let (workspaceId, created, d) := promotionTarget env d canonicalLive
      let d := moveTab d tabId tab workspaceId canonicalLive
      let (d, dropped) := dropEmptied d tab.workspaceId
      let d := setFocus d (some workspaceId) (some tabId) tab.paneIds.head?
      .ok (normalizeFocus env.order d,
        .promoted workspaceId tabId paneId created dropped)

/-- The first critical section of `worktree_open`: focus the workspace already
open at the path, renaming it when a label came along. -/
def worktreeOpenExisting (d : BuiltinData) (workspaceId : String)
    (label : Option String) : BuiltinData :=
  let d := match label with
    | none => d
    | some label => { d with
        workspaces := Table.modify d.workspaces workspaceId fun workspace =>
          { workspace with label := label } }
  let tabId := (d.workspaces.lookup workspaceId).bind (·.tabIds.head?)
  let paneId := (tabId.bind fun id => d.tabs.lookup id).bind (·.paneIds.head?)
  setFocus d (some workspaceId) tabId paneId

/-- Close one matching workspace if it is still there, noting its id. -/
def removeMatching :
    BuiltinData × List String → String → BuiltinData × List String
  | (d, dropped), workspaceId =>
    match dropWorkspace d workspaceId with
    | none => (d, dropped)
    | some d => (d, dropped ++ [workspaceId])

/-- Close every matching workspace that is still there. -/
def worktreeRemoveWorkspaces (d : BuiltinData) (matching : List String) :
    BuiltinData × List String :=
  matching.foldl removeMatching (d, [])

/-- A request answers with the outcome of its only critical section. -/
def answer (d : BuiltinData) : Except String BuiltinData → BuiltinData × Phase
  | .error message => (d, .finished (.error message))
  | .ok d => (d, .finished (.ok .ok))

/-- The first critical section of a request. -/
def receive (env : Environment) (d : BuiltinData) :
    Request → BuiltinData × Phase
  | .workspaceCreate cwd label openTerminal =>
    (d, .createWorkspace (cwd.getD env.currentDir) label false
      (openTerminal.getD true))
  | .workspaceRename workspaceId label =>
    answer d (renameWorkspace d workspaceId label)
  | .workspaceClose workspaceId =>
    answer d (closeWorkspace env.order d workspaceId)
  | .tabCreate workspaceId label focus =>
    match workspaceId.orElse fun _ => d.focusedWorkspaceId with
    | none => (d, .finished (.error "no workspace"))
    | some workspaceId =>
      match d.workspaces.lookup workspaceId with
      | none =>
        (d, .finished (.error s!"workspace {workspaceId} not found"))
      | some workspace =>
        (d, .createTabMint workspaceId workspace.cwd label
          (focus.getD true))
  | .tabRename tabId label => answer d (renameTab d tabId label)
  | .tabClose tabId => answer d (closeTab env.order d tabId)
  | .tabPromote tabId =>
    match d.tabs.lookup tabId with
    | none => (d, .finished (.error s!"tab {tabId} not found"))
    | some tab =>
      match tab.paneIds.head? with
      | none => (d, .finished (.error s!"tab {tabId} has no panes"))
      | some paneId =>
        match d.panes.lookup paneId with
        | none => (d, .finished (.error s!"pane {paneId} not found"))
        | some pane =>
          (d, .promoteTabProbe tabId paneId pane.terminalId pane.cwd)
  | .paneClose paneId => answer d (closePane env.order d paneId)
  | .agentStart name argv cwd =>
    let (ids, d) := mintAll d
    (d, .startAgentInsert ids name (if argv.isEmpty then [name] else argv)
      (cwd.getD env.currentDir))
  | .worktreeOpen path cwd label openTerminal =>
    match path.orElse fun _ => cwd with
    | none => (d, .finished (.error "path or cwd is required"))
    | some path =>
      match (workspacesAt env d ((env.canonicalize path).getD path)).head? with
      | some existing =>
        (worktreeOpenExisting d existing.workspaceId label,
          .finished (.ok (.workspace (some existing.workspaceId))))
      | none =>
        (d, .createWorkspace path label true (openTerminal.getD true))
  | .worktreeRemove workspaceId path repoRoot cwd =>
    match path with
    | some path =>
      (d, .worktreeRemoveMatch path
        ((repoRoot.orElse fun _ => cwd).getD env.currentDir))
    | none =>
      match workspaceId with
      | none => (d, .finished (.error "path is required"))
      | some workspaceId =>
        match d.workspaces.lookup workspaceId with
        | none =>
          (d, .finished (.error s!"workspace not found: {workspaceId}"))
        | some workspace =>
          (d, .worktreeRemoveMatch workspace.cwd workspace.cwd)

/-- The next critical section of a request that is under way. -/
def proceed (shell : String) (env : Environment) (d : BuiltinData) :
    Phase → Option (BuiltinData × Phase)
  | .idle | .finished _ => none
  | .received request => some (receive env d request)
  | .createWorkspace cwd label focus openTerminal =>
    let hasFocusTarget := focus || d.focusedWorkspaceId.isNone
    let (ids, d) := mintAll d
    some (d, .createWorkspaceInsert ids cwd
      (label.getD (workspaceLabel cwd)) focus openTerminal hasFocusTarget)
  | .createWorkspaceInsert ids cwd label focus openTerminal hasFocusTarget =>
    if openTerminal then
      -- Spawned with the lock released; a failed spawn inserts nothing.
      match env.spawn with
      | .error message => some (d, .finished (.error message))
      | .ok () =>
        some (createWorkspaceInsert shell d ids cwd label hasFocusTarget,
          .createWorkspaceReply ids.workspaceId)
    else
      some (createWorkspaceInsertEmpty d ids.workspaceId cwd label focus,
        .createWorkspaceReply ids.workspaceId)
  | .createWorkspaceReply workspaceId =>
    some (d, .finished (.ok (.workspace
      ((d.workspaces.lookup workspaceId).map (·.workspaceId)))))
  | .createTabMint workspaceId cwd label focus =>
    let (ids, d) := mintTab d workspaceId
    some (d, .createTabInsert ids cwd label focus)
  | .createTabInsert ids cwd label focus =>
    match env.spawn with
    | .error message => some (d, .finished (.error message))
    | .ok () =>
      match createTabInsert shell d ids cwd label focus with
      | .error message => some (d, .finished (.error message))
      | .ok d => some (d, .finished (.ok (.tab ids.tabId ids.paneId)))
  | .startAgentInsert ids name argv cwd =>
    match env.spawn with
    | .error message => some (d, .finished (.error message))
    | .ok () =>
      some (startAgentInsert d ids name argv cwd,
        .finished (.ok (.agent ids.paneId argv)))
  | .promoteTabProbe tabId paneId terminalId paneCwd =>
    -- A missing terminal or a failed probe falls back to the spawn path.
    let liveCwd := ((d.terminals.lookup terminalId).bind fun _ =>
      env.liveCwd).getD paneCwd
    some (d, .promoteTabCommit tabId paneId
      ((env.canonicalize liveCwd).getD liveCwd))
  | .promoteTabCommit tabId paneId canonicalLive =>
    match promoteTabCommit env d tabId paneId canonicalLive with
    | .error message => some (d, .finished (.error message))
    | .ok (d, reply) => some (d, .finished (.ok reply))
  | .worktreeRemoveMatch path repoRoot =>
    if env.isDir repoRoot then
      let removed :=
        if path.startsWith "/" then path else repoRoot ++ "/" ++ path
      let canonicalRemoved := (env.canonicalize removed).getD removed
      some (d, .worktreeRemoveGit (workspaceIdsAt env d canonicalRemoved))
    else
      some (d, .finished (.error s!"repo_root is not a directory: {repoRoot}"))
  | .worktreeRemoveGit matching =>
    match env.git with
    | .error message => some (d, .finished (.error message))
    | .ok () =>
      let (d, dropped) := worktreeRemoveWorkspaces d matching
      some (normalizeFocus env.order d,
        .finished (.ok (.removed dropped)))

inductive Action where
  | submit (request : Request)
  | proceed (env : Environment)

/-- One thread of the backend: it takes a request when it has none under way
and otherwise runs the request's next critical section. -/
def requestStep (shell : String) : Action → BuiltinData → Phase →
    Option (BuiltinData × Phase)
  | .submit request, d, .idle => some (d, .received request)
  | .submit request, d, .finished _ => some (d, .received request)
  | .submit _, _, _ => none
  | .proceed env, d, phase => Builtin.proceed shell env d phase

/-- The backend serving any number of requests at once. -/
def backend (shell : String) : Program BuiltinData Phase Action where
  init d := d = BuiltinData.new
  idle := .idle
  step := requestStep shell

/-- What the next critical section of a request that is under way can be. One that fails
leaves the registry alone. -/
inductive CriticalSection (shell : String) (env : Environment) (d : BuiltinData) :
    Phase → BuiltinData → Phase → Prop
  | received {request : Request} :
      CriticalSection shell env d (.received request) (receive env d request).1
        (receive env d request).2
  | fails {phase : Phase} {message : String} :
      CriticalSection shell env d phase d (.finished (.error message))
  | mintsWorkspace {cwd : Path} {label : Option String} {focus openTerminal : Bool} :
      CriticalSection shell env d (.createWorkspace cwd label focus openTerminal)
        (mintAll d).2
        (.createWorkspaceInsert (mintAll d).1 cwd (label.getD (workspaceLabel cwd)) focus
          openTerminal (focus || d.focusedWorkspaceId.isNone))
  | insertsTerminal {ids : FreshIds} {cwd : Path} {label : String}
      {focus hasFocusTarget : Bool} :
      env.spawn = .ok () →
      CriticalSection shell env d
        (.createWorkspaceInsert ids cwd label focus true hasFocusTarget)
        (createWorkspaceInsert shell d ids cwd label hasFocusTarget)
        (.createWorkspaceReply ids.workspaceId)
  | insertsEmpty {ids : FreshIds} {cwd : Path} {label : String}
      {focus hasFocusTarget : Bool} :
      CriticalSection shell env d
        (.createWorkspaceInsert ids cwd label focus false hasFocusTarget)
        (createWorkspaceInsertEmpty d ids.workspaceId cwd label focus)
        (.createWorkspaceReply ids.workspaceId)
  | replies {workspaceId : String} :
      CriticalSection shell env d (.createWorkspaceReply workspaceId) d
        (.finished (.ok (.workspace
          ((d.workspaces.lookup workspaceId).map (·.workspaceId)))))
  | mintsTab {workspaceId : String} {cwd : Path} {label : Option String} {focus : Bool} :
      CriticalSection shell env d (.createTabMint workspaceId cwd label focus)
        (mintTab d workspaceId).2
        (.createTabInsert (mintTab d workspaceId).1 cwd label focus)
  | insertsTab {ids : FreshIds} {cwd : Path} {label : Option String} {focus : Bool}
      {d' : BuiltinData} :
      createTabInsert shell d ids cwd label focus = .ok d' →
      CriticalSection shell env d (.createTabInsert ids cwd label focus) d'
        (.finished (.ok (.tab ids.tabId ids.paneId)))
  | insertsAgent {ids : FreshIds} {name : String} {argv : List String} {cwd : Path} :
      CriticalSection shell env d (.startAgentInsert ids name argv cwd)
        (startAgentInsert d ids name argv cwd) (.finished (.ok (.agent ids.paneId argv)))
  | probes {tabId paneId terminalId : String} {paneCwd liveCwd : Path} :
      CriticalSection shell env d (.promoteTabProbe tabId paneId terminalId paneCwd) d
        (.promoteTabCommit tabId paneId ((env.canonicalize liveCwd).getD liveCwd))
  | commits {tabId paneId : String} {canonicalLive : Path} {d' : BuiltinData}
      {reply : Reply} :
      promoteTabCommit env d tabId paneId canonicalLive = .ok (d', reply) →
      CriticalSection shell env d (.promoteTabCommit tabId paneId canonicalLive) d'
        (.finished (.ok reply))
  | scans {path repoRoot : Path} {matching : List String} :
      CriticalSection shell env d (.worktreeRemoveMatch path repoRoot) d
        (.worktreeRemoveGit matching)
  | removes {matching : List String} :
      CriticalSection shell env d (.worktreeRemoveGit matching)
        (normalizeFocus env.order (worktreeRemoveWorkspaces d matching).1)
        (.finished (.ok (.removed (worktreeRemoveWorkspaces d matching).2)))

section Cases

variable {shell : String} {d d' : BuiltinData} {phase phase' : Phase}

theorem proceed_cases {env : Environment} (h : proceed shell env d phase = some (d', phase')) :
    CriticalSection shell env d phase d' phase' := by
  cases phase with
  | idle | finished result => cases h
  | received request =>
    obtain ⟨rfl, rfl⟩ := Prod.mk.inj (Option.some.inj h)
    exact .received
  | createWorkspace cwd label focus openTerminal =>
    cases h
    exact .mintsWorkspace
  | createWorkspaceInsert ids cwd label focus openTerminal hasFocusTarget =>
    simp only [proceed] at h
    split at h
    · next hopen =>
        subst hopen
        split at h
        · cases h
          exact .fails
        · next hspawn =>
            cases h
            exact .insertsTerminal hspawn
    · next hopen =>
        obtain rfl := Bool.eq_false_iff.mpr hopen
        cases h
        exact .insertsEmpty
  | createWorkspaceReply workspaceId =>
    cases h
    exact .replies
  | createTabMint workspaceId cwd label focus =>
    cases h
    exact .mintsTab
  | createTabInsert ids cwd label focus =>
    simp only [proceed] at h
    split at h
    · cases h
      exact .fails
    · split at h
      · cases h
        exact .fails
      · next hinsert =>
          cases h
          exact .insertsTab hinsert
  | startAgentInsert ids name argv cwd =>
    simp only [proceed] at h
    split at h
    · cases h
      exact .fails
    · cases h
      exact .insertsAgent
  | promoteTabProbe tabId paneId terminalId paneCwd =>
    cases h
    exact .probes
  | promoteTabCommit tabId paneId canonicalLive =>
    simp only [proceed] at h
    split at h
    · cases h
      exact .fails
    · next hcommit =>
        cases h
        exact .commits hcommit
  | worktreeRemoveMatch path repoRoot =>
    simp only [proceed] at h
    split at h
    · cases h
      exact .scans
    · cases h
      exact .fails
  | worktreeRemoveGit matching =>
    simp only [proceed] at h
    split at h
    · cases h
      exact .fails
    · cases h
      exact .removes

/-- A step takes a request that a thread has no other under way for, or runs the next
critical section of the one it has. -/
theorem requestStep_cases {a : Action} (h : requestStep shell a d phase = some (d', phase')) :
    (∃ request, a = .submit request ∧ d' = d ∧ phase' = .received request ∧
      (phase = .idle ∨ ∃ result, phase = .finished result)) ∨
    ∃ env, a = .proceed env ∧ CriticalSection shell env d phase d' phase' := by
  cases a with
  | proceed env => exact .inr ⟨env, rfl, proceed_cases h⟩
  | submit request =>
    left
    cases phase with
    | idle =>
      cases h
      exact ⟨request, rfl, rfl, rfl, .inl rfl⟩
    | finished result =>
      cases h
      exact ⟨request, rfl, rfl, rfl, .inr ⟨result, rfl⟩⟩
    | _ => cases h

end Cases

end HerdrWebui.Builtin
