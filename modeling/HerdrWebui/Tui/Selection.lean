import HerdrWebui.Tui.Stamps

/-!
What the interface has selected (`tui/mod.rs`, `tui/workspace/mod.rs`): the
snapshot's lists with one index into the workspaces and one into the agents.
Every action resolves the pane and the workspace from these again, so each
function that replaces the lists or moves an index is a function on them alone.
-/

namespace HerdrWebui.Tui

inductive SidebarFocus where
  | workspaces
  | agents
  deriving DecidableEq

/-- `snapshot`, `selected_workspace` and `selected_agent`. -/
structure Selection where
  snapshot : TuiSnapshot
  selectedWorkspace : Nat
  selectedAgent : Nat
  deriving DecidableEq

def moveIndex (current len : Nat) (delta : Int) : Nat :=
  if len = 0 then 0
  else (max 0 (min ((min current (len - 1) : Nat) + delta) ((len - 1 : Nat) : Int))).toNat

namespace Selection

def empty : Selection := ⟨TuiSnapshot.empty, 0, 0⟩

/-- `selected_workspace`. -/
def workspace (s : Selection) : Option TuiWorkspace := s.snapshot.workspaces[s.selectedWorkspace]?

/-- `selected_agent`. -/
def agent (s : Selection) : Option TuiAgent := s.snapshot.agents[s.selectedAgent]?

/-- The pane of the agent cursor, if it lies in the selected workspace. -/
def agentPane (s : Selection) : Option TuiPane :=
  s.agent.bind fun agent =>
    (s.snapshot.panes.find? fun pane => pane.id = agent.paneId).filter fun pane =>
      s.workspace.map (·.id) = some pane.workspaceId

/-- The first pane of the selected workspace's active tab, or else of the
workspace. -/
def workspacePane (s : Selection) : Option TuiPane :=
  s.workspace.bind fun workspace =>
    (s.snapshot.panes.find? fun pane =>
        pane.workspaceId == workspace.id &&
          workspace.activeTabId.all (· == pane.tabId)).or
      (s.snapshot.panes.find? fun pane => pane.workspaceId = workspace.id)

/-- `selected_pane`. -/
def pane (s : Selection) : Option TuiPane := s.agentPane.or s.workspacePane

def paneId (s : Selection) : Option String := s.pane.map (·.id)

def workspaceId (s : Selection) : Option String := s.workspace.map (·.id)

def activeTabId (s : Selection) : Option String :=
  s.workspace.bind fun workspace =>
    workspace.activeTabId.or
      ((s.snapshot.workspaceTabs workspace.id).head?.map (·.id))

def activePanelLabel (s : Selection) : Option String :=
  s.activeTabId.bind fun tabId =>
    (s.snapshot.tabs.find? fun tab => tab.id = tabId).map (·.label)

/-- `clamp_selection`. -/
def clamped (s : Selection) : Selection :=
  { s with
    selectedWorkspace := min s.selectedWorkspace (s.snapshot.workspaces.length - 1)
    selectedAgent := min s.selectedAgent (s.snapshot.agents.length - 1) }

/-- The indices that `select_focused_items` sets. -/
def focusedItems (s : Selection) : Selection :=
  { s with
    selectedWorkspace :=
      (s.snapshot.workspaces.findIdx? (·.focused)).getD s.selectedWorkspace
    selectedAgent := (s.snapshot.agents.findIdx? (·.focused)).getD s.selectedAgent }

/-- The lists of a refresh at the kept indices: the focused items at the first
refresh, clamped at every one. -/
def landed (snapshot : TuiSnapshot) (firstRefresh : Bool) (s : Selection) : Selection :=
  let s := { s with snapshot }
  (if firstRefresh then s.focusedItems else s).clamped

/-- `move_selection`. -/
def moved (focus : SidebarFocus) (delta : Int) (s : Selection) : Selection :=
  match focus with
  | .workspaces =>
    { s with
      selectedWorkspace := moveIndex s.selectedWorkspace s.snapshot.workspaces.length delta }
  | .agents =>
    { s with selectedAgent := moveIndex s.selectedAgent s.snapshot.agents.length delta }

/-- The position of the tab `move_panel` starts from. -/
def currentPanel (s : Selection) (tabs : List TuiTab) (activeTabId : Option String) : Nat :=
  let ofAgent :=
    s.agent.bind fun agent =>
      (s.snapshot.panes.find? fun pane => pane.id = agent.paneId).bind fun pane =>
        tabs.findIdx? fun tab => tab.id = pane.tabId
  (ofAgent.or (tabs.findIdx? fun tab => some tab.id = activeTabId)).getD 0

/-- `move_panel`; none where it reports an error. -/
def panelMoved (delta : Int) (s : Selection) : Option Selection := do
  let workspace ← s.workspace
  let tabs := s.snapshot.workspaceTabs workspace.id
  let next := (s.currentPanel tabs workspace.activeTabId + delta) % (tabs.length : Int)
  let tab ← tabs[next.toNat]?
  let index :=
    (s.snapshot.panes.find? fun pane => pane.tabId = tab.id).bind fun pane =>
      s.snapshot.agents.findIdx? fun agent => agent.paneId = pane.id
  pure { s with selectedAgent := index.getD s.selectedAgent }

/-- `focus_workspace_by_id`; none where it leaves the selection alone. -/
def focusedById (id : String) (s : Selection) : Option Selection :=
  if id = "" then none
  else
    (s.snapshot.workspaces.findIdx? fun workspace => workspace.id = id).map fun index =>
      { s with selectedWorkspace := index }

/-- `autoclose_left_workspace`: the workspace left behind is closed once empty. -/
def leftClosed (previousId : Option String) (s : Selection) : Selection :=
  match previousId with
  | none => s
  | some previousId =>
    if previousId = "" ∨ s.workspaceId = some previousId then s
    else
      match s.snapshot.workspaces.find? fun workspace => workspace.id = previousId with
      | none => s
      | some workspace =>
        if 0 < workspace.tabCount ∨ 0 < workspace.paneCount then s
        else
          clamped
            { s with
              snapshot :=
                { s.snapshot with
                  workspaces :=
                    s.snapshot.workspaces.filter fun workspace =>
                      workspace.id ≠ previousId } }

/-- `select_search_target` of a pane: its agent's row and workspace. -/
def targetPane (paneId : String) (s : Selection) : Option Selection :=
  (s.snapshot.agents.findIdx? fun agent => agent.paneId = paneId).map fun index =>
    let owner := s.snapshot.agents[index]?.map (·.workspaceId)
    { s with
      selectedAgent := index
      selectedWorkspace :=
        (s.snapshot.workspaces.findIdx? fun workspace => some workspace.id = owner).getD
          s.selectedWorkspace }

/-- Where `select_search_target` leads: the selection and the focused list, and
whether the tail is read again. -/
structure Target where
  selection : Selection
  focus : SidebarFocus
  reads : Bool

/-- `select_search_target` of a pane whose row is looked for last. -/
def targetPaneOr (paneId : String) (focus : SidebarFocus) (s : Selection) : Target :=
  match s.targetPane paneId with
  | some selection => ⟨selection, .agents, true⟩
  | none => ⟨s, focus, false⟩

/-- `select_search_target` of a workspace. -/
def targetWorkspace (workspaceId : String) (focus : SidebarFocus) (s : Selection) : Target :=
  match s.snapshot.workspaces.findIdx? fun workspace => workspace.id = workspaceId with
  | none => ⟨s, focus, false⟩
  | some index =>
    let s := { s with selectedWorkspace := index }
    let active :=
      (s.workspace.bind (·.activeTabId)).bind fun tabId =>
        s.snapshot.panes.find? fun pane =>
          pane.workspaceId = workspaceId ∧ pane.tabId = tabId
    match active with
    | some pane => s.targetPaneOr pane.id .workspaces
    | none => ⟨s, .workspaces, true⟩

/-- `select_search_target`. -/
def searchTarget (workspaceId tabId paneId : Option String) (focus : SidebarFocus)
    (s : Selection) : Target :=
  match paneId.bind fun paneId => s.targetPane paneId with
  | some selection => ⟨selection, .agents, true⟩
  | none =>
    match tabId.bind fun tabId => s.snapshot.panes.find? fun pane => pane.tabId = tabId with
    | some pane => s.targetPaneOr pane.id focus
    | none =>
      match workspaceId with
      | some workspaceId => s.targetWorkspace workspaceId focus
      | none => ⟨s, focus, false⟩

end Selection

end HerdrWebui.Tui
