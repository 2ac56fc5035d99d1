import HerdrWebui.Data.ByteIndex
import HerdrWebui.Data.HoldBack
import HerdrWebui.Tui.Keys

/-!
The local rows of the search palette (`tui/search.rs`) and where a chosen one leads. Lowercasing is
Rust's own table of Unicode, a parameter.
-/

namespace HerdrWebui.Tui

/-- A workspace with its label. -/
structure SearchWorkspace extends TuiWorkspace where
  label : String

/-- An agent with what it is found by. -/
structure SearchAgent extends TuiAgent where
  terminalId : String
  agent : Option String
  displayAgent : Option String

/-- The snapshot with what the palette reads of it. -/
structure SearchSnapshot where
  workspaces : List SearchWorkspace
  tabs : List TuiTab
  panes : List TuiPane
  agents : List SearchAgent

def SearchSnapshot.rows (snapshot : SearchSnapshot) : TuiSnapshot where
  workspaces := snapshot.workspaces.map (·.toTuiWorkspace)
  tabs := snapshot.tabs
  panes := snapshot.panes
  agents := snapshot.agents.map (·.toTuiAgent)

/-- The candidates of `local_candidates`; the others are fetched. -/
inductive SearchCandidate where
  | workspace (id label : String)
  | panel (id label workspaceId : String)
  | agent (paneId label : String)
  deriving DecidableEq

/-- `search_score`, with the byte at which the text is found. -/
def searchScore (text needle : String) : Int :=
  match indexOf needle.toList text.toList with
  | none => -1
  | some i =>
    if text = needle then 0
    else if hasPrefix needle text then 1
    else 10 + byteLength (text.toList.take i)

structure Scored where
  score : Int
  title : String
  candidate : SearchCandidate

/-- Better scores first, then titles in order. -/
def Scored.le (a b : Scored) : Bool := a.score < b.score ∨ a.score = b.score ∧ a.title ≤ b.title

def scoredRow (needle text title : String) (candidate : SearchCandidate) : Option Scored :=
  if 0 ≤ searchScore text needle then some ⟨searchScore text needle, title, candidate⟩ else none

def maxLocalResults : Nat := 12

section Candidates

variable (toLowercase : String → String)

def workspaceRow (needle : String) (workspace : SearchWorkspace) : Option Scored :=
  scoredRow needle
    ("workspace " ++ toLowercase workspace.label ++ " " ++ toLowercase workspace.id)
    workspace.label (.workspace workspace.id workspace.label)

def panelRow (needle : String) (tab : TuiTab) : Option Scored :=
  scoredRow needle ("panel " ++ toLowercase tab.label ++ " " ++ toLowercase tab.id) tab.label
    (.panel tab.id tab.label tab.workspaceId)

def agentRow (needle : String) (agent : SearchAgent) : Option Scored :=
  let label := (agent.displayAgent.or agent.agent).getD "agent"
  scoredRow needle
    ("agent " ++ toLowercase label ++ " " ++ toLowercase agent.paneId ++ " " ++
      toLowercase agent.terminalId)
    label (.agent agent.paneId label)

def localCandidates (snapshot : SearchSnapshot) (query : String) : List SearchCandidate :=
  let needle := toLowercase (trim query)
  if needle = "" then []
  else
    let scored :=
      snapshot.workspaces.filterMap (workspaceRow toLowercase needle) ++
        snapshot.tabs.filterMap (panelRow toLowercase needle) ++
          snapshot.agents.filterMap (agentRow toLowercase needle)
    ((scored.mergeSort Scored.le).take maxLocalResults).map Scored.candidate

end Candidates

/-- `run_search_candidate` of a local candidate. -/
def TuiApp.runSearchCandidate (w : World) (app : TuiApp) : SearchCandidate → TuiApp
  | .workspace id _ => app.selectSearchTarget w 0 (some id) none none
  | .panel id _ workspaceId => app.selectSearchTarget w 0 (some workspaceId) (some id) none
  | .agent paneId _ => app.selectSearchTarget w 0 none none (some paneId)

/-- A candidate is of a row of the snapshot. -/
def SearchCandidate.IsRow (rows : TuiSnapshot) : SearchCandidate → Prop
  | .workspace id _ => id ∈ rows.workspaces.map (·.id)
  | .panel id _ workspaceId => ∃ tab ∈ rows.tabs, tab.id = id ∧ tab.workspaceId = workspaceId
  | .agent paneId _ => paneId ∈ rows.agents.map (·.paneId)

theorem candidate_of_scoredRow {needle text title : String} {candidate : SearchCandidate}
    {scored : Scored} (h : scoredRow needle text title candidate = some scored) :
    scored.candidate = candidate := by
  rw [scoredRow] at h
  split at h
  · exact congrArg Scored.candidate (Option.some.inj h).symm
  · cases h

theorem isRow_of_mem_localCandidates {toLowercase : String → String} {snapshot : SearchSnapshot}
    {query : String} {candidate : SearchCandidate}
    (h : candidate ∈ localCandidates toLowercase snapshot query) :
    candidate.IsRow snapshot.rows := by
  rw [localCandidates] at h
  split at h
  · cases h
  · obtain ⟨scored, hscored, rfl⟩ := List.mem_map.mp h
    have hmem := List.mem_mergeSort.mp (List.mem_of_mem_take hscored)
    simp only [List.mem_append, List.mem_filterMap] at hmem
    rcases hmem with (⟨workspace, hrow, heq⟩ | ⟨tab, hrow, heq⟩) | ⟨agent, hrow, heq⟩
    · rw [candidate_of_scoredRow heq]
      exact List.mem_map.mpr ⟨_, List.mem_map_of_mem hrow, rfl⟩
    · rw [candidate_of_scoredRow heq]
      exact ⟨tab, hrow, rfl, rfl⟩
    · rw [candidate_of_scoredRow heq]
      exact List.mem_map.mpr ⟨_, List.mem_map_of_mem hrow, rfl⟩

/-- The references of a snapshot of the backend: ids name one row each, and a row that another one
names is there, of the same workspace. -/
structure TuiSnapshot.Integral (rows : TuiSnapshot) : Prop where
  workspaceIds : (rows.workspaces.map (·.id)).Nodup
  tabIds : (rows.tabs.map (·.id)).Nodup
  paneIds : (rows.panes.map (·.id)).Nodup
  tabs : ∀ tab ∈ rows.tabs, tab.workspaceId ∈ rows.workspaces.map (·.id)
  activeTabs : ∀ workspace ∈ rows.workspaces, ∀ tabId ∈ workspace.activeTabId,
    ∃ tab ∈ rows.tabs, tab.id = tabId ∧ tab.workspaceId = workspace.id
  panes : ∀ pane ∈ rows.panes,
    ∃ tab ∈ rows.tabs, tab.id = pane.tabId ∧ tab.workspaceId = pane.workspaceId
  agents : ∀ agent ∈ rows.agents,
    ∃ pane ∈ rows.panes, pane.id = agent.paneId ∧ pane.workspaceId = agent.workspaceId

namespace Selection

variable (s : Selection)

def activeTabOf (workspaceId : String) : Option String :=
  (s.snapshot.workspaces.find? fun workspace => workspace.id = workspaceId).bind (·.activeTabId)

/-- The workspace and its active tab, if that has a pane, are what is selected. -/
def OnWorkspace (workspaceId : String) : Prop :=
  s.workspaceId = some workspaceId ∧
    ∃ pane, s.pane = some pane ∧ pane.workspaceId = workspaceId ∧
      ∀ tabId ∈ s.activeTabOf workspaceId,
        (∃ other ∈ s.snapshot.panes, other.tabId = tabId) → pane.tabId = tabId

def OnPanel (tabId workspaceId : String) : Prop :=
  s.workspaceId = some workspaceId ∧ ∃ pane, s.pane = some pane ∧ pane.tabId = tabId

/-- The agent's pane is selected, in its workspace. -/
def OnAgent (paneId : String) : Prop :=
  ∃ pane, s.pane = some pane ∧ pane.id = paneId ∧ s.workspaceId = some pane.workspaceId

/-- What a candidate stands for is selected. -/
def On : SearchCandidate → Prop
  | .workspace id _ => s.OnWorkspace id
  | .panel id _ workspaceId => s.OnPanel id workspaceId
  | .agent paneId _ => s.OnAgent paneId

def HasAgent (paneId : String) : Prop := ∃ agent ∈ s.snapshot.agents, agent.paneId = paneId

def firstPane (tabId : String) : Option TuiPane :=
  s.snapshot.panes.find? fun pane => pane.tabId = tabId

/-- When a candidate gets there: the first pane of its tab has an agent, or the selection is right
as it is. The agent cursor can stay on another tab of a workspace. -/
def Reaches : SearchCandidate → Prop
  | .workspace id _ =>
    match (s.activeTabOf id).bind s.firstPane with
    | some pane =>
      s.HasAgent pane.id ∨
        ∀ agent ∈ s.agent, ∀ other ∈ s.snapshot.panes, other.id = agent.paneId →
          other.workspaceId = id → other.tabId = pane.tabId
    | none => ∃ pane ∈ s.snapshot.panes, pane.workspaceId = id
  | .panel id _ workspaceId =>
    ∃ pane, s.firstPane id = some pane ∧ (s.HasAgent pane.id ∨ s.OnPanel id workspaceId)
  | .agent _ _ => True

section Targets

variable {s : Selection} {pane : TuiPane}

theorem pane_mem (h : s.pane = some pane) : pane ∈ s.snapshot.panes := by
  rcases Option.or_eq_some_iff.mp h with hagent | ⟨-, hworkspace⟩
  · obtain ⟨agent, -, hfind⟩ := Option.bind_eq_some_iff.mp hagent
    exact List.mem_of_find?_eq_some (Option.filter_eq_some_iff.mp hfind).1
  · obtain ⟨workspace, -, hfind⟩ := Option.bind_eq_some_iff.mp hworkspace
    rcases Option.or_eq_some_iff.mp hfind with hfind | ⟨-, hfind⟩
    · exact List.mem_of_find?_eq_some hfind
    · exact List.mem_of_find?_eq_some hfind

end Targets

end Selection

namespace TuiSnapshot.Integral

variable {s : Selection} {pane : TuiPane} {id : String}

theorem eq_of_paneId (h : s.snapshot.Integral) {other : TuiPane} (hpane : pane ∈ s.snapshot.panes)
    (hother : other ∈ s.snapshot.panes) (heq : pane.id = other.id) : pane = other :=
  List.inj_on_of_nodup_map h.paneIds hpane hother heq

theorem find?_pane (h : s.snapshot.Integral) (hpane : pane ∈ s.snapshot.panes) :
    (s.snapshot.panes.find? fun other => other.id = pane.id) = some pane := by
  have hsome : (s.snapshot.panes.find? fun other => other.id = pane.id).isSome := by
    rw [List.find?_isSome]
    exact ⟨pane, hpane, decide_eq_true rfl⟩
  obtain ⟨other, hother⟩ := Option.isSome_iff_exists.mp hsome
  have hid := List.find?_some (p := fun other : TuiPane => decide (other.id = pane.id)) hother
  rw [hother, h.eq_of_paneId (List.mem_of_find?_eq_some hother) hpane (of_decide_eq_true hid)]

theorem workspace_of_pane (h : s.snapshot.Integral) (hpane : pane ∈ s.snapshot.panes) :
    pane.workspaceId ∈ s.snapshot.workspaces.map (·.id) := by
  obtain ⟨tab, htab, -, heq⟩ := h.panes pane hpane
  exact heq ▸ h.tabs tab htab

theorem workspace_of_tab (h : s.snapshot.Integral) (hpane : pane ∈ s.snapshot.panes)
    {tab : TuiTab} (htab : tab ∈ s.snapshot.tabs) (heq : pane.tabId = tab.id) :
    pane.workspaceId = tab.workspaceId := by
  obtain ⟨other, hother, hid, hworkspace⟩ := h.panes pane hpane
  rw [← hworkspace, List.inj_on_of_nodup_map h.tabIds hother htab (hid.trans heq)]

theorem exists_workspace (hid : id ∈ s.snapshot.workspaces.map (·.id)) :
    ∃ index workspace,
      (s.snapshot.workspaces.findIdx? fun workspace => workspace.id = id) = some index ∧
      s.snapshot.workspaces[index]? = some workspace ∧ workspace.id = id := by
  obtain ⟨workspace, hmem, rfl⟩ := List.mem_map.mp hid
  have hsome : (s.snapshot.workspaces.findIdx? fun other => other.id = workspace.id).isSome := by
    rw [List.findIdx?_isSome, List.any_eq_true]
    exact ⟨workspace, hmem, decide_eq_true rfl⟩
  obtain ⟨index, hindex⟩ := Option.isSome_iff_exists.mp hsome
  obtain ⟨hlt, hp, -⟩ := List.findIdx?_eq_some_iff_getElem.mp hindex
  exact ⟨index, _, hindex, List.getElem?_eq_getElem hlt, of_decide_eq_true hp⟩

theorem targetPane_eq (h : s.snapshot.Integral) (hpane : pane ∈ s.snapshot.panes)
    (hagent : s.HasAgent pane.id) :
    ∃ target, s.targetPane pane.id = some target ∧ target.snapshot = s.snapshot ∧
      target.pane = some pane ∧ target.workspaceId = some pane.workspaceId := by
  have hsome : (s.snapshot.agents.findIdx? fun agent => agent.paneId = pane.id).isSome := by
    obtain ⟨agent, hmem, heq⟩ := hagent
    rw [List.findIdx?_isSome, List.any_eq_true]
    exact ⟨agent, hmem, decide_eq_true heq⟩
  obtain ⟨row, hrow⟩ := Option.isSome_iff_exists.mp hsome
  obtain ⟨hlt, hp, -⟩ := List.findIdx?_eq_some_iff_getElem.mp hrow
  have hpaneId := of_decide_eq_true hp
  obtain ⟨other, hother, hid, hworkspace⟩ := h.agents _ (List.getElem_mem hlt)
  obtain rfl := h.eq_of_paneId hother hpane (hid.trans hpaneId)
  obtain ⟨index, workspace, hindex, hget, hworkspaceId⟩ :=
    exists_workspace (h.workspace_of_pane hpane)
  have htarget : s.targetPane other.id =
      some { s with selectedAgent := row, selectedWorkspace := index } := by
    rw [Selection.targetPane, hrow, Option.map_some, List.getElem?_eq_getElem hlt, Option.map_some,
      ← hworkspace]
    simp only [Option.some.injEq]
    rw [hindex, Option.getD_some]
  refine ⟨_, htarget, rfl, ?_, ?_⟩
  · have hagentPane : Selection.agentPane
        { s with selectedAgent := row, selectedWorkspace := index } = some other := by
      rw [Selection.agentPane, Selection.agent, List.getElem?_eq_getElem hlt, Option.bind_some,
        hpaneId, h.find?_pane hpane, Option.filter_some, Selection.workspace, hget, Option.map_some,
        hworkspaceId, if_pos (decide_eq_true rfl)]
    rw [Selection.pane, hagentPane, Option.some_or]
  · rw [Selection.workspaceId, Selection.workspace, hget, Option.map_some, hworkspaceId]

theorem targetPane_eq_none {paneId : String} (h : ¬s.HasAgent paneId) :
    s.targetPane paneId = none := by
  have hnone : (s.snapshot.agents.findIdx? fun agent => agent.paneId = paneId) = none :=
    List.findIdx?_eq_none_iff.mpr fun agent hmem => decide_eq_false fun heq => h ⟨agent, hmem, heq⟩
  rw [Selection.targetPane, hnone, Option.map_none]

theorem onAgent_of_searchTarget (h : s.snapshot.Integral) (focus : SidebarFocus) {paneId : String}
    (hrow : paneId ∈ s.snapshot.agents.map (·.paneId)) :
    (s.searchTarget none none (some paneId) focus).selection.OnAgent paneId := by
  obtain ⟨agent, hagent, rfl⟩ := List.mem_map.mp hrow
  obtain ⟨pane, hpane, hid, -⟩ := h.agents agent hagent
  rw [← hid]
  obtain ⟨target, htarget, -, hselected, hworkspace⟩ :=
    h.targetPane_eq hpane ⟨agent, hagent, hid.symm⟩
  rw [Selection.searchTarget, Option.bind_some, htarget]
  exact ⟨pane, hselected, rfl, hworkspace⟩

theorem firstPane_mem {tabId : String} (h : s.firstPane tabId = some pane) :
    pane ∈ s.snapshot.panes ∧ pane.tabId = tabId :=
  ⟨List.mem_of_find?_eq_some h,
    of_decide_eq_true (List.find?_some (p := fun pane : TuiPane => decide (pane.tabId = tabId)) h)⟩

theorem targetPaneOr_snapshot (h : s.snapshot.Integral) (hpane : pane ∈ s.snapshot.panes)
    (focus : SidebarFocus) :
    (s.targetPaneOr pane.id focus).selection.snapshot = s.snapshot := by
  by_cases hagent : s.HasAgent pane.id
  · obtain ⟨target, htarget, hsnapshot, -⟩ := h.targetPane_eq hpane hagent
    rw [Selection.targetPaneOr, htarget]
    exact hsnapshot
  · rw [Selection.targetPaneOr, targetPane_eq_none hagent]

/-- A pane that an agent runs in is selected, and nothing else changes the selection. -/
theorem targetPaneOr_cases (h : s.snapshot.Integral) (hpane : pane ∈ s.snapshot.panes)
    (focus : SidebarFocus) :
    (s.HasAgent pane.id ∧ (s.targetPaneOr pane.id focus).selection.pane = some pane ∧
      (s.targetPaneOr pane.id focus).selection.workspaceId = some pane.workspaceId) ∨
    (¬s.HasAgent pane.id ∧ (s.targetPaneOr pane.id focus).selection = s) := by
  by_cases hagent : s.HasAgent pane.id
  · obtain ⟨target, htarget, -, hselected, hworkspace⟩ := h.targetPane_eq hpane hagent
    rw [Selection.targetPaneOr, htarget]
    exact .inl ⟨hagent, hselected, hworkspace⟩
  · rw [Selection.targetPaneOr, targetPane_eq_none hagent]
    exact .inr ⟨hagent, rfl⟩

theorem targetWorkspace_snapshot (h : s.snapshot.Integral) (workspaceId : String)
    (focus : SidebarFocus) :
    (s.targetWorkspace workspaceId focus).selection.snapshot = s.snapshot := by
  rw [Selection.targetWorkspace]
  split
  · rfl
  · next index _ =>
      dsimp only
      split
      · next pane hactive =>
          obtain ⟨tabId, -, hfind⟩ := Option.bind_eq_some_iff.mp hactive
          exact targetPaneOr_snapshot (s := { s with selectedWorkspace := index }) h
            (List.mem_of_find?_eq_some hfind) .workspaces
      · rfl

theorem onPanel_searchTarget_iff (h : s.snapshot.Integral) (focus : SidebarFocus) {tab : TuiTab}
    (htab : tab ∈ s.snapshot.tabs) :
    (s.searchTarget (some tab.workspaceId) (some tab.id) none focus).selection.OnPanel tab.id
        tab.workspaceId ↔
      ∃ pane, s.firstPane tab.id = some pane ∧
        (s.HasAgent pane.id ∨ s.OnPanel tab.id tab.workspaceId) := by
  cases hfirst : s.firstPane tab.id with
  | none =>
    have htarget : s.searchTarget (some tab.workspaceId) (some tab.id) none focus =
        s.targetWorkspace tab.workspaceId focus := by
      rw [Selection.searchTarget, Option.bind_none, Option.bind_some,
        show s.snapshot.panes.find? _ = _ from hfirst]
    rw [htarget]
    constructor
    · rintro ⟨-, pane, hpane, htabId⟩
      have hmem := Selection.pane_mem hpane
      rw [targetWorkspace_snapshot h] at hmem
      exact absurd (decide_eq_true htabId) (List.find?_eq_none.mp hfirst pane hmem)
    · rintro ⟨_, hnone, -⟩
      cases hnone
  | some pane =>
    have htarget : s.searchTarget (some tab.workspaceId) (some tab.id) none focus =
        s.targetPaneOr pane.id focus := by
      rw [Selection.searchTarget, Option.bind_none, Option.bind_some,
        show s.snapshot.panes.find? _ = _ from hfirst]
    obtain ⟨hmem, htabId⟩ := firstPane_mem hfirst
    rw [htarget]
    simp only [Option.some.injEq, exists_eq_left']
    rcases targetPaneOr_cases h hmem focus with ⟨hagent, hpane, hworkspace⟩ | ⟨hagent, heq⟩
    · refine iff_of_true ⟨?_, pane, hpane, htabId⟩ (.inl hagent)
      rw [hworkspace, h.workspace_of_tab hmem htab htabId]
    · rw [heq, or_iff_right hagent]

theorem activeTabOf_eq (h : s.snapshot.Integral) {workspace : TuiWorkspace}
    (hmem : workspace ∈ s.snapshot.workspaces) :
    s.activeTabOf workspace.id = workspace.activeTabId := by
  have hsome : (s.snapshot.workspaces.find? fun other => other.id = workspace.id).isSome := by
    rw [List.find?_isSome]
    exact ⟨workspace, hmem, decide_eq_true rfl⟩
  obtain ⟨other, hother⟩ := Option.isSome_iff_exists.mp hsome
  have hid := List.find?_some (p := fun other : TuiWorkspace => decide (other.id = workspace.id))
    hother
  have heq := List.inj_on_of_nodup_map h.workspaceIds (List.mem_of_find?_eq_some hother) hmem
    (of_decide_eq_true hid)
  rw [Selection.activeTabOf, hother, Option.bind_some, heq]

theorem workspace_of_activeTab (h : s.snapshot.Integral) {workspace : TuiWorkspace}
    (hmem : workspace ∈ s.snapshot.workspaces) (hpane : pane ∈ s.snapshot.panes)
    (hactive : workspace.activeTabId = some pane.tabId) : pane.workspaceId = workspace.id := by
  obtain ⟨tab, htab, hid, hworkspace⟩ := h.activeTabs workspace hmem _ hactive
  rw [h.workspace_of_tab hpane htab hid.symm, hworkspace]

theorem activePane_eq (h : s.snapshot.Integral) {workspace : TuiWorkspace}
    (hmem : workspace ∈ s.snapshot.workspaces) :
    (workspace.activeTabId.bind fun tabId => s.snapshot.panes.find? fun pane =>
        pane.workspaceId = workspace.id ∧ pane.tabId = tabId) =
      workspace.activeTabId.bind s.firstPane := by
  cases hactive : workspace.activeTabId with
  | none => rfl
  | some tabId =>
    refine List.find?_congr fun pane hpane => ?_
    rw [decide_eq_decide]
    refine and_iff_right_of_imp fun heq => ?_
    exact h.workspace_of_activeTab hmem hpane (heq ▸ hactive)

theorem agentPane_eq_some_iff (h : s.snapshot.Integral) (hid : s.workspaceId = some id) :
    s.agentPane = some pane ↔
      ∃ agent ∈ s.agent, pane ∈ s.snapshot.panes ∧ pane.id = agent.paneId ∧
        pane.workspaceId = id := by
  rw [Selection.workspaceId] at hid
  rw [Selection.agentPane, Option.bind_eq_some_iff]
  refine exists_congr fun agent => and_congr_right fun _ => ?_
  rw [Option.filter_eq_some_iff, hid]
  constructor
  · rintro ⟨hfind, hworkspace⟩
    have heq := List.find?_some (p := fun pane : TuiPane => decide (pane.id = agent.paneId)) hfind
    exact ⟨List.mem_of_find?_eq_some hfind, of_decide_eq_true heq,
      (Option.some.inj (of_decide_eq_true hworkspace)).symm⟩
  · rintro ⟨hpane, heq, rfl⟩
    rw [← heq]
    exact ⟨h.find?_pane hpane, decide_eq_true rfl⟩

theorem exists_workspace_of_id (hid : s.workspaceId = some id) :
    ∃ workspace, s.workspace = some workspace ∧ workspace ∈ s.snapshot.workspaces ∧
      workspace.id = id := by
  obtain ⟨workspace, hworkspace, heq⟩ := Option.map_eq_some_iff.mp hid
  exact ⟨workspace, hworkspace, List.mem_of_getElem? hworkspace, heq⟩

theorem exists_pane (h : s.snapshot.Integral) (hid : s.workspaceId = some id)
    (hpane : ∃ pane ∈ s.snapshot.panes, pane.workspaceId = id) :
    ∃ pane, s.pane = some pane ∧ pane.workspaceId = id := by
  obtain ⟨workspace, hworkspace, -, rfl⟩ := exists_workspace_of_id hid
  cases hagent : s.agentPane with
  | some pane =>
    obtain ⟨_, -, -, -, heq⟩ := (h.agentPane_eq_some_iff hid).mp hagent
    exact ⟨pane, by rw [Selection.pane, hagent, Option.some_or], heq⟩
  | none =>
    have hsome : (s.snapshot.panes.find? fun pane => pane.workspaceId = workspace.id).isSome := by
      rw [List.find?_isSome]
      obtain ⟨pane, hpane, heq⟩ := hpane
      exact ⟨pane, hpane, decide_eq_true heq⟩
    obtain ⟨own, hown⟩ := Option.isSome_iff_exists.mp hsome
    rw [Selection.pane, hagent, Option.none_or, Selection.workspacePane, hworkspace,
      Option.bind_some, hown]
    cases hactive : s.snapshot.panes.find? fun pane =>
        pane.workspaceId == workspace.id && workspace.activeTabId.all (· == pane.tabId) with
    | some pane =>
      have hp := List.find?_some (p := fun pane : TuiPane =>
        pane.workspaceId == workspace.id && workspace.activeTabId.all (· == pane.tabId)) hactive
      exact ⟨pane, rfl, eq_of_beq (Bool.and_eq_true_iff.mp hp).1⟩
    | none =>
      have hp := List.find?_some
        (p := fun pane : TuiPane => decide (pane.workspaceId = workspace.id)) hown
      exact ⟨own, rfl, of_decide_eq_true hp⟩

theorem onWorkspace_iff_of_none (h : s.snapshot.Integral) (hid : s.workspaceId = some id)
    (hnone : (s.activeTabOf id).bind s.firstPane = none) :
    s.OnWorkspace id ↔ ∃ pane ∈ s.snapshot.panes, pane.workspaceId = id := by
  constructor
  · rintro ⟨-, pane, hpane, hworkspace, -⟩
    exact ⟨pane, Selection.pane_mem hpane, hworkspace⟩
  · intro hpane
    obtain ⟨pane, hselected, hworkspace⟩ := h.exists_pane hid hpane
    refine ⟨hid, pane, hselected, hworkspace, fun tabId htabId ⟨other, hother, heq⟩ => ?_⟩
    have hfirst := Option.bind_eq_none_iff.mp hnone tabId htabId
    exact absurd (decide_eq_true heq) (List.find?_eq_none.mp hfirst other hother)

/-- A workspace whose active tab has a pane: that is selected, or the agent cursor's. -/
theorem onWorkspace_iff_of_some (h : s.snapshot.Integral) (hid : s.workspaceId = some id)
    (hfirst : (s.activeTabOf id).bind s.firstPane = some pane) :
    s.OnWorkspace id ↔ ∀ agent ∈ s.agent, ∀ other ∈ s.snapshot.panes, other.id = agent.paneId →
      other.workspaceId = id → other.tabId = pane.tabId := by
  obtain ⟨workspace, hworkspace, hmem, rfl⟩ := exists_workspace_of_id hid
  obtain ⟨tabId, hactive, htab⟩ := Option.bind_eq_some_iff.mp hfirst
  obtain ⟨hpane, rfl⟩ := firstPane_mem htab
  constructor
  · rintro ⟨-, shown, hshown, -, hon⟩ agent hagent other hother heq hother'
    have hagentPane := (h.agentPane_eq_some_iff hid).mpr ⟨agent, hagent, hother, heq, hother'⟩
    rw [Selection.pane, hagentPane, Option.some_or] at hshown
    obtain rfl := Option.some.inj hshown
    exact hon _ hactive ⟨pane, hpane, rfl⟩
  · intro hcursor
    have hon : ∀ shown : TuiPane, shown.tabId = pane.tabId →
        ∀ tabId ∈ s.activeTabOf workspace.id,
          (∃ other ∈ s.snapshot.panes, other.tabId = tabId) → shown.tabId = tabId := by
      intro shown heq tabId htabId _
      rw [heq]
      exact Option.some.inj (hactive.symm.trans htabId)
    cases hagent : s.agentPane with
    | some shown =>
      obtain ⟨agent, hagent', hshown, heq, hsame⟩ := (h.agentPane_eq_some_iff hid).mp hagent
      exact ⟨hid, shown, by rw [Selection.pane, hagent, Option.some_or], hsame,
        hon shown (hcursor agent hagent' shown hshown heq hsame)⟩
    | none =>
      have hown : (s.snapshot.panes.find? fun pane => pane.workspaceId == workspace.id &&
          workspace.activeTabId.all (· == pane.tabId)) = some pane := by
        rw [h.activeTabOf_eq hmem] at hactive hfirst
        rw [← hfirst, ← h.activePane_eq hmem, hactive, Option.bind_some]
        refine List.find?_congr fun other _ => ?_
        rw [Option.all_some, Bool.eq_iff_iff, Bool.and_eq_true, beq_iff_eq, beq_iff_eq,
          decide_eq_true_iff, eq_comm (a := pane.tabId)]
      have hselected : s.pane = some pane := by
        rw [Selection.pane, hagent, Option.none_or, Selection.workspacePane, hworkspace,
          Option.bind_some, hown, Option.some_or]
      have hsame : pane.workspaceId = workspace.id := by
        rw [h.activeTabOf_eq hmem] at hactive
        exact h.workspace_of_activeTab hmem hpane hactive
      exact ⟨hid, pane, hselected, hsame, hon pane rfl⟩

theorem onWorkspace_searchTarget_iff (h : s.snapshot.Integral) (focus : SidebarFocus)
    (hrow : id ∈ s.snapshot.workspaces.map (·.id)) (label : String) :
    (s.searchTarget (some id) none none focus).selection.OnWorkspace id ↔
      s.Reaches (.workspace id label) := by
  obtain ⟨index, workspace, hindex, hget, rfl⟩ := exists_workspace hrow
  have hmem := List.mem_of_getElem? hget
  let cursor : Selection := { s with selectedWorkspace := index }
  have hid : cursor.workspaceId = some workspace.id := by
    rw [Selection.workspaceId, show cursor.workspace = some workspace from hget, Option.map_some]
  have hactive : (cursor.workspace.bind (·.activeTabId)).bind (fun tabId =>
      s.snapshot.panes.find? fun pane => pane.workspaceId = workspace.id ∧ pane.tabId = tabId) =
      (s.activeTabOf workspace.id).bind s.firstPane := by
    rw [show cursor.workspace = some workspace from hget, Option.bind_some, h.activePane_eq hmem,
      h.activeTabOf_eq hmem]
  have htarget : s.searchTarget (some workspace.id) none none focus =
      match (s.activeTabOf workspace.id).bind s.firstPane with
      | some pane => cursor.targetPaneOr pane.id .workspaces
      | none => ⟨cursor, .workspaces, true⟩ := by
    rw [Selection.searchTarget, Option.bind_none, Option.bind_none]
    dsimp only
    rw [Selection.targetWorkspace, hindex]
    dsimp only
    rw [hactive]
    all_goals cases (s.activeTabOf workspace.id).bind s.firstPane <;> rfl
  rw [htarget, Selection.Reaches]
  cases hfirst : (s.activeTabOf workspace.id).bind s.firstPane with
  | none => exact onWorkspace_iff_of_none (s := cursor) h hid hfirst
  | some pane =>
    obtain ⟨tabId, hactiveTab, htab⟩ := Option.bind_eq_some_iff.mp hfirst
    obtain ⟨hpane, rfl⟩ := firstPane_mem htab
    rcases targetPaneOr_cases (s := cursor) h hpane .workspaces with
      ⟨hagent, hselected, hworkspace⟩ | ⟨hagent, heq⟩
    · have hsame : pane.workspaceId = workspace.id := by
        rw [h.activeTabOf_eq hmem] at hactiveTab
        exact h.workspace_of_activeTab hmem hpane hactiveTab
      refine iff_of_true ⟨?_, pane, hselected, hsame, fun tabId htabId _ => ?_⟩ (.inl hagent)
      · rw [hworkspace, hsame]
      · rw [Selection.activeTabOf, targetPaneOr_snapshot (s := cursor) h hpane] at htabId
        exact Option.some.inj (hactiveTab.symm.trans htabId)
    · dsimp only
      rw [heq, or_iff_right (show ¬s.HasAgent pane.id from hagent)]
      exact onWorkspace_iff_of_some (s := cursor) h hid hfirst

end TuiSnapshot.Integral

/-- A candidate leads to what it stands for just when the first pane of its tab has an agent, or the
selection is right without. -/
theorem runSearchCandidate_on_iff (toLowercase : String → String) (snapshot : SearchSnapshot)
    (h : snapshot.rows.Integral) (query : String) (candidate : SearchCandidate)
    (hcandidate : candidate ∈ localCandidates toLowercase snapshot query) (w : World) (app : TuiApp)
    (hrows : app.selection.snapshot = snapshot.rows) :
    (app.runSearchCandidate w candidate).selection.On candidate ↔
      app.selection.Reaches candidate := by
  have hrow := isRow_of_mem_localCandidates hcandidate
  rw [← hrows] at h hrow
  have hselection : ∀ workspaceId tabId paneId,
      (app.selectSearchTarget w 0 workspaceId tabId paneId).selection =
        (app.selection.searchTarget workspaceId tabId paneId app.sidebarFocus).selection := by
    intro workspaceId tabId paneId
    rw [TuiApp.selectSearchTarget]
    split <;> rfl
  cases candidate with
  | workspace id label =>
    rw [TuiApp.runSearchCandidate, hselection]
    exact h.onWorkspace_searchTarget_iff _ hrow label
  | panel id label workspaceId =>
    obtain ⟨tab, htab, rfl, rfl⟩ := hrow
    rw [TuiApp.runSearchCandidate, hselection]
    exact h.onPanel_searchTarget_iff _ htab
  | agent paneId label =>
    rw [TuiApp.runSearchCandidate, hselection]
    exact iff_of_true (h.onAgent_of_searchTarget _ hrow) trivial

/-- An agent in the first workspace, a shell in the second. -/
def agentAndShell : SearchSnapshot where
  workspaces :=
    [⟨⟨"w1", "/a", false, 1, 1, some "t1", none⟩, "api"⟩,
      ⟨⟨"w2", "/b", false, 1, 1, some "t2", none⟩, "web"⟩]
  tabs := [⟨"t1", "w1", "one"⟩, ⟨"t2", "w2", "two"⟩]
  panes := [⟨"p1", "x1", "w1", "t1", none⟩, ⟨"p2", "x2", "w2", "t2", none⟩]
  agents := [⟨⟨"p1", "w1", false⟩, "x1", none, none⟩]

theorem agentAndShell_integral : agentAndShell.rows.Integral := by
  constructor <;> decide

def onAgentAndShell : TuiApp :=
  { TuiApp.start 1000 "main" with selection := ⟨agentAndShell.rows, 0, 0⟩ }

def silentWorld : World := ⟨⟨id, fun _ _ => []⟩, some, none, [], none, false⟩

/-- The second workspace is found, and its shell is selected, as there is no agent in it. -/
theorem runSearchCandidate_on_shell :
    (onAgentAndShell.runSearchCandidate silentWorld (.workspace "w2" "web")).selection.On
      (.workspace "w2" "web") := by
  refine (runSearchCandidate_on_iff id agentAndShell agentAndShell_integral "web"
    (.workspace "w2" "web") (by decide +kernel) silentWorld onAgentAndShell rfl).mpr (.inr ?_)
  simp [onAgentAndShell, agentAndShell, SearchSnapshot.rows, Selection.agent]

/-- The shell's own tab is found, and nothing is selected but what was. -/
theorem runSearchCandidate_stays :
    .panel "t2" "two" "w2" ∈ localCandidates id agentAndShell "two" ∧
      ¬(onAgentAndShell.runSearchCandidate silentWorld (.panel "t2" "two" "w2")).selection.On
        (.panel "t2" "two" "w2") := by
  refine ⟨by decide +kernel, fun h => ?_⟩
  exact absurd h.1 (by decide +kernel)

end HerdrWebui.Tui
