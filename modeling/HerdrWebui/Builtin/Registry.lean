import Mathlib.Data.String.Basic
import HerdrWebui.Data.Table

/-!
The registry of the built-in backend (`BuiltinData`): workspaces, tabs, panes
and terminals in four maps keyed by minted ids, the three focused ids, and the
helpers that run with the `data` lock held (`next_id`, `close_pane_locked`,
`close_tab_locked`, `normalize_focus`).

Paths and ids are the texts the code stores. A terminal runtime is kept as the
spawn arguments registered with it; its threads and buffers are modelled
elsewhere. The counter is a natural number: it would take 2^64 mints to wrap.
The iteration order of a `HashMap` is a parameter wherever the code iterates.
-/

namespace HerdrWebui.Builtin

abbrev Path := String

structure WorkspaceRecord where
  workspaceId : String
  label : String
  cwd : Path
  tabIds : List String
  deriving DecidableEq

structure TabRecord where
  tabId : String
  workspaceId : String
  label : String
  paneIds : List String
  deriving DecidableEq

structure PaneRecord where
  paneId : String
  terminalId : String
  workspaceId : String
  tabId : String
  cwd : Path
  label : Option String
  argv : List String
  deriving DecidableEq

/-- The place a terminal was spawned for; its events carry it. -/
structure PaneEventContext where
  workspaceId : String
  tabId : String
  paneId : String
  terminalId : String
  deriving DecidableEq

structure TerminalRuntime where
  id : String
  argv : List String
  eventContext : PaneEventContext
  deriving DecidableEq

structure BuiltinData where
  nextId : Nat
  workspaces : Table String WorkspaceRecord
  tabs : Table String TabRecord
  panes : Table String PaneRecord
  terminals : Table String TerminalRuntime
  focusedWorkspaceId : Option String
  focusedTabId : Option String
  focusedPaneId : Option String
  deriving DecidableEq

/-- The registry of a backend that has just started (`BuiltinState::new`). -/
def BuiltinData.new : BuiltinData where
  nextId := 1
  workspaces := ∅
  tabs := ∅
  panes := ∅
  terminals := ∅
  focusedWorkspaceId := none
  focusedTabId := none
  focusedPaneId := none

/-- The text of a minted id: `format!("{prefix}_{id}")`. -/
def idText (kind : String) (n : Nat) : String := kind ++ "_" ++ toString n

def nextId (d : BuiltinData) (kind : String) : String × BuiltinData :=
  (idText kind d.nextId, { d with nextId := d.nextId + 1 })

theorem idText_injective (kind : String) : Function.Injective (idText kind) := by
  intro m n h
  have hdigits : (toString m).toList = (toString n).toList := by
    have hlist := congrArg String.toList h
    simpa [idText] using hlist
  have hvalue := congrArg (fun cs => Nat.ofDigitChars 10 cs 0) hdigits
  simpa [Nat.toString_eq_ofList_toDigits, Nat.ofDigitChars_ten_toDigits]
    using hvalue

/-- `Path::file_name`: the last component, with `.` components and repeated
separators normalized away; a path that ends in `..` has none. -/
def fileName (path : Path) : Option String :=
  ((path.splitOn "/").filter fun part => part ≠ "" && part ≠ ".").getLast?
    |>.filter (· ≠ "..")

def workspaceLabel (cwd : Path) : String := (fileName cwd).getD "Workspace"

def closePaneLocked (d : BuiltinData) (paneId : String) : BuiltinData :=
  match d.panes.lookup paneId with
  | none => d
  | some pane =>
    { d with
      panes := d.panes.erase paneId
      terminals := d.terminals.erase pane.terminalId
      tabs := Table.modify d.tabs pane.tabId fun tab =>
        { tab with paneIds := tab.paneIds.filter (· ≠ paneId) } }

def closeTabLocked (d : BuiltinData) (tabId : String) : BuiltinData :=
  match d.tabs.lookup tabId with
  | none => d
  | some tab =>
    let closed := tab.paneIds.foldl closePaneLocked
      { d with tabs := d.tabs.erase tabId }
    { closed with
      workspaces := Table.modify closed.workspaces tab.workspaceId
        fun workspace =>
          { workspace with tabIds := workspace.tabIds.filter (· ≠ tabId) } }

/-- Remove a workspace and close every tab it lists: the teardown shared by
`close_workspace` and `worktree_remove`, before the focus is normalized. -/
def dropWorkspace (d : BuiltinData) (workspaceId : String) :
    Option BuiltinData :=
  (d.workspaces.lookup workspaceId).map fun workspace =>
    workspace.tabIds.foldl closeTabLocked
      { d with workspaces := d.workspaces.erase workspaceId }

/-- An iteration order of the workspace map: every key, each once. Rust leaves
it open, so every step that iterates gets one of its own. -/
structure IterationOrder where
  keys : Table String WorkspaceRecord → List String
  nodup : ∀ m, (keys m).Nodup
  mem_keys : ∀ m k, k ∈ keys m ↔ k ∈ m

def IterationOrder.ascending : IterationOrder where
  keys m := m.keys.sort (· ≤ ·)
  nodup _ := Finset.sort_nodup _ _
  mem_keys m k := by simp [Finmap.mem_keys]

/-- `workspaces.values()` in iteration order. -/
def workspaceValues (order : IterationOrder)
    (workspaces : Table String WorkspaceRecord) : List WorkspaceRecord :=
  (order.keys workspaces).filterMap fun id => workspaces.lookup id

theorem mem_workspaceValues {order : IterationOrder}
    {workspaces : Table String WorkspaceRecord} {workspace : WorkspaceRecord} :
    workspace ∈ workspaceValues order workspaces ↔
      ∃ id, workspaces.lookup id = some workspace := by
  simp only [workspaceValues, List.mem_filterMap]
  constructor
  · rintro ⟨id, _, hid⟩
    exact ⟨id, hid⟩
  · rintro ⟨id, hid⟩
    exact ⟨id, (order.mem_keys _ _).mpr (Finmap.mem_of_lookup_eq_some hid), hid⟩

/-- The workspace `normalize_focus` settles on: the focused one while it
exists, else the first in iteration order. -/
def normalizedWorkspace (order : IterationOrder) (d : BuiltinData) :
    Option String :=
  (d.focusedWorkspaceId.bind fun id =>
      (d.workspaces.lookup id).map (·.workspaceId)).orElse fun _ =>
    (workspaceValues order d.workspaces).head?.map (·.workspaceId)

/-- The focused tab while it exists and is of the given workspace, else the
first tab of that workspace. -/
def normalizedTab (d : BuiltinData) (workspaceId : String) : Option String :=
  (d.focusedTabId.filter fun tabId =>
      (d.tabs.lookup tabId).any (·.workspaceId == workspaceId)).orElse fun _ =>
    (d.workspaces.lookup workspaceId).bind (·.tabIds.head?)

/-- The focused pane while it exists and is of the given tab, else the first
pane of that tab. With no tab the comparison is against the empty id. -/
def normalizedPane (d : BuiltinData) (tabId : Option String) : Option String :=
  (d.focusedPaneId.filter fun paneId =>
      (d.panes.lookup paneId).any (·.tabId == tabId.getD "")).orElse fun _ =>
    (tabId.bind fun id => d.tabs.lookup id).bind (·.paneIds.head?)

def normalizeFocus (order : IterationOrder) (d : BuiltinData) : BuiltinData :=
  match normalizedWorkspace order d with
  | none =>
    { d with
      focusedWorkspaceId := none
      focusedTabId := none
      focusedPaneId := none }
  | some workspaceId =>
    { d with
      focusedWorkspaceId := some workspaceId
      focusedTabId := normalizedTab d workspaceId
      focusedPaneId := normalizedPane d (normalizedTab d workspaceId) }

section NormalizeFocusFrame

variable (order : IterationOrder) (d : BuiltinData)

@[simp] theorem normalizeFocus_nextId :
    (normalizeFocus order d).nextId = d.nextId := by
  unfold normalizeFocus; split <;> rfl

@[simp] theorem normalizeFocus_workspaces :
    (normalizeFocus order d).workspaces = d.workspaces := by
  unfold normalizeFocus; split <;> rfl

@[simp] theorem normalizeFocus_tabs :
    (normalizeFocus order d).tabs = d.tabs := by
  unfold normalizeFocus; split <;> rfl

@[simp] theorem normalizeFocus_panes :
    (normalizeFocus order d).panes = d.panes := by
  unfold normalizeFocus; split <;> rfl

@[simp] theorem normalizeFocus_terminals :
    (normalizeFocus order d).terminals = d.terminals := by
  unfold normalizeFocus; split <;> rfl

end NormalizeFocusFrame

end HerdrWebui.Builtin
