import HerdrWebui.Builtin.Registry
import HerdrWebui.Terminal.Paste

/-!
The snapshot the terminal interface shows (`tui/model.rs`): the rows it parses
from a backend's reply, and the pane, workspace and agent that its two list
indices name.

A row keeps the fields the interface decides on; labels, statuses and titles are
only drawn. File-system canonicalization is a parameter.
-/

namespace HerdrWebui.Tui

open Builtin (fileName)
open Terminal (getU64)

/-- `value_str`: the first of the keys that holds a text decides, and an empty
text counts as none. -/
def valueStr (value : Json) (keys : List String) : Option String :=
  (keys.findSome? value.getStr).filter (· ≠ "")

def valueU64 (value : Json) (keys : List String) : Option Nat := keys.findSome? (getU64 value)

/-- `Value::as_bool` of a field. -/
def getBool (value : Json) (key : String) : Option Bool :=
  match value.get key with
  | some (.bool b) => some b
  | _ => none

def valueBool (value : Json) (keys : List String) : Option Bool :=
  keys.findSome? (getBool value)

def parseArray {α : Type*} (snapshot : Json) (key : String) (parse : Json → α) : List α :=
  (((snapshot.get key).bind Json.asArray).map (List.map parse)).getD []

def sameCheckoutPath (canonicalize : String → Option String) (left right : String) : Bool :=
  left == right ||
    match canonicalize left, canonicalize right with
    | some left, some right => left == right
    | _, _ => false

def pathBasename (path : String) : String := (fileName path).getD path

/-- `answered` is not in the source. It says where in the backend's history the
`worktree.list` reply stands that the stamp was parsed from; a stamp that came
with the snapshot has none. -/
structure TuiWorktreeStamp where
  repoRoot : String
  repoName : String
  branch : String
  isLinked : Bool
  answered : Option Nat
  deriving DecidableEq

/-- A `worktree.list` reply, with its place in the backend's history. -/
structure WorktreeReply where
  response : Json
  answered : Nat

/-- `parse_worktree_stamp`, of a workspace row. -/
def parseWorktreeStamp (canonicalize : String → Option String) (workspace : Json) :
    Option TuiWorktreeStamp := do
  let stamp ← workspace.get "worktree"
  let repoRoot ← valueStr stamp ["repo_root"]
  let checkoutPath ←
    (valueStr stamp ["checkout_path", "path"]).or (valueStr workspace ["cwd"])
  pure
    { repoRoot
      repoName := (valueStr stamp ["repo_name"]).getD ""
      branch := (valueStr stamp ["branch"]).getD ""
      isLinked := !sameCheckoutPath canonicalize checkoutPath repoRoot
      answered := none }

def parseWorktreeListResponse (canonicalize : String → Option String)
    (reply : WorktreeReply) (cwd : String) : Option TuiWorktreeStamp := do
  let rows ← (reply.response.get "worktrees").bind Json.asArray
  let source := reply.response.get "source"
  let row ← rows.find? fun row =>
    ((row.getStr "path").map fun path => sameCheckoutPath canonicalize path cwd).getD false
  let checkoutPath := (row.getStr "path").getD cwd
  let repoRoot := (source.bind (·.getStr "repo_root")).getD checkoutPath
  pure
    { repoRoot
      repoName := (source.bind (·.getStr "repo_name")).getD (pathBasename repoRoot)
      branch := (row.getStr "branch").getD ""
      isLinked := !sameCheckoutPath canonicalize checkoutPath repoRoot
      answered := some reply.answered }

structure TuiWorkspace where
  id : String
  cwd : String
  focused : Bool
  paneCount : Nat
  tabCount : Nat
  activeTabId : Option String
  worktree : Option TuiWorktreeStamp
  deriving DecidableEq

structure TuiTab where
  id : String
  workspaceId : String
  label : String
  deriving DecidableEq

structure TuiAgentSession where
  kind : String
  deriving DecidableEq

structure TuiPane where
  id : String
  terminalId : String
  workspaceId : String
  tabId : String
  agentSession : Option TuiAgentSession
  deriving DecidableEq

structure TuiAgent where
  paneId : String
  workspaceId : String
  focused : Bool
  deriving DecidableEq

structure TuiSnapshot where
  workspaces : List TuiWorkspace
  tabs : List TuiTab
  panes : List TuiPane
  agents : List TuiAgent
  deriving DecidableEq

/-- `TuiSnapshot::default`. -/
def TuiSnapshot.empty : TuiSnapshot := ⟨[], [], [], []⟩

def parseWorkspace (canonicalize : String → Option String) (value : Json) : TuiWorkspace where
  id := (valueStr value ["workspace_id"]).getD ""
  cwd := (valueStr value ["cwd", "foreground_cwd"]).getD ""
  focused := (valueBool value ["focused"]).getD false
  paneCount := (valueU64 value ["pane_count"]).getD 0
  tabCount := (valueU64 value ["tab_count"]).getD 0
  activeTabId := valueStr value ["active_tab_id"]
  worktree := parseWorktreeStamp canonicalize value

def parseTab (value : Json) : TuiTab where
  id := (valueStr value ["tab_id"]).getD ""
  workspaceId := (valueStr value ["workspace_id"]).getD ""
  label := (valueStr value ["label"]).getD "Tab"

def parsePane (value : Json) : TuiPane where
  id := (valueStr value ["pane_id"]).getD ""
  terminalId := (valueStr value ["terminal_id"]).getD ""
  workspaceId := (valueStr value ["workspace_id"]).getD ""
  tabId := (valueStr value ["tab_id"]).getD ""
  agentSession :=
    (value.get "agent_session").bind fun session =>
      session.asObject.map fun _ => ⟨(valueStr session ["kind"]).getD ""⟩

def parseAgent (value : Json) : TuiAgent where
  paneId := (valueStr value ["pane_id"]).getD ""
  workspaceId := (valueStr value ["workspace_id"]).getD ""
  focused := (valueBool value ["focused"]).getD false

/-- `TuiSnapshot::from_backend_response`. -/
def TuiSnapshot.fromBackendResponse (canonicalize : String → Option String) (value : Json) :
    TuiSnapshot :=
  let snapshot := (value.get "snapshot").getD value
  { workspaces := parseArray snapshot "workspaces" (parseWorkspace canonicalize)
    tabs := parseArray snapshot "tabs" parseTab
    panes := parseArray snapshot "panes" parsePane
    agents := parseArray snapshot "agents" parseAgent }

def TuiSnapshot.workspaceTabs (snapshot : TuiSnapshot) (workspaceId : String) : List TuiTab :=
  snapshot.tabs.filter (·.workspaceId = workspaceId)

theorem parseWorktreeStamp_answered {canonicalize : String → Option String}
    {workspace : Json} {stamp : TuiWorktreeStamp}
    (h : parseWorktreeStamp canonicalize workspace = some stamp) : stamp.answered = none := by
  simp only [parseWorktreeStamp, Option.bind_eq_bind, Option.bind_eq_some_iff,
    Option.pure_def, Option.some.injEq] at h
  obtain ⟨_, _, _, _, _, _, rfl⟩ := h
  rfl

theorem parseWorktreeListResponse_answered {canonicalize : String → Option String}
    {reply : WorktreeReply} {cwd : String} {stamp : TuiWorktreeStamp}
    (h : parseWorktreeListResponse canonicalize reply cwd = some stamp) :
    stamp.answered = some reply.answered := by
  simp only [parseWorktreeListResponse, Option.bind_eq_bind, Option.bind_eq_some_iff,
    Option.pure_def, Option.some.injEq] at h
  obtain ⟨_, _, _, _, rfl⟩ := h
  rfl

theorem mem_parseArray {α : Type*} {snapshot : Json} {key : String} {parse : Json → α}
    {row : α} (h : row ∈ parseArray snapshot key parse) : ∃ value, row = parse value := by
  unfold parseArray at h
  cases hrows : (snapshot.get key).bind Json.asArray with
  | none => simp [hrows] at h
  | some rows =>
    simp only [hrows, Option.map_some, Option.getD_some, List.mem_map] at h
    obtain ⟨value, -, hvalue⟩ := h
    exact ⟨value, hvalue.symm⟩

theorem fromBackendResponse_answered {canonicalize : String → Option String} {value : Json}
    {workspace : TuiWorkspace} {stamp : TuiWorktreeStamp}
    (hmem : workspace ∈ (TuiSnapshot.fromBackendResponse canonicalize value).workspaces)
    (hstamp : workspace.worktree = some stamp) : stamp.answered = none := by
  obtain ⟨row, rfl⟩ := mem_parseArray hmem
  exact parseWorktreeStamp_answered hstamp

end HerdrWebui.Tui
