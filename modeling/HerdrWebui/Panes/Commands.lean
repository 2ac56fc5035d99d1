import HerdrWebui.Panes.Move

/-!
The commands of a workspace's layout: split, close, move, maximize, and what opens, shows and closes
the tabs of files and of Git views. What a command asks of the module of a tab comes back later, as
a command of its own. A pane id or a path comes decoded.
-/

namespace HerdrWebui.Panes

def paneIdAt (n : Nat) : String := "p" ++ toString n

/-- The next number whose id is not taken. There is one among the first that are more than the taken
ids. -/
def nextPaneNumber (used : List String) : Nat → Nat → Nat
  | 0, counter => counter + 1
  | fuel + 1, counter =>
    if used.contains (paneIdAt (counter + 1)) then nextPaneNumber used fuel (counter + 1)
    else counter + 1

namespace Workspace

variable (w : Workspace)

def newEmptyLeaf : Workspace × PaneLeaf :=
  let counter := nextPaneNumber w.usedPaneIds w.usedPaneIds.length w.paneIdCounter
  ({ w with paneIdCounter := counter, usedPaneIds := paneIdAt counter :: w.usedPaneIds },
    ⟨paneIdAt counter, [], none⟩)

/-- `panesStateFor` for a workspace that has no entry. -/
def initial : Workspace where
  root := .leaf ⟨"p1", [terminalTabPlaceholder], some terminalTabPlaceholder⟩
  usedPaneIds := ["p1"]

/-- A leaf, or the one that the workspace shows. -/
def leafForPaneId (paneId : String) : Option PaneLeaf :=
  if paneId = "" then w.activeLeaf w.root
  else (paneForPaneId w.root paneId).or (w.activeLeaf w.root)

/-- A leaf gets an empty one beside it, which then has the focus. -/
def splitLeaf (leaf : PaneLeaf) (kind : SplitKind) : Workspace :=
  let (next, fresh) := w.newEmptyLeaf
  let root := w.root.replaceLeaves fun other =>
    if other.paneId = leaf.paneId then
      .node ⟨w.nextRef, kind, [1, 1]⟩ [.leaf leaf, .leaf fresh]
    else .leaf other
  { next with root, nextRef := w.nextRef + 1 }.focusLeaf root fresh.paneId

def splitActivePane (kind : SplitKind) : Workspace :=
  let restored := { w with maximizedPaneId := none }
  match w.activeLeaf w.root with
  | none => restored
  | some leaf => restored.splitLeaf leaf kind

def parentSplitOf (paneId : String) : Option PaneSplit := (findLeafSlot w.root paneId).map Prod.fst

/-- The split button of a strip: a split the other way turns. -/
def splitPaneFor (paneId : String) (kind : SplitKind) : Workspace :=
  match w.leafForPaneId paneId with
  | none => w
  | some leaf =>
    match w.parentSplitOf leaf.paneId with
    | some parent =>
      if parent.kind = kind then (w.focusLeaf w.root leaf.paneId).splitActivePane kind
      else
        let root := w.root.relabel fun split _ =>
          if split.ref = parent.ref then { split with kind } else split
        { w with root, maximizedPaneId := none }.focusLeaf root leaf.paneId
    | none => (w.focusLeaf w.root leaf.paneId).splitActivePane kind

/-- The tabs of a leaf that is closed come to another. -/
def inherit (tabs : List String) (routeTab : Option String) (leaf : PaneLeaf) : PaneLeaf :=
  let all := tabs.foldl
    (fun all tabId => if all.contains tabId then all else all ++ [tabId]) leaf.tabs
  let active :=
    if (orNull leaf.active).any all.contains then leaf.active
    else ((orNull routeTab).filter all.contains).or (orNull all.head?)
  { leaf with tabs := all, active }

def focusActiveLeaf : Workspace :=
  match w.activeLeaf w.root with
  | none => w
  | some leaf => w.focusLeaf w.root leaf.paneId

def closeActivePane (routeTab : Option String) : Workspace :=
  if (paneLeaves w.root).length ≤ 1 then w
  else
    match w.activeLeaf w.root with
    | none => w
    | some leaf =>
      let restored := w.unmaximize leaf.paneId
      let migrated :=
        match migrationTargetForClosedLeaf w.root leaf.paneId with
        | none => restored
        | some migration => restored.modifyLeaf migration.paneId (inherit leaf.tabs routeTab)
      match (findLeafSlot migrated.root leaf.paneId).bind fun (split, children, i) =>
          Held.cutLeaf ⟨migrated, none⟩ split children i with
      | none => migrated
      | some cut => cut.workspace.focusActiveLeaf

def closePaneFor (paneId : String) (routeTab : Option String) : Workspace :=
  match w.leafForPaneId paneId with
  | none => w
  | some leaf =>
    if (paneLeaves w.root).length < 2 then w
    else (w.focusLeaf w.root leaf.paneId).closeActivePane routeTab

def moveActiveTabToNextPane : Workspace :=
  let leaves := paneLeaves w.root
  match w.activeLeaf w.root with
  | none => w
  | some leaf =>
    match orNull leaf.active, leaves[(leaves.idxOf leaf + 1) % leaves.length]? with
    | some tabId, some target =>
      if !isClientTab tabId ∨ target.paneId = leaf.paneId then w
      else
        let moved := carryTab tabId leaf target none w
        if leaf.tabs.erase tabId = [] then moved.collapseEmptyLeaf leaf.paneId else moved
    | _, _ => w

def maximizePaneFor (paneId : String) : Workspace :=
  match w.leafForPaneId paneId with
  | none => w
  | some leaf =>
    if (paneLeaves w.root).length < 2 then w
    else
      { w with
        maximizedPaneId :=
          if w.maximizedPaneId = some leaf.paneId then none else some leaf.paneId }.focusLeaf
            w.root leaf.paneId

/-- The + of a strip: where the next terminal is to go. -/
def newTabForPane (paneId : String) : Workspace :=
  match w.leafForPaneId paneId with
  | none => w
  | some leaf => { w with pendingNext := some leaf.paneId }

/-- A tab has one owner, which shows it and has the focus; a new tab is behind those of the active
leaf. -/
def paneEnsureTab (tabId : String) : Workspace :=
  match paneForTab w.root tabId with
  | some owner =>
    (w.modifyLeaf owner.paneId fun leaf => { leaf with active := some tabId }).focusLeaf
      w.root owner.paneId
  | none =>
    match w.activeLeaf w.root with
    | none => w
    | some leaf => w.modifyLeaf leaf.paneId fun leaf => { leaf with tabs := leaf.tabs ++ [tabId] }

def paneEnsureEditorTab (path : String) : Workspace := w.paneEnsureTab (editorTabId path)

def paneEnsureGitTab (viewKey : String) : Workspace := w.paneEnsureTab (gitTabId viewKey)

/-- A tab that is closed. The leaf shows the one that comes to its place, else the one in front of
it, else the first. -/
def withoutClosed (tabId : String) (leaf : PaneLeaf) : PaneLeaf :=
  let i := leaf.tabs.idxOf tabId
  let tabs := leaf.tabs.erase tabId
  let next := (orNull tabs[i]?).or
    ((orNull (if i = 0 then none else tabs[i - 1]?)).or (orNull tabs.head?))
  { leaf with tabs, active := if leaf.active = some tabId then next else leaf.active }

def closeTabImmediate (tabId : String) : Workspace :=
  match paneForTab w.root tabId with
  | none => w
  | some leaf => (w.modifyLeaf leaf.paneId (withoutClosed tabId)).collapseEmptyLeaf leaf.paneId

def closeEditorTabImmediate (path : String) : Workspace := w.closeTabImmediate (editorTabId path)

def closeGitTabImmediate (viewKey : String) : Workspace := w.closeTabImmediate (gitTabId viewKey)

/-- The module of a tab has shown it. The tab may be closed by then. -/
def setActivePaneTab (tabId : String) : Workspace :=
  if tabId = "" then w
  else
    match (paneForTab w.root tabId).or (w.activeLeaf w.root) with
    | none => w
    | some leaf =>
      ({ w with sawExplicitActive := true }.modifyLeaf leaf.paneId fun leaf =>
        { leaf with active := some tabId }).focusLeaf w.root leaf.paneId

/-- A terminal is closed here, before the backend says so. -/
def collapseLeafForClosedTab (tabId : String) : Workspace :=
  match w.root with
  | .leaf _ => w
  | .node _ _ =>
    match (orNull (some tabId)).bind (paneForTab w.root) with
    | none => w
    | some leaf =>
      let closed := w.modifyLeaf leaf.paneId fun leaf =>
        { leaf with
          tabs := leaf.tabs.erase tabId
          active :=
            if leaf.active = some tabId then orNull (leaf.tabs.erase tabId).head?
            else leaf.active }
      if leaf.tabs.erase tabId = [] then closed.collapseEmptyLeaf leaf.paneId else closed

end Workspace

inductive LayoutCommand where
  | splitActivePane (kind : SplitKind)
  | splitPaneFor (paneId : String) (kind : SplitKind)
  | closeActivePane (routeTab : Option String)
  | closePaneFor (paneId : String) (routeTab : Option String)
  | movePaneTabTo (tabId : String) (targetPaneId : Option String) (index : Option Nat)
  | moveActiveTabToNextPane
  | maximizePaneFor (paneId : String)
  | newTabForPane (paneId : String)
  | paneEnsureEditorTab (path : String)
  | paneEnsureGitTab (viewKey : String)
  | closeEditorTabImmediate (path : String)
  | closeGitTabImmediate (viewKey : String)
  | setActivePaneTab (tabId : String)
  | collapseLeafForClosedTab (tabId : String)
  deriving DecidableEq

def LayoutCommand.run (w : Workspace) : LayoutCommand → Workspace
  | splitActivePane kind => w.splitActivePane kind
  | splitPaneFor paneId kind => w.splitPaneFor paneId kind
  | closeActivePane routeTab => w.closeActivePane routeTab
  | closePaneFor paneId routeTab => w.closePaneFor paneId routeTab
  | movePaneTabTo tabId targetPaneId index => (Panes.movePaneTabTo tabId targetPaneId index w).1
  | moveActiveTabToNextPane => w.moveActiveTabToNextPane
  | maximizePaneFor paneId => w.maximizePaneFor paneId
  | newTabForPane paneId => w.newTabForPane paneId
  | paneEnsureEditorTab path => w.paneEnsureEditorTab path
  | paneEnsureGitTab viewKey => w.paneEnsureGitTab viewKey
  | closeEditorTabImmediate path => w.closeEditorTabImmediate path
  | closeGitTabImmediate viewKey => w.closeGitTabImmediate viewKey
  | setActivePaneTab tabId => w.setActivePaneTab tabId
  | collapseLeafForClosedTab tabId => w.collapseLeafForClosedTab tabId

end HerdrWebui.Panes
