import HerdrWebui.Data.OrderedTree
import Mathlib.Data.Rat.Defs

/-!
The pane tree of a workspace: leaves with tabs, and splits. A leaf is found by its pane id and a
split by the object that it is (`ref`). A command edits the tree in place, and may go on with a root
that the entry of the workspace no longer has.

A split has two children or more. What the source does with others is left out, and so is what it
draws, stores and loads.
-/

namespace HerdrWebui.Panes

def editorTabPrefix : String := "editor:"

def gitTabPrefix : String := "git:"

def terminalTabPlaceholder : String := "terminal"

def editorTabId (path : String) : String := editorTabPrefix ++ path

def gitTabId (viewKey : String) : String := gitTabPrefix ++ viewKey

def isEditorTab (tabId : String) : Bool := editorTabPrefix.toList.isPrefixOf tabId.toList

def isGitTab (tabId : String) : Bool := gitTabPrefix.toList.isPrefixOf tabId.toList

def isClientTab (tabId : String) : Bool := isEditorTab tabId || isGitTab tabId

inductive SplitKind where
  | row
  | column
  deriving DecidableEq

structure PaneLeaf where
  paneId : String
  tabs : List String
  active : Option String
  deriving DecidableEq

structure PaneSplit where
  ref : Nat
  kind : SplitKind
  sizes : List Rat
  deriving DecidableEq

abbrev PaneNode := OrderedTree PaneLeaf PaneSplit

/-- The object that a node is. -/
inductive NodeKey where
  | pane (paneId : String)
  | split (ref : Nat)
  deriving DecidableEq

def hasPaneId (paneId : String) (leaf : PaneLeaf) : Bool := leaf.paneId = paneId

/-- The source's `|| null`. -/
def orNull (tabId : Option String) : Option String := tabId.filter fun tabId => tabId ≠ ""

/-- A tab that a strip shows, with the ids of the backend's tabs. -/
def isShown (tabs : List String) (tabId : String) : Bool :=
  isClientTab tabId || tabs.contains tabId

/-- The tabs of a leaf that its strip shows. -/
def paneTabsForTree (tabs : List String) (leaf : PaneLeaf) : List String :=
  leaf.tabs.filter (isShown tabs)

namespace PaneNode

def key : PaneNode → NodeKey
  | .leaf leaf => .pane leaf.paneId
  | .node split _ => .split split.ref

def modifyLeaf (paneId : String) (f : PaneLeaf → PaneLeaf) (root : PaneNode) : PaneNode :=
  root.mapLeaves fun leaf => if leaf.paneId = paneId then f leaf else leaf

def onChildren (ref : Nat) (f : List PaneNode → List PaneNode) (root : PaneNode) : PaneNode :=
  OrderedTree.onChildren PaneSplit.ref ref f root

end PaneNode

def paneLeaves (root : PaneNode) : List PaneLeaf := root.leaves

def paneForPaneId (root : PaneNode) (paneId : String) : Option PaneLeaf :=
  (paneLeaves root).find? (hasPaneId paneId)

def paneForTab (root : PaneNode) (tabId : String) : Option PaneLeaf :=
  (paneLeaves root).find? fun leaf => leaf.tabs.contains tabId

/-- The split that holds a leaf, with all its children, and the place of the leaf. A root that is
the leaf has none. -/
def findLeafSlot (root : PaneNode) (paneId : String) : Option (PaneSplit × List PaneNode × Nat) :=
  root.slot (OrderedTree.isLeaf (hasPaneId paneId))

def isRootSplit (root : PaneNode) (ref : Nat) : Bool := OrderedTree.isNode PaneSplit.ref ref root

/-- The split above a split. A root that is the split has none. -/
def findSplitSlot (root : PaneNode) (ref : Nat) : Option (PaneSplit × List PaneNode × Nat) :=
  root.slot (OrderedTree.isNode PaneSplit.ref ref)

/-- Sizes follow the number of children, and one that is not positive becomes 1. -/
def normalizeSizes (sizes : List Rat) (count : Nat) : List Rat :=
  (List.range count).map fun i => (sizes[i]?.filter fun size => 0 < size).getD 1

/-- A split with one child gives its place to the child. -/
def normalizePaneTree (root : PaneNode) : PaneNode :=
  root.fold .leaf fun split children =>
    match children with
    | [child] => child
    | children => .node { split with sizes := normalizeSizes split.sizes children.length } children

def migrationTargetForClosedLeaf (root : PaneNode) (paneId : String) : Option PaneLeaf :=
  match findLeafSlot root paneId with
  | none => none
  | some (_, children, i) =>
    if children.length = 2 then
      children[1 - i]?.bind fun sibling =>
        if i = 0 then (paneLeaves sibling).getLast? else (paneLeaves sibling).head?
    else
      let firstAfter := ((children.drop (i + 1)).map paneLeaves).find? (· ≠ [])
      let firstBefore := ((children.take i).reverse.map paneLeaves).find? (· ≠ [])
      (firstAfter.bind List.head?).or ((firstBefore.bind List.getLast?).or
        ((paneLeaves root).find? fun leaf => leaf.paneId ≠ paneId))

/-- The entry of a workspace, with what its commands use beside it. `activePaneIds` has the pointer
of each node that was given one, and `nextRef` is the next split. -/
structure Workspace where
  root : PaneNode
  maximizedPaneId : Option String := none
  activePaneIds : NodeKey → Option String := fun _ => none
  paneIdCounter : Nat := 0
  usedPaneIds : List String
  nextRef : Nat := 0
  pendingNext : Option String := none
  lastSyncedRouteTab : Option (Option String) := none
  sawExplicitActive : Bool := false

namespace Workspace

variable (w : Workspace)

/-- The leaf that the pointer of a root names, else its first leaf. -/
def activeLeaf (root : PaneNode) : Option PaneLeaf :=
  ((w.activePaneIds root.key).bind (paneForPaneId root)).or (paneLeaves root).head?

def focusLeaf (root : PaneNode) (paneId : String) : Workspace :=
  { w with activePaneIds := Function.update w.activePaneIds root.key (some paneId) }

def modifyLeaf (paneId : String) (f : PaneLeaf → PaneLeaf) : Workspace :=
  { w with root := w.root.modifyLeaf paneId f }

/-- A leaf that goes is no longer maximized. -/
def unmaximize (paneId : String) : Workspace :=
  { w with
    maximizedPaneId := if w.maximizedPaneId = some paneId then none else w.maximizedPaneId }

@[simp] theorem focusLeaf_root (root : PaneNode) (paneId : String) :
    (w.focusLeaf root paneId).root = w.root := rfl

@[simp] theorem modifyLeaf_root (paneId : String) (f : PaneLeaf → PaneLeaf) :
    (w.modifyLeaf paneId f).root = w.root.modifyLeaf paneId f := rfl

@[simp] theorem unmaximize_root (paneId : String) : (w.unmaximize paneId).root = w.root := rfl

end Workspace

/-- The root that a command works on is that of the entry, or an old one. -/
structure Held where
  workspace : Workspace
  captured : Option PaneNode := none

namespace Held

variable (h : Held)

def root : PaneNode := h.captured.getD h.workspace.root

/-- An edit in place, for every tree with the edited node. -/
def edit (f : PaneNode → PaneNode) : Held :=
  ⟨{ h.workspace with root := f h.workspace.root }, h.captured.map f⟩

/-- The entry gets another root. The command keeps its own. -/
def setRoot (root : PaneNode) : Held := ⟨{ h.workspace with root }, some h.root⟩

/-- The leaf at a place among the children of a split goes: its only sibling takes the place of the
split, else the other children stay. -/
def cutLeaf (split : PaneSplit) (children : List PaneNode) (i : Nat) : Option Held :=
  if children.length = 2 then
    children[1 - i]?.bind fun sibling =>
      if isRootSplit h.root split.ref then some (h.setRoot sibling)
      else
        (findSplitSlot h.root split.ref).map fun parent =>
          h.edit (PaneNode.onChildren parent.1.ref (·.set parent.2.2 sibling))
  else
    let cut := h.edit (PaneNode.onChildren split.ref (·.eraseIdx i))
    some { cut with workspace.root := normalizePaneTree cut.workspace.root }

/-- The focus after a leaf is gone: a leaf next to it, if it is still there. -/
def focusSurvivor (paneId : String) (survivor : Option PaneLeaf) : Held :=
  let live := h.workspace.root
  let kept := survivor.bind fun leaf =>
    if leaf.paneId ≠ paneId then paneForPaneId live leaf.paneId else none
  match kept.or (h.workspace.activeLeaf live) with
  | some leaf => { h with workspace := h.workspace.focusLeaf live leaf.paneId }
  | none => h

end Held

def collapseEmptyLeafInTree (h : Held) (paneId : String) : Option Held :=
  (paneForPaneId h.root paneId).bind fun leaf =>
    if (paneLeaves h.root).length ≤ 1 ∨ leaf.tabs ≠ [] then none
    else
      (findLeafSlot h.root paneId).bind fun (split, children, i) =>
        let survivor := migrationTargetForClosedLeaf h.root paneId
        ({ h with workspace := h.workspace.unmaximize paneId }.cutLeaf split children i).map
          fun cut => Held.focusSurvivor cut paneId survivor

/-- A collapse of the workspace's own tree, with what it had, should there be none. -/
def Workspace.collapseEmptyLeaf (w : Workspace) (paneId : String) : Workspace :=
  ((collapseEmptyLeafInTree ⟨w, none⟩ paneId).map Held.workspace).getD w

/-- Each split has two children or more, and no two splits or leaves are one object. -/
structure Shaped (root : PaneNode) : Prop where
  branching : root.Branching
  refs : OrderedTree.DistinctKeys PaneSplit.ref root
  paneIds : ((paneLeaves root).map PaneLeaf.paneId).Nodup

section Lists

variable {α : Type*} {p : α → Bool} {l : List α}

theorem two_le_of_ne {a b : α} (ha : a ∈ l) (hb : b ∈ l) (hne : a ≠ b) : 2 ≤ l.length := by
  match l, ha, hb with
  | [c], ha, hb =>
    exact absurd ((List.mem_singleton.mp ha).trans (List.mem_singleton.mp hb).symm) hne
  | _ :: _ :: _, _, _ => simp

theorem find?_eq_some_of_unique {a : α} (ha : a ∈ l) (hp : p a = true)
    (hone : ∀ b ∈ l, p b = true → b = a) : l.find? p = some a := by
  obtain ⟨b, hb⟩ := Option.isSome_iff_exists.mp (List.find?_isSome.mpr ⟨a, ha, hp⟩)
  rw [hb, hone b (List.mem_of_find?_eq_some hb) (List.find?_some hb)]

end Lists

section Shape

variable {root : PaneNode} {paneId : String} {leaf : PaneLeaf}

@[simp] theorem paneLeaves_modifyLeaf (f : PaneLeaf → PaneLeaf) :
    paneLeaves (root.modifyLeaf paneId f) =
      (paneLeaves root).map fun leaf => if leaf.paneId = paneId then f leaf else leaf :=
  OrderedTree.leaves_mapLeaves _ _

namespace Shaped

theorem eq_of_paneId (h : Shaped root) {leaf' : PaneLeaf} (hmem : leaf ∈ paneLeaves root)
    (hmem' : leaf' ∈ paneLeaves root) (heq : leaf.paneId = leaf'.paneId) : leaf = leaf' :=
  List.inj_on_of_nodup_map h.paneIds hmem hmem' heq

theorem paneForPaneId_eq (h : Shaped root) (hmem : leaf ∈ paneLeaves root) :
    paneForPaneId root leaf.paneId = some leaf :=
  find?_eq_some_of_unique hmem (decide_eq_true rfl) fun _ hother heq =>
    h.eq_of_paneId hother hmem (of_decide_eq_true heq)

theorem countP_le_one (h : Shaped root) (paneId : String) :
    root.leaves.countP (hasPaneId paneId) ≤ 1 := by
  have hcount := List.nodup_iff_count_le_one.mp h.paneIds paneId
  rwa [List.count_eq_countP, List.countP_map] at hcount

theorem exists_other (h : Shaped root) (paneId : String) (htwo : 2 ≤ (paneLeaves root).length) :
    ∃ other ∈ paneLeaves root, other.paneId ≠ paneId := by
  by_contra hnone
  push Not at hnone
  have hall := List.countP_eq_length.mpr fun leaf hleaf => decide_eq_true (hnone leaf hleaf)
  exact absurd (htwo.trans (hall.ge.trans (h.countP_le_one paneId))) (by decide)

theorem mapLeaves (h : Shaped root) {f : PaneLeaf → PaneLeaf}
    (hf : ∀ leaf, (f leaf).paneId = leaf.paneId) : Shaped (root.mapLeaves f) where
  branching := OrderedTree.everywhere_mapLeaves h.branching f
  refs := by
    rw [OrderedTree.DistinctKeys, OrderedTree.labels_mapLeaves]
    exact h.refs
  paneIds := by
    rw [paneLeaves, OrderedTree.leaves_mapLeaves, List.map_map,
      show PaneLeaf.paneId ∘ f = PaneLeaf.paneId from funext hf]
    exact h.paneIds

theorem modifyLeaf (h : Shaped root) {f : PaneLeaf → PaneLeaf}
    (hf : ∀ leaf, (f leaf).paneId = leaf.paneId) : Shaped (root.modifyLeaf paneId f) :=
  h.mapLeaves fun leaf => by
    split
    · exact hf leaf
    · rfl

end Shaped

theorem normalizePaneTree_eq (h : root.Branching) :
    normalizePaneTree root = root.relabel fun split n =>
      { split with sizes := normalizeSizes split.sizes n } := by
  induction root using OrderedTree.induct with
  | leaf a => rfl
  | node split children ih =>
    have hchildren : children.map normalizePaneTree =
        children.map (OrderedTree.relabel fun split n =>
          { split with sizes := normalizeSizes split.sizes n }) :=
      List.map_congr_left fun child hchild => ih child hchild (h.of_mem hchild)
    rw [OrderedTree.relabel_node, ← hchildren, normalizePaneTree, OrderedTree.fold_node]
    have htwo := h.two_le
    match children, htwo with
    | first :: second :: rest, _ => simp [normalizePaneTree]

theorem paneLeaves_normalizePaneTree (h : root.Branching) :
    paneLeaves (normalizePaneTree root) = paneLeaves root := by
  rw [normalizePaneTree_eq h]
  exact OrderedTree.leaves_relabel _ _

end Shape

section Collapse

variable {w : Workspace} {paneId : String} {split : PaneSplit} {front back : List PaneNode}
  {leaf : PaneLeaf}

theorem Held.cutLeaf_of_siblings (hw : Shaped w.root)
    (hholds : OrderedTree.Holds (hasPaneId paneId) w.root split front leaf back)
    (hsiblings : 2 ≤ (front ++ back).length) :
    ∃ kept, w.root.without (hasPaneId paneId) = some kept ∧
      Held.cutLeaf ⟨w, none⟩ split (front ++ .leaf leaf :: back) front.length =
        some ⟨{ w with root := normalizePaneTree kept }, none⟩ := by
  have hkept := hholds.without_of_siblings hw.branching (hw.countP_le_one paneId) hw.refs hsiblings
  have hlength : ¬(front ++ .leaf leaf :: back).length = 2 := by
    simp only [List.length_append, List.length_cons] at hsiblings ⊢
    omega
  refine ⟨_, hkept.symm, ?_⟩
  rw [cutLeaf, if_neg hlength]
  rfl

theorem append_singleton_cases {α : Type*} {front back : List α} {sibling : α}
    (h : front ++ back = [sibling]) (a : α) :
    (front ++ a :: back).length = 2 ∧ (front ++ a :: back)[1 - front.length]? = some sibling := by
  rcases List.append_eq_singleton_iff.mp h with ⟨rfl, rfl⟩ | ⟨rfl, rfl⟩ <;> exact ⟨rfl, rfl⟩

theorem Held.cutLeaf_of_singleton (h : Held) (split : PaneSplit) {sibling : PaneNode}
    (hsibling : front ++ back = [sibling]) :
    h.cutLeaf split (front ++ .leaf leaf :: back) front.length =
      if isRootSplit h.root split.ref then some (h.setRoot sibling)
      else (findSplitSlot h.root split.ref).map fun parent =>
        h.edit (PaneNode.onChildren parent.1.ref (·.set parent.2.2 sibling)) := by
  obtain ⟨hlength, hother⟩ := append_singleton_cases hsibling (.leaf leaf)
  rw [cutLeaf, if_pos hlength, hother]
  rfl

theorem Held.cutLeaf_root (hroot : w.root = .node split (front ++ .leaf leaf :: back))
    {sibling : PaneNode} (hsibling : front ++ back = [sibling]) :
    Held.cutLeaf ⟨w, none⟩ split (front ++ .leaf leaf :: back) front.length =
      some ⟨{ w with root := sibling }, some w.root⟩ := by
  have htop : isRootSplit w.root split.ref = true := by
    rw [hroot]
    exact decide_eq_true rfl
  exact (cutLeaf_of_singleton ⟨w, none⟩ split hsibling).trans (if_pos htop)

theorem Held.cutLeaf_of_sibling (hw : Shaped w.root)
    (hholds : OrderedTree.Holds (hasPaneId paneId) w.root split front leaf back)
    {sibling : PaneNode} (hsibling : front ++ back = [sibling]) :
    (w.root = .node split (front ++ .leaf leaf :: back) ∧
      w.root.without (hasPaneId paneId) = some sibling) ∨
    ∃ kept, w.root.without (hasPaneId paneId) = some kept ∧
      Held.cutLeaf ⟨w, none⟩ split (front ++ .leaf leaf :: back) front.length =
        some ⟨{ w with root := kept }, none⟩ := by
  rcases hholds.without_of_sibling hw.branching (hw.countP_le_one paneId) hw.refs hsibling with
    ⟨hroot, hkept⟩ | ⟨hroot, above, children, j, hslot, hkept⟩
  · exact .inl ⟨hroot, hkept⟩
  · refine .inr ⟨_, hkept.symm, (cutLeaf_of_singleton ⟨w, none⟩ split hsibling).trans ?_⟩
    have htop : ¬isRootSplit w.root split.ref = true := Bool.eq_false_iff.mp hroot
    rw [show (Held.root ⟨w, none⟩) = w.root from rfl, if_neg htop,
      show findSplitSlot w.root split.ref = _ from hslot]
    rfl

/-- A leaf of a live tree goes as it is taken out, up to the sizes of the splits that are left. -/
theorem Held.cutLeaf_live (hw : Shaped w.root)
    (hholds : OrderedTree.Holds (hasPaneId paneId) w.root split front leaf back) :
    ∃ kept root captured, w.root.without (hasPaneId paneId) = some kept ∧
      (root = kept ∨ root = normalizePaneTree kept) ∧
      Held.cutLeaf ⟨w, none⟩ split (front ++ .leaf leaf :: back) front.length =
        some ⟨{ w with root }, captured⟩ := by
  have htwo := hholds.everywhere hw.branching
  obtain hsiblings | ⟨sibling, hsibling⟩ : 2 ≤ (front ++ back).length ∨
      ∃ sibling, front ++ back = [sibling] := by
    simp only [List.length_append, List.length_cons] at htwo
    rcases hlist : front ++ back with - | ⟨sibling, - | ⟨next, rest⟩⟩
    · have := congrArg List.length hlist
      simp only [List.length_append, List.length_nil] at this
      omega
    · exact .inr ⟨sibling, rfl⟩
    · exact .inl (by simp)
  · obtain ⟨kept, hkept, hcut⟩ := cutLeaf_of_siblings hw hholds hsiblings
    exact ⟨kept, _, _, hkept, .inr rfl, hcut⟩
  · rcases cutLeaf_of_sibling hw hholds hsibling with ⟨hroot, hkept⟩ | ⟨kept, hkept, hcut⟩
    · exact ⟨sibling, _, _, hkept, .inl rfl, cutLeaf_root hroot hsibling⟩
    · exact ⟨kept, _, _, hkept, .inl rfl, hcut⟩

theorem Workspace.activeLeaf_mem {root : PaneNode} (h : w.activeLeaf root = some leaf) :
    leaf ∈ paneLeaves root := by
  rcases Option.or_eq_some_iff.mp h with hpointer | ⟨-, hhead⟩
  · obtain ⟨_, -, hfind⟩ := Option.bind_eq_some_iff.mp hpointer
    exact List.mem_of_find?_eq_some hfind
  · exact List.mem_of_mem_head? hhead

theorem Workspace.exists_activeLeaf {root : PaneNode} (h : paneLeaves root ≠ []) :
    ∃ leaf, w.activeLeaf root = some leaf := by
  obtain ⟨first, rest, hlist⟩ := List.exists_cons_of_ne_nil h
  rw [activeLeaf, hlist]
  cases (w.activePaneIds root.key).bind (paneForPaneId root) with
  | none => exact ⟨first, rfl⟩
  | some leaf => exact ⟨leaf, rfl⟩

theorem Held.exists_focusSurvivor {h : Held} (hleaves : paneLeaves h.workspace.root ≠ [])
    (paneId : String) (survivor : Option PaneLeaf) :
    ∃ next ∈ paneLeaves h.workspace.root, h.focusSurvivor paneId survivor =
      ⟨h.workspace.focusLeaf h.workspace.root next.paneId, h.captured⟩ := by
  obtain ⟨first, hfirst⟩ := Workspace.exists_activeLeaf (w := h.workspace) hleaves
  rw [focusSurvivor, hfirst]
  cases hkept : survivor.bind fun leaf => if leaf.paneId ≠ paneId then
      paneForPaneId h.workspace.root leaf.paneId else none with
  | none => exact ⟨first, Workspace.activeLeaf_mem hfirst, rfl⟩
  | some next =>
    refine ⟨next, ?_, rfl⟩
    obtain ⟨leaf, -, hfind⟩ := Option.bind_eq_some_iff.mp hkept
    split at hfind
    · exact List.mem_of_find?_eq_some hfind
    · cases hfind

theorem paneLeaves_of_without {root kept : PaneNode}
    (h : root.without (hasPaneId paneId) = some kept) :
    paneLeaves kept = (paneLeaves root).filter fun leaf => leaf.paneId ≠ paneId := by
  rw [paneLeaves, OrderedTree.leaves_of_without _ h]
  exact List.filter_congr fun leaf _ => by simp [hasPaneId]

theorem branching_of_without {root kept : PaneNode} (hroot : root.Branching)
    (h : root.without (hasPaneId paneId) = some kept) : kept.Branching :=
  OrderedTree.everywhere_without _ (fun _ _ _ _ htwo _ => htwo) hroot h

theorem paneLeaves_of_cut {root kept root' : PaneNode} (hroot : root.Branching)
    (h : root.without (hasPaneId paneId) = some kept)
    (hshape : root' = kept ∨ root' = normalizePaneTree kept) :
    paneLeaves root' = (paneLeaves root).filter fun leaf => leaf.paneId ≠ paneId := by
  rw [← paneLeaves_of_without h]
  rcases hshape with rfl | rfl
  · rfl
  · exact paneLeaves_normalizePaneTree (branching_of_without hroot h)

theorem exists_holds_of_two_le {root : PaneNode} (hmem : leaf ∈ paneLeaves root)
    (htwo : 2 ≤ (paneLeaves root).length) :
    ∃ split front back, OrderedTree.Holds (hasPaneId leaf.paneId) root split front leaf back := by
  cases hroot : root with
  | leaf a =>
    rw [paneLeaves, hroot, OrderedTree.leaves_leaf, List.length_singleton] at htwo
    omega
  | node split children =>
    exact OrderedTree.exists_holds rfl (hroot ▸ hmem) (decide_eq_true rfl)

/-- A collapse of an empty leaf beside others is the cut of the leaf and the focus of another. -/
theorem collapse_of_cut {h cut : Held} {slot : PaneSplit × List PaneNode × Nat}
    (hfind : paneForPaneId h.root leaf.paneId = some leaf) (hempty : leaf.tabs = [])
    (htwo : 2 ≤ (paneLeaves h.root).length) (hslot : findLeafSlot h.root leaf.paneId = some slot)
    (hcut : Held.cutLeaf ⟨h.workspace.unmaximize leaf.paneId, h.captured⟩ slot.1 slot.2.1 slot.2.2 =
      some cut)
    (hleaves : paneLeaves cut.workspace.root ≠ []) :
    ∃ survivor ∈ paneLeaves cut.workspace.root,
      collapseEmptyLeafInTree h leaf.paneId =
        some ⟨cut.workspace.focusLeaf cut.workspace.root survivor.paneId, cut.captured⟩ := by
  obtain ⟨survivor, hsurvivor, hfocus⟩ := Held.exists_focusSurvivor hleaves leaf.paneId
    (migrationTargetForClosedLeaf h.root leaf.paneId)
  refine ⟨survivor, hsurvivor, ?_⟩
  have hstays : ¬((paneLeaves h.root).length ≤ 1 ∨ leaf.tabs ≠ []) := by
    rw [not_or, not_not]
    exact ⟨by omega, hempty⟩
  rw [collapseEmptyLeafInTree, hfind, Option.bind_some, if_neg hstays, hslot, Option.bind_some]
  refine (congrArg (Option.map _) hcut).trans ?_
  rw [Option.map_some, hfocus]

/-- An empty leaf of a live tree with others goes, and one of the others has the focus. -/
theorem collapseEmptyLeafInTree_live (hw : Shaped w.root) (hmem : leaf ∈ paneLeaves w.root)
    (hempty : leaf.tabs = []) (htwo : 2 ≤ (paneLeaves w.root).length) :
    ∃ kept root captured survivor, w.root.without (hasPaneId leaf.paneId) = some kept ∧
      (root = kept ∨ root = normalizePaneTree kept) ∧ survivor ∈ paneLeaves root ∧
      collapseEmptyLeafInTree ⟨w, none⟩ leaf.paneId =
        some ⟨({ w.unmaximize leaf.paneId with root }).focusLeaf root survivor.paneId,
          captured⟩ := by
  obtain ⟨split, front, back, hholds⟩ := exists_holds_of_two_le hmem htwo
  obtain ⟨kept, root, captured, hkept, hshape, hcut⟩ :=
    Held.cutLeaf_live (w := w.unmaximize leaf.paneId) hw hholds
  have hleaves : paneLeaves root ≠ [] := by
    obtain ⟨other, hother, hne⟩ := hw.exists_other leaf.paneId htwo
    rw [paneLeaves_of_cut hw.branching hkept hshape]
    exact List.ne_nil_of_mem (List.mem_filter.mpr ⟨hother, decide_eq_true hne⟩)
  obtain ⟨survivor, hsurvivor, hcollapse⟩ := collapse_of_cut (h := ⟨w, none⟩)
    (hw.paneForPaneId_eq hmem) hempty htwo (hholds.slot_eq (hw.countP_le_one leaf.paneId)) hcut
    hleaves
  exact ⟨kept, root, captured, survivor, hkept, hshape, hsurvivor, hcollapse⟩

theorem collapseEmptyLeaf_cases (hw : Shaped w.root) (paneId : String) :
    w.collapseEmptyLeaf paneId = w ∨
    ∃ leaf ∈ paneLeaves w.root, leaf.paneId = paneId ∧ leaf.tabs = [] ∧
      ∃ kept root survivor, w.root.without (hasPaneId paneId) = some kept ∧
        (root = kept ∨ root = normalizePaneTree kept) ∧ survivor ∈ paneLeaves root ∧
        w.collapseEmptyLeaf paneId =
          ({ w.unmaximize paneId with root }).focusLeaf root survivor.paneId := by
  cases hfind : paneForPaneId w.root paneId with
  | none =>
    left
    rw [Workspace.collapseEmptyLeaf, collapseEmptyLeafInTree,
      show Held.root ⟨w, none⟩ = w.root from rfl, hfind]
    rfl
  | some leaf =>
    have hmem := List.mem_of_find?_eq_some hfind
    have hid : hasPaneId paneId leaf = true := List.find?_some hfind
    obtain rfl : leaf.paneId = paneId := of_decide_eq_true hid
    by_cases hstays : (paneLeaves w.root).length ≤ 1 ∨ leaf.tabs ≠ []
    · left
      rw [Workspace.collapseEmptyLeaf, collapseEmptyLeafInTree,
        show Held.root ⟨w, none⟩ = w.root from rfl, hfind, Option.bind_some, if_pos hstays]
      rfl
    · rw [not_or, not_le, not_not] at hstays
      obtain ⟨kept, root, captured, survivor, hkept, hshape, hsurvivor, hcollapse⟩ :=
        collapseEmptyLeafInTree_live hw hmem hstays.2 hstays.1
      refine .inr ⟨leaf, hmem, rfl, hstays.2, kept, root, survivor, hkept, hshape, hsurvivor, ?_⟩
      rw [Workspace.collapseEmptyLeaf, hcollapse]
      rfl

theorem paneLeaves_collapseEmptyLeaf (hw : Shaped w.root) (hmem : leaf ∈ paneLeaves w.root)
    (hempty : leaf.tabs = []) (htwo : 2 ≤ (paneLeaves w.root).length) :
    paneLeaves (w.collapseEmptyLeaf leaf.paneId).root =
      (paneLeaves w.root).filter fun other => other.paneId ≠ leaf.paneId := by
  obtain ⟨kept, root, captured, survivor, hkept, hshape, -, hcollapse⟩ :=
    collapseEmptyLeafInTree_live hw hmem hempty htwo
  rw [Workspace.collapseEmptyLeaf, hcollapse, ← paneLeaves_of_cut hw.branching hkept hshape]
  rfl

end Collapse

end HerdrWebui.Panes
