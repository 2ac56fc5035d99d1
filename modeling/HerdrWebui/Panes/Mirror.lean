import HerdrWebui.Panes.Sync

/-!
What a sync leaves: the leaves that are not emptied, each with its tabs that are shown, and a tree
that another sync does not touch.
-/

namespace HerdrWebui.Panes

open Concurrency

/-- Each leaf keeps its tabs but the placeholder, and one of them gets the ids without a leaf. -/
structure IsSeed (tabs : BackendTabs) (root : PaneNode) (seed : PaneLeaf → PaneLeaf) : Prop where
  paneId : ∀ leaf, (seed leaf).paneId = leaf.paneId
  keeps : ∀ leaf ∈ paneLeaves root, ∀ id ∈ leaf.tabs, id ≠ terminalTabPlaceholder →
    id ∈ (seed leaf).tabs
  comes : ∀ leaf ∈ paneLeaves root, ∀ id ∈ (seed leaf).tabs, id ∈ leaf.tabs ∨ id ∈ tabs.ids
  others : ∀ leaf ∈ paneLeaves root, seed leaf = leaf ∨ ∃ id ∈ tabs.ids, id ∈ (seed leaf).tabs
  serves : ∃ leaf ∈ paneLeaves root, ∃ id ∈ tabs.ids, id ∈ (seed leaf).tabs
  once : ∀ id ∈ tabs.ids, (((paneLeaves root).map seed).flatMap PaneLeaf.tabs).count id = 1
  client : ∀ leaf ∈ paneLeaves root,
    (seed leaf).tabs.filter isClientTab = leaf.tabs.filter isClientTab

theorem exists_isSeed {w : Workspace} {target : PaneLeaf} {tabs : BackendTabs} (h : Tidy w)
    (hmem : target ∈ paneLeaves w.root)
    (hserves : ∃ id ∈ tabs.ids, id ∈ seededTabs tabs.ids w.root target.tabs) :
    ∃ seed, IsSeed tabs w.root seed ∧
      seedTerminals tabs.ids target w = { w with root := w.root.mapLeaves seed } := by
  obtain ⟨f, hseed, hpane, htabs⟩ := exists_seed h.toShaped tabs.nodup target
  refine ⟨fun leaf => if leaf.paneId = target.paneId then f leaf else leaf, ?_, hseed⟩
  have hcases : ∀ leaf ∈ paneLeaves w.root,
      (if leaf.paneId = target.paneId then f leaf else leaf) = leaf ∨
      ((if leaf.paneId = target.paneId then f leaf else leaf) = f target ∧ leaf = target) := by
    intro leaf hleaf
    split
    · next heq =>
        obtain rfl := h.toShaped.eq_of_paneId hleaf hmem heq
        exact .inr ⟨rfl, rfl⟩
    · exact .inl rfl
  obtain ⟨first, hfirst, hshown⟩ := hserves
  rw [← htabs] at hshown
  refine ⟨fun leaf => ?_, fun leaf hleaf id hid hne => ?_, fun leaf hleaf id hid => ?_,
    fun leaf hleaf => ?_, ⟨target, hmem, first, hfirst, by rwa [if_pos rfl]⟩, fun id hid => ?_,
    fun leaf hleaf => ?_⟩
  · split
    · exact hpane leaf
    · rfl
  · rcases hcases leaf hleaf with heq | ⟨heq, rfl⟩
    · rwa [heq]
    · rw [heq, htabs]
      exact mem_seededTabs hne hid
  · rcases hcases leaf hleaf with heq | ⟨heq, rfl⟩
    · rw [heq] at hid
      exact .inl hid
    · rw [heq, htabs] at hid
      exact of_mem_seededTabs hid
  · rcases hcases leaf hleaf with heq | ⟨heq, rfl⟩
    · exact .inl heq
    · rw [heq]
      exact .inr ⟨first, hfirst, hshown⟩
  · have hone := count_seeded h hmem tabs htabs hid
    rwa [Workspace.modifyLeaf_root, paneLeaves_modifyLeaf] at hone
  · rcases hcases leaf hleaf with heq | ⟨heq, rfl⟩
    · rw [heq]
    · rw [heq, htabs, filter_seededTabs fun id hid => (tabs.terminal id hid).2.2]

section Prune

variable {w w' : Workspace} {root : PaneNode} {ids : List String} {p q : PaneLeaf → Bool}

theorem all_mapLeaves {f : PaneLeaf → PaneLeaf}
    (h : ∀ leaf ∈ paneLeaves root, p (f leaf) = q leaf) :
    (paneLeaves (root.mapLeaves f)).all p = (paneLeaves root).all q := by
  rw [paneLeaves, OrderedTree.leaves_mapLeaves, List.all_map, Bool.eq_iff_iff, List.all_eq_true,
    List.all_eq_true]
  exact forall₂_congr fun leaf hleaf => Bool.eq_iff_iff.mp (h leaf hleaf)

theorem losesHalf_mapLeaves {f : PaneLeaf → PaneLeaf}
    (h : ∀ leaf ∈ paneLeaves root, p (f leaf) = q leaf) :
    losesHalf p (root.mapLeaves f) = losesHalf q root := by
  rcases root with _ | ⟨split, _ | ⟨first, _ | ⟨_ | ⟨inner, halves⟩, _ | ⟨_, _⟩⟩⟩⟩
  · rfl
  · rfl
  · rfl
  · rfl
  · rfl
  · -- a second half that is a split
    have hfirst : ∀ leaf ∈ paneLeaves first, p (f leaf) = q leaf := fun leaf hleaf => h leaf (by
      rw [paneLeaves_pair]
      exact List.mem_append_left _ hleaf)
    have hhalves : ∀ half ∈ halves, ∀ leaf ∈ paneLeaves half, p (f leaf) = q leaf :=
      fun half hhalf leaf hleaf => h leaf (by
        rw [paneLeaves_pair, List.mem_append, paneLeaves, paneLeaves, OrderedTree.leaves_node,
          List.mem_flatMap]
        exact .inr ⟨half, hhalf, hleaf⟩)
    have hany : ((halves.map (OrderedTree.mapLeaves f)).any fun half => (paneLeaves half).all p) =
        halves.any fun half => (paneLeaves half).all q := by
      rw [List.any_map, Bool.eq_iff_iff, List.any_eq_true, List.any_eq_true]
      refine exists_congr fun half => and_congr_right fun hhalf => ?_
      exact Bool.eq_iff_iff.mp (all_mapLeaves (hhalves half hhalf))
    rw [OrderedTree.mapLeaves_node, List.map_cons, List.map_singleton, OrderedTree.mapLeaves_node,
      losesHalf, losesHalf, all_mapLeaves hfirst, hany]
  · rfl

theorem Sound.turns (h : Sound { w with root }) (hturns : w.Turns w' root) : Sound w' := by
  obtain ⟨_, _, rfl⟩ := hturns
  exact ⟨h.halves, h.refs, h.below, h.paneIds, h.used⟩

theorem Sound.halved (h : Sound w) : Halved w.root :=
  ⟨h.toShaped, h.halves.mono fun _ _ hn => hn.1⟩

/-- The leaves that are left, with their tabs that are shown. All of them can be seen from the root
that the sync goes on with. -/
theorem pruneTerminals_spec (h : Sound w) (hids : ids ≠ [])
    (hshown : ∃ leaf ∈ paneLeaves w.root, emptiedByPrune ids leaf = false)
    (hok : losesHalf (emptiedByPrune ids) w.root = false) :
    ∃ w' kept captured, pruneTerminals ids w = ⟨w', captured⟩ ∧ w.Turns w' kept ∧ Sound w' ∧
      paneLeaves kept =
        ((paneLeaves w.root).filter fun leaf => !emptiedByPrune ids leaf).map (pruneLeaf ids) ∧
      ∀ leaf ∈ paneLeaves kept, leaf ∈ paneLeaves (captured.getD kept) := by
  have hpruned : Sound { w with root := w.root.mapLeaves (pruneLeaf ids) } :=
    h.mapLeaves fun _ => rfl
  have hleaves : paneLeaves (w.root.mapLeaves (pruneLeaf ids)) =
      (paneLeaves w.root).map (pruneLeaf ids) := OrderedTree.leaves_mapLeaves _ _
  -- the leaves that go are known by their ids
  have hgone : ∀ leaf ∈ paneLeaves w.root,
      isGone (((paneLeaves w.root).filter (emptiedByPrune ids)).map PaneLeaf.paneId)
        (pruneLeaf ids leaf) = emptiedByPrune ids leaf := by
    intro leaf hleaf
    refine (isGone_map h.toShaped (List.filter_subset_self _) hleaf).trans ?_
    rw [Bool.eq_iff_iff, decide_eq_true_iff, List.mem_filter, and_iff_right hleaf]
  have hids' : ((paneLeaves (w.root.mapLeaves (pruneLeaf ids))).filter
      (isGone (((paneLeaves w.root).filter (emptiedByPrune ids)).map PaneLeaf.paneId))).map
        PaneLeaf.paneId =
      ((paneLeaves w.root).filter (emptiedByPrune ids)).map PaneLeaf.paneId := by
    rw [hleaves, List.filter_map, List.map_map]
    exact congrArg (List.map PaneLeaf.paneId) (List.filter_congr hgone)
  have hempty : ∀ pruned ∈ paneLeaves (w.root.mapLeaves (pruneLeaf ids)),
      isGone (((paneLeaves w.root).filter (emptiedByPrune ids)).map PaneLeaf.paneId) pruned = true →
        pruned.tabs = [] := by
    rw [hleaves, List.forall_mem_map]
    intro leaf hleaf hgoes
    rw [hgone leaf hleaf] at hgoes
    exact (of_decide_eq_true hgoes).2
  obtain ⟨leaf, hleaf, hstays⟩ := hshown
  obtain ⟨w', kept, captured, hkept, hturns, hrun, hseen⟩ := collapseLeaves_spec hpruned.halved
    hempty
    ⟨pruneLeaf ids leaf, by rw [hleaves]; exact List.mem_map_of_mem hleaf,
      (hgone leaf hleaf).trans hstays⟩
    ((losesHalf_mapLeaves hgone).trans hok)
  refine ⟨w', kept, captured, ?_, hturns, (hpruned.without hkept).turns hturns, ?_, hseen⟩
  · rw [pruneTerminals, if_neg hids, ← hids']
    exact hrun
  · refine (OrderedTree.leaves_of_without _ hkept).trans ?_
    rw [show (w.root.mapLeaves (pruneLeaf ids)).leaves = _ from hleaves, List.filter_map]
    refine congrArg _ (List.filter_congr fun leaf hleaf => ?_)
    exact congrArg _ (hgone leaf hleaf)

end Prune

def ShowsTab (leaf : PaneLeaf) : Prop :=
  (leaf.tabs = [] ∧ leaf.active = none) ∨ ∃ tabId ∈ leaf.tabs, leaf.active = some tabId

/-- An edit of what leaves show, and of nothing else. -/
structure OnlyActive (f : PaneLeaf → PaneLeaf) : Prop where
  paneId : ∀ leaf, (f leaf).paneId = leaf.paneId
  tabs : ∀ leaf, (f leaf).tabs = leaf.tabs

section Shown

variable {ids : List String} {leaf : PaneLeaf}

theorem onlyActive_healActive (ids : List String) : OnlyActive (healActive ids) := by
  refine ⟨fun leaf => ?_, fun leaf => ?_⟩ <;>
  · rw [healActive]
    split <;> rfl

theorem healActive_showsTab (h : ∀ id ∈ leaf.tabs, isShown ids id = true ∧ id ≠ "") :
    ShowsTab (healActive ids leaf) := by
  rw [healActive]
  split
  · next hshows =>
      obtain ⟨tabId, hactive, hmem⟩ := (Option.any_eq_true _ _).mp hshows
      exact .inr ⟨tabId, List.contains_iff_mem.mp hmem, hactive⟩
  · rcases htabs : leaf.tabs with - | ⟨first, rest⟩
    · exact .inl ⟨rfl, rfl⟩
    · obtain ⟨hshown, hne⟩ := h first (by rw [htabs]; exact List.mem_cons_self)
      refine .inr ⟨first, List.mem_cons_self, ?_⟩
      rw [List.find?_cons_of_pos hshown, orNull, Option.filter_some, if_pos (decide_eq_true hne)]
      rfl

theorem healActive_eq_self (h : ShowsTab leaf) : healActive ids leaf = leaf := by
  obtain ⟨paneId, tabs, active⟩ := leaf
  rcases h with ⟨htabs, hactive⟩ | ⟨tabId, hmem, hactive⟩
  · obtain rfl : tabs = [] := htabs
    obtain rfl : active = none := hactive
    rfl
  · obtain rfl : active = some tabId := hactive
    exact if_pos (List.contains_iff_mem.mpr hmem)

theorem Held.edit_id (h : Held) : h.edit (OrderedTree.mapLeaves fun leaf => leaf) = h := by
  have hid : (OrderedTree.mapLeaves fun leaf => leaf : PaneNode → PaneNode) = id :=
    funext OrderedTree.mapLeaves_id
  rw [edit, hid, Option.map_id]
  rfl

theorem onlyActive_modifyLeaf (paneId : String) (active : Option String) :
    OnlyActive fun leaf => if leaf.paneId = paneId then { leaf with active } else leaf := by
  refine ⟨fun leaf => ?_, fun leaf => ?_⟩ <;>
  · split <;> rfl

theorem exists_syncRoute (ids : List String) (routeTab : Option String) (h : Held) :
    ∃ f activePaneIds, OnlyActive f ∧ syncRoute ids routeTab h =
      ⟨{ h.workspace with root := h.workspace.root.mapLeaves f, activePaneIds },
        h.captured.map (OrderedTree.mapLeaves f)⟩ := by
  have hstays : h = ⟨{ h.workspace with root := h.workspace.root.mapLeaves fun leaf => leaf },
      h.captured.map (OrderedTree.mapLeaves fun leaf => leaf)⟩ := h.edit_id.symm
  have hsame : OnlyActive fun leaf => leaf := ⟨fun _ => rfl, fun _ => rfl⟩
  rw [syncRoute]
  dsimp only
  split
  · exact ⟨_, h.workspace.activePaneIds, hsame, hstays⟩
  · next owner _ =>
      split
      · exact ⟨_, _, onlyActive_modifyLeaf owner.paneId routeTab, rfl⟩
      · exact ⟨_, h.workspace.activePaneIds, hsame, hstays⟩

theorem healLeaves_root {h : Held} (target : PaneLeaf)
    (hseen : ∀ leaf ∈ paneLeaves h.workspace.root, leaf ∈ paneLeaves h.root) :
    (healLeaves ids target h).workspace =
      { h.workspace with root := h.workspace.root.mapLeaves (healActive ids) } := by
  have hroot : (h.workspace.root.mapLeaves fun leaf =>
      if (paneLeaves h.root).any (hasPaneId leaf.paneId) || hasPaneId target.paneId leaf then
        healActive ids leaf
      else leaf) = h.workspace.root.mapLeaves (healActive ids) :=
    OrderedTree.mapLeaves_congr fun leaf hleaf => if_pos (by
      rw [List.any_eq_true.mpr ⟨leaf, hseen leaf hleaf, decide_eq_true rfl⟩, Bool.true_or])
  rw [healLeaves, Held.edit, hroot]

end Shown

/-- The tree and the rest of the workspace after a sync. -/
structure Synced (tabs : BackendTabs) (routeTab : Option String) (w w' : Workspace)
    (seed shown : PaneLeaf → PaneLeaf) : Prop extends IsSeed tabs w.root seed where
  sound : Sound w'
  leaves : paneLeaves w'.root = (((paneLeaves w.root).map seed).filter fun leaf =>
    !emptiedByPrune tabs.ids leaf).map shown
  shownPaneId : ∀ leaf, (shown leaf).paneId = leaf.paneId
  shownTabs : ∀ leaf, (shown leaf).tabs = paneTabsForTree tabs.ids leaf
  active : ∀ leaf ∈ paneLeaves w'.root, ShowsTab leaf
  pendingNext : w'.pendingNext = none
  lastSyncedRouteTab : w'.lastSyncedRouteTab = some routeTab
  sawExplicitActive : w'.sawExplicitActive = false

theorem isShown_iff {ids : List String} {id : String} :
    isShown ids id = true ↔ isClientTab id = true ∨ id ∈ ids := by
  rw [isShown, Bool.or_eq_true, List.contains_iff_mem]

theorem ne_empty_of_isShown {tabs : BackendTabs} {id : String} (h : isShown tabs.ids id = true) :
    id ≠ "" := by
  rcases isShown_iff.mp h with hclient | hmem
  · rintro rfl
    exact absurd hclient (by decide)
  · exact (tabs.terminal id hmem).1

theorem Tidy.forget {w : Workspace} (h : Tidy w) (pendingNext : Option String) :
    Tidy { w with pendingNext } :=
  ⟨⟨h.halves, h.refs, h.below, h.paneIds, h.used⟩, h.terminals, h.placeholder⟩

theorem exists_synced {w : Workspace} {tabs : BackendTabs} {routeTab : Option String}
    (h : Tidy w) (hids : tabs.ids ≠ []) (hok : SyncOk w (.sync tabs routeTab)) :
    ∃ seed shown, Synced tabs routeTab w (syncTerminalTabsIntoTree tabs.ids routeTab w) seed
      shown := by
  obtain ⟨target, htarget⟩ :=
    exists_terminalLeafForSync h.toShaped.branching.leaves_ne_nil tabs.ids
  have htargetMem := terminalLeafForSync_mem htarget
  have hserves := exists_mem_seededTabs hids htarget
  obtain ⟨seed, hseed, hseeded⟩ := exists_isSeed (h.forget none) htargetMem hserves
  have hsound : Sound { w with root := w.root.mapLeaves seed, pendingNext := none } :=
    (h.forget none).toSound.mapLeaves hseed.paneId
  have hleaves : paneLeaves (w.root.mapLeaves seed) = (paneLeaves w.root).map seed :=
    OrderedTree.leaves_mapLeaves _ _
  have hkeeps := hok target htarget
  rw [hseeded] at hkeeps
  obtain ⟨leaf, hleaf, id, hid, hmem⟩ := hseed.serves
  have hstays : emptiedByPrune tabs.ids (seed leaf) = false := by
    refine decide_eq_false fun hnone => ?_
    have hin : id ∈ paneTabsForTree tabs.ids (seed leaf) :=
      List.mem_filter.mpr ⟨hmem, isShown_iff.mpr (.inr hid)⟩
    rw [hnone.2] at hin
    cases hin
  obtain ⟨pruned, kept, captured, hprune, hturns, hprunedSound, hkept, hseen⟩ :=
    pruneTerminals_spec hsound hids
      ⟨seed leaf, by rw [hleaves]; exact List.mem_map_of_mem hleaf, hstays⟩ hkeeps
  obtain ⟨f, activePaneIds, hf, hroute⟩ := exists_syncRoute tabs.ids routeTab ⟨pruned, captured⟩
  obtain rfl := hturns.root_eq
  have hsync : syncTerminalTabsIntoTree tabs.ids routeTab w =
      { pruned with
        root := (pruned.root.mapLeaves f).mapLeaves (healActive tabs.ids)
        activePaneIds
        lastSyncedRouteTab := some routeTab
        sawExplicitActive := false } := by
    rw [syncTerminalTabsIntoTree, htarget]
    dsimp only
    rw [hseeded, hprune, hroute]
    refine healLeaves_root target fun edited hedited => ?_
    rw [show Held.root _ = (captured.getD pruned.root).mapLeaves f by cases captured <;> rfl]
    rw [paneLeaves, OrderedTree.leaves_mapLeaves] at hedited ⊢
    obtain ⟨leaf, hleaf, rfl⟩ := List.mem_map.mp hedited
    exact List.mem_map_of_mem (hseen leaf hleaf)
  have hheal := onlyActive_healActive tabs.ids
  refine ⟨seed, fun leaf => healActive tabs.ids (f (pruneLeaf tabs.ids leaf)), hseed, ?_, ?_,
    fun leaf => ?_, fun leaf => ?_, ?_, ?_, ?_, ?_⟩
  · rw [hsync]
    have hhealed := (hprunedSound.mapLeaves hf.paneId).mapLeaves hheal.paneId
    exact ⟨hhealed.halves, hhealed.refs, hhealed.below, hhealed.paneIds, hhealed.used⟩
  · rw [hsync, paneLeaves, OrderedTree.leaves_mapLeaves, OrderedTree.leaves_mapLeaves,
      show pruned.root.leaves = _ from hkept, hleaves, List.map_map, List.map_map]
    rfl
  · rw [hheal.paneId, hf.paneId]
    rfl
  · rw [hheal.tabs, hf.tabs]
    rfl
  · rw [hsync, paneLeaves, OrderedTree.leaves_mapLeaves, OrderedTree.leaves_mapLeaves,
      show pruned.root.leaves = _ from hkept]
    simp only [List.forall_mem_map]
    intro leaf _
    refine healActive_showsTab fun id hmem => ?_
    rw [hf.tabs] at hmem
    have hshown := List.of_mem_filter hmem
    exact ⟨hshown, ne_empty_of_isShown hshown⟩
  · rw [hsync]
    obtain ⟨_, _, heq⟩ := hturns
    exact congrArg Workspace.pendingNext heq
  · rw [hsync]
  · rw [hsync]

namespace Synced

variable {tabs : BackendTabs} {routeTab : Option String} {w w' : Workspace}
  {seed shown : PaneLeaf → PaneLeaf}

theorem of_mem (h : Synced tabs routeTab w w' seed shown) {leaf' : PaneLeaf}
    (hleaf' : leaf' ∈ paneLeaves w'.root) :
    ∃ leaf ∈ paneLeaves w.root, leaf'.paneId = leaf.paneId ∧
      leaf'.tabs = paneTabsForTree tabs.ids (seed leaf) ∧
      emptiedByPrune tabs.ids (seed leaf) = false := by
  rw [h.leaves] at hleaf'
  obtain ⟨seeded, hseeded, rfl⟩ := List.mem_map.mp hleaf'
  obtain ⟨hmem, hstays⟩ := List.mem_filter.mp hseeded
  obtain ⟨leaf, hleaf, rfl⟩ := List.mem_map.mp hmem
  refine ⟨leaf, hleaf, ?_, h.shownTabs _, by simpa using hstays⟩
  rw [h.shownPaneId, h.toIsSeed.paneId]

theorem exists_mem (h : Synced tabs routeTab w w' seed shown) {leaf : PaneLeaf}
    (hleaf : leaf ∈ paneLeaves w.root) {id : String} (hid : id ∈ (seed leaf).tabs)
    (hshown : isShown tabs.ids id = true) :
    ∃ leaf' ∈ paneLeaves w'.root, leaf'.paneId = leaf.paneId ∧ id ∈ leaf'.tabs := by
  have hin : id ∈ paneTabsForTree tabs.ids (seed leaf) := List.mem_filter.mpr ⟨hid, hshown⟩
  refine ⟨shown (seed leaf), ?_, ?_, by rwa [h.shownTabs]⟩
  · rw [h.leaves]
    refine List.mem_map_of_mem (List.mem_filter.mpr ⟨List.mem_map_of_mem hleaf, ?_⟩)
    rw [Bool.not_eq_true']
    exact decide_eq_false fun hnone => List.ne_nil_of_mem hin hnone.2
  · rw [h.shownPaneId, h.toIsSeed.paneId]

theorem allTabs_eq (h : Synced tabs routeTab w w' seed shown) :
    (paneLeaves w'.root).flatMap PaneLeaf.tabs =
      (((paneLeaves w.root).map seed).flatMap PaneLeaf.tabs).filter (isShown tabs.ids) := by
  rw [h.leaves, List.flatMap_map, List.filter_flatMap,
    flatMap_filter_of_nil (f := fun leaf => (shown leaf).tabs)]
  · exact List.flatMap_congr fun leaf _ => h.shownTabs leaf
  · intro leaf _ hgone
    rw [h.shownTabs]
    exact (of_decide_eq_true ((Bool.not_eq_false' _).mp hgone)).2

theorem shown_of_mem (h : Synced tabs routeTab w w' seed shown) {leaf' : PaneLeaf}
    (hleaf' : leaf' ∈ paneLeaves w'.root) {id : String} (hid : id ∈ leaf'.tabs) :
    isShown tabs.ids id = true := by
  obtain ⟨leaf, -, -, htabs, -⟩ := h.of_mem hleaf'
  rw [htabs] at hid
  exact List.of_mem_filter hid

theorem count_eq_one (h : Synced tabs routeTab w w' seed shown) {id : String}
    (hid : id ∈ tabs.ids) : ((paneLeaves w'.root).flatMap PaneLeaf.tabs).count id = 1 := by
  rw [h.allTabs_eq, List.count_filter (isShown_iff.mpr (.inr hid))]
  exact h.once id hid

theorem empty_before (h : Synced tabs routeTab w w' seed shown) (hw : Shaped w.root)
    {leaf' : PaneLeaf} (hleaf' : leaf' ∈ paneLeaves w'.root) (hempty : leaf'.tabs = [])
    {leaf : PaneLeaf} (hleaf : leaf ∈ paneLeaves w.root) (hpane : leaf.paneId = leaf'.paneId) :
    leaf.tabs = [] := by
  obtain ⟨origin, horigin, hid, htabs, hstays⟩ := h.of_mem hleaf'
  obtain rfl := hw.eq_of_paneId hleaf horigin (hpane.trans hid)
  rw [hempty] at htabs
  have hnone : (seed leaf).tabs = [] := by
    by_contra hne
    exact of_decide_eq_false hstays ⟨hne, htabs.symm⟩
  rcases h.others leaf hleaf with hsame | ⟨id, -, hmem⟩
  · rwa [hsame] at hnone
  · rw [hnone] at hmem
    cases hmem

theorem seedTerminals_eq (h : Synced tabs routeTab w w' seed shown) {target : PaneLeaf}
    (htarget : target ∈ paneLeaves w'.root) : seedTerminals tabs.ids target w' = w' := by
  have hplace : terminalTabPlaceholder ∉ target.tabs := fun hmem => by
    rcases isShown_iff.mp (h.shown_of_mem htarget hmem) with hclient | hin
    · exact absurd hclient (by decide +kernel)
    · exact (tabs.terminal _ hin).2.1 rfl
  have hnone : tabs.ids.filter (isMissing w'.root) = [] :=
    List.filter_eq_nil_iff.mpr fun id hid => by
      have hin := List.count_pos_iff.mp (by rw [h.count_eq_one hid]; exact Nat.one_pos)
      rw [mem_allTabs_iff.mp hin]
      decide
  rw [seedTerminals, if_neg fun hseed => hplace hseed.1,
    foldl_addTerminal h.sound.toShaped tabs.nodup, hnone]
  exact modifyLeaf_self fun leaf _ _ => by rw [List.append_nil]

theorem pruneTerminals_eq (h : Synced tabs routeTab w w' seed shown) :
    pruneTerminals tabs.ids w' = ⟨w', none⟩ := by
  have hsame : ∀ leaf ∈ paneLeaves w'.root, paneTabsForTree tabs.ids leaf = leaf.tabs :=
    fun leaf hleaf => List.filter_eq_self.mpr fun id hid => h.shown_of_mem hleaf hid
  have hnone : (paneLeaves w'.root).filter (emptiedByPrune tabs.ids) = [] :=
    List.filter_eq_nil_iff.mpr fun leaf hleaf hgone => by
      have hempty := of_decide_eq_true hgone
      rw [hsame leaf hleaf] at hempty
      exact hempty.1 hempty.2
  have hroot : w'.root.mapLeaves (pruneLeaf tabs.ids) = w'.root := by
    refine (OrderedTree.mapLeaves_congr fun leaf hleaf => ?_).trans (OrderedTree.mapLeaves_id _)
    rw [pruneLeaf, hsame leaf hleaf]
  rw [pruneTerminals, hnone, hroot, ite_eq_left_iff]
  exact fun _ => rfl

theorem again (h : Synced tabs routeTab w w' seed shown) (pendingNext : Option String) :
    syncTerminalTabsIntoTree tabs.ids routeTab { w' with pendingNext } = w' := by
  obtain ⟨target, htarget⟩ := exists_terminalLeafForSync (w := { w' with pendingNext })
    h.sound.toShaped.branching.leaves_ne_nil tabs.ids
  have hmem := terminalLeafForSync_mem htarget
  have hforgot : { w' with pendingNext := none } = w' := by
    obtain ⟨_, _, _, _, _, _, _, _, _⟩ := w'
    obtain rfl := h.pendingNext
    rfl
  rw [syncTerminalTabsIntoTree, htarget]
  dsimp only
  rw [hforgot, h.seedTerminals_eq hmem, h.pruneTerminals_eq]
  have hroute : syncRoute tabs.ids routeTab ⟨w', none⟩ = ⟨w', none⟩ := by
    rw [syncRoute, h.lastSyncedRouteTab]
    split
    · rfl
    · exact if_neg fun hmoves => hmoves.1 rfl
  have hheal : w'.root.mapLeaves (healActive tabs.ids) = w'.root :=
    (OrderedTree.mapLeaves_congr fun leaf hleaf => healActive_eq_self (h.active leaf hleaf)).trans
      (OrderedTree.mapLeaves_id _)
  rw [hroute, healLeaves_root]
  · dsimp only
    rw [hheal, ← h.lastSyncedRouteTab, ← h.sawExplicitActive]
  · exact fun _ => id

theorem mirrors (h : Synced tabs routeTab w w' seed shown) (hw : Shaped w.root) :
    Mirrors tabs routeTab w w' where
  once id hid := h.count_eq_one hid
  stays id hid leaf hleaf hmem :=
    h.exists_mem hleaf (h.keeps leaf hleaf id hmem (tabs.terminal id hid).2.1)
      (isShown_iff.mpr (.inr hid))
  only leaf' hleaf' id hid := isShown_iff.mp (h.shown_of_mem hleaf' hid)
  client id hclient paneId := by
    constructor
    · rintro ⟨leaf', hleaf', rfl, hid⟩
      obtain ⟨leaf, hleaf, hpane, htabs, -⟩ := h.of_mem hleaf'
      rw [htabs] at hid
      refine ⟨leaf, hleaf, hpane.symm,
        (h.comes leaf hleaf id (List.mem_of_mem_filter hid)).resolve_right fun hin => ?_⟩
      rw [(tabs.terminal id hin).2.2] at hclient
      cases hclient
    · rintro ⟨leaf, hleaf, rfl, hid⟩
      refine h.exists_mem hleaf (h.keeps leaf hleaf id hid ?_) (isShown_iff.mpr (.inl hclient))
      rintro rfl
      exact absurd hclient (by decide +kernel)
  kept _ hleaf' hempty _ hleaf hpane := h.empty_before hw hleaf' hempty hleaf hpane
  active leaf' hleaf' := h.active leaf' hleaf'
  again := h.again w.pendingNext

theorem tidy (h : Synced tabs routeTab w w' seed shown) : Tidy w' where
  toSound := h.sound
  terminals := by
    rw [List.nodup_iff_count_le_one]
    intro id
    by_cases hin : id ∈ tabs.ids
    · exact (List.filter_sublist.count_le id).trans (h.count_eq_one hin).le
    · rw [List.count_eq_zero_of_not_mem fun hmem => ?_]
      · exact Nat.zero_le 1
      · obtain ⟨hmem, hterminal⟩ := List.mem_filter.mp hmem
        obtain ⟨leaf', hleaf', hid⟩ := List.mem_flatMap.mp hmem
        have hclient := (isShown_iff.mp (h.shown_of_mem hleaf' hid)).resolve_right hin
        rw [isTerminalTab, hclient] at hterminal
        cases hterminal
  placeholder hmem := by
    obtain ⟨leaf', hleaf', hid⟩ := List.mem_flatMap.mp (List.mem_of_mem_filter hmem)
    rcases isShown_iff.mp (h.shown_of_mem hleaf' hid) with hclient | hin
    · exact absurd hclient (by decide +kernel)
    · exact absurd rfl (tabs.terminal _ hin).2.1

end Synced

section Runs

variable {w w' : Workspace}

theorem Tidy.of_keeps (h : Tidy w) (hkeeps : Keeps isTerminalTab w w') : Tidy w' where
  toSound := hkeeps.sound
  terminals := by
    obtain ⟨terminals, hperm, hsub⟩ := hkeeps.tabIds
    exact hperm.nodup_iff.mp (h.terminals.sublist hsub)
  placeholder hmem := by
    have hsub := hkeeps.tabIds
    rw [h.placeholder (hkeeps.tabIds.subset hmem)] at hsub
    exact List.perm_singleton.mp (hsub.perm_of_length_le (List.length_pos_of_mem hmem))

theorem tabIds_mapLeaves (q : String → Bool) (root : PaneNode) {f : PaneLeaf → PaneLeaf}
    (hf : OnlyActive f) : tabIds q (root.mapLeaves f) = tabIds q root := by
  rw [tabIds, paneLeaves, OrderedTree.leaves_mapLeaves, List.flatMap_map, tabIds]
  exact congrArg _ (List.flatMap_congr fun leaf _ => hf.tabs leaf)

theorem keeps_of_no_tabs (h : Tidy w) (routeTab : Option String) :
    Keeps isTerminalTab w (syncTerminalTabsIntoTree [] routeTab w) := by
  obtain ⟨target, htarget⟩ := exists_terminalLeafForSync h.toShaped.branching.leaves_ne_nil []
  have hseed : seedTerminals [] target { w with pendingNext := none } =
      { w with pendingNext := none } := if_neg fun hseed => hseed.2.2 rfl
  obtain ⟨f, activePaneIds, hf, hroute⟩ :=
    exists_syncRoute [] routeTab ⟨{ w with pendingNext := none }, none⟩
  have hheal := onlyActive_healActive []
  rw [syncTerminalTabsIntoTree, htarget]
  dsimp only
  rw [hseed, pruneTerminals, if_pos rfl, hroute, healLeaves_root]
  · have hhealed := (h.toSound.mapLeaves hf.paneId).mapLeaves hheal.paneId
    refine ⟨⟨hhealed.halves, hhealed.refs, hhealed.below, hhealed.paneIds, hhealed.used⟩, ?_⟩
    rw [tabIds_mapLeaves _ _ hheal, tabIds_mapLeaves _ _ hf]
  · exact fun _ => id

theorem tidy_initial : Tidy Workspace.initial where
  halves := .leaf _
  refs := List.nodup_nil
  below := by simp [Workspace.initial]
  paneIds := List.nodup_singleton _
  used := by simp [Workspace.initial, paneLeaves]
  terminals := by decide +kernel
  placeholder := by decide +kernel

theorem Tidy.step {action : PaneAction} (h : Tidy w) (hok : SyncOk w action)
    (hstep : paneSystem.step w action = some w') : Tidy w' := by
  cases action with
  | layout command =>
    obtain rfl : command.run w = w' := Option.some.inj hstep
    refine h.of_keeps (LayoutCommand.keeps ?_ h.toSound command)
    intro tabId hclient
    rw [isTerminalTab, hclient]
    rfl
  | sync tabs routeTab =>
    obtain rfl : syncTerminalTabsIntoTree tabs.ids routeTab w = w' := Option.some.inj hstep
    by_cases hids : tabs.ids = []
    · rw [hids]
      exact h.of_keeps (keeps_of_no_tabs h routeTab)
    · obtain ⟨seed, shown, hsynced⟩ := exists_synced h hids hok
      exact hsynced.tidy

theorem tidy_of_reachVia (h : paneSystem.ReachVia SyncOk w) : Tidy w :=
  h.invariant (fun _ hinit => hinit ▸ tidy_initial) fun _ _ _ _ htidy hok hstep =>
    htidy.step hok hstep

end Runs

/-- In every run whose syncs do not empty a half of the root together with a half of the other half,
each sync mirrors the backend, wherever the + was pressed last. -/
theorem syncTerminalTabsIntoTree_mirrors {w : Workspace} (h : paneSystem.ReachVia SyncOk w)
    (tabs : BackendTabs) (hids : tabs.ids ≠ []) (routeTab pendingNext : Option String)
    (hok : SyncOk { w with pendingNext } (.sync tabs routeTab)) :
    Mirrors tabs routeTab { w with pendingNext }
      (syncTerminalTabsIntoTree tabs.ids routeTab { w with pendingNext }) := by
  have htidy := (tidy_of_reachVia h).forget pendingNext
  obtain ⟨seed, shown, hsynced⟩ := exists_synced htidy hids hok
  exact hsynced.mirrors htidy.toShaped

/-- A terminal from the first list goes to a pane that was split off. -/
theorem syncTerminalTabsIntoTree_mirrors_split :
    let tabs : BackendTabs := ⟨["t1"], by decide, by decide +kernel⟩
    let w := (Workspace.initial.splitActivePane .row).newTabForPane "p2"
    Mirrors tabs (some "t1") w (syncTerminalTabsIntoTree tabs.ids (some "t1") w) := by
  intro tabs w
  have hreach : paneSystem.ReachVia SyncOk (Workspace.initial.splitActivePane .row) :=
    .step (a := .layout (.splitActivePane .row)) (.init rfl) trivial rfl
  exact syncTerminalTabsIntoTree_mirrors hreach tabs (by decide) (some "t1") (some "p2")
    (by decide +kernel)

/-- Three panes with a terminal each, of which the first two go together: the second stays, without
tabs, as the old root is the one that lost it. -/
theorem syncTerminalTabsIntoTree_leaves_dead_pane :
    ∃ w, paneSystem.Reachable w ∧ ∃ (tabs : BackendTabs) (routeTab : Option String),
      tabs.ids ≠ [] ∧
      ¬Mirrors tabs routeTab w (syncTerminalTabsIntoTree tabs.ids routeTab w) := by
  let first : BackendTabs := ⟨["t1"], by decide, by decide +kernel⟩
  let second : BackendTabs := ⟨["t1", "t2"], by decide, by decide +kernel⟩
  let third : BackendTabs := ⟨["t1", "t2", "t3"], by decide, by decide +kernel⟩
  let last : BackendTabs := ⟨["t3"], by decide, by decide +kernel⟩
  have hreach := @System.reachable_get _ _ paneSystem .initial
    [.sync first (some "t1"), .layout (.splitActivePane .row), .layout (.newTabForPane "p2"),
      .sync second (some "t2"), .layout (.splitActivePane .column), .layout (.newTabForPane "p3"),
      .sync third (some "t3")] rfl (by decide +kernel)
  refine ⟨_, hreach, last, some "t3", by decide, fun h => ?_⟩
  have hkept := h.kept ⟨"p2", [], some "t2"⟩ (by decide +kernel) rfl ⟨"p2", ["t2"], some "t2"⟩
    (by decide +kernel) rfl
  cases hkept

end HerdrWebui.Panes
