import HerdrWebui.Panes.Mirror

/-!
One owner for each tab. As a list in no order, the tabs of a tree are what the commands that open
and close tabs make of them: splitting, closing and moving panes neither loses a tab nor shows it
twice, and a sync changes terminals alone.
-/

namespace HerdrWebui.Panes

open Concurrency

def allTabs (root : PaneNode) : List String := (paneLeaves root).flatMap PaneLeaf.tabs

/-- A file or a Git view that a leaf shows is one of its tabs. -/
def ShowsOwn (leaf : PaneLeaf) : Prop :=
  ∀ tabId ∈ leaf.active, isClientTab tabId = true → tabId ∈ leaf.tabs

/-- The tabs of a tree in some order, in leaves that show their own. -/
structure Owns (tabs : List String) (root : PaneNode) : Prop where
  perm : (allTabs root).Perm tabs
  shows : ∀ leaf ∈ paneLeaves root, ShowsOwn leaf

/-- What is left of a list of tabs, which knows nothing of panes. -/
def LayoutCommand.tabsAfter (root : PaneNode) (tabs : List String) : LayoutCommand → List String
  | paneEnsureEditorTab path => tabs.insert (editorTabId path)
  | paneEnsureGitTab viewKey => tabs.insert (gitTabId viewKey)
  | closeEditorTabImmediate path => tabs.erase (editorTabId path)
  | closeGitTabImmediate viewKey => tabs.erase (gitTabId viewKey)
  | collapseLeafForClosedTab tabId =>
    match root with
    | .leaf _ => tabs
    | .node _ _ => if tabId = "" then tabs else tabs.erase tabId
  | splitActivePane _ | splitPaneFor _ _ | closeActivePane _ | closePaneFor _ _
  | movePaneTabTo _ _ _ | moveActiveTabToNextPane | maximizePaneFor _ | newTabForPane _
  | setActivePaneTab _ => tabs

def PaneAction.tabsAfter (root : PaneNode) (tabs : List String) : PaneAction → List String
  | layout command => command.tabsAfter root tabs
  | sync backend _ =>
    if backend.ids = [] then tabs else tabs.filter isClientTab ++ backend.ids

/-- The tab that a module says it has shown. -/
def PaneAction.shown : PaneAction → Option String
  | layout (.setActivePaneTab tabId) => some tabId
  | _ => none

/-- A sync is as it must be, and a file or a Git view is shown while it is in the tree: what its
module says too late, after the tab is closed, makes a leaf show what it has not. -/
def OwnerOk (w : Workspace) (action : PaneAction) : Prop :=
  SyncOk w action ∧ ∀ tabId ∈ action.shown, isClientTab tabId = true → tabId ∈ allTabs w.root

instance (w : Workspace) : DecidablePred (OwnerOk w) :=
  fun _ => inferInstanceAs (Decidable (_ ∧ _))

section Edits

variable {w : Workspace} {root : PaneNode} {tabs : List String} {leaf source target : PaneLeaf}
  {tabId : String}

theorem mem_of_mem_orNull {shown : Option String} (h : tabId ∈ orNull shown) : tabId ∈ shown :=
  (Option.filter_eq_some_iff.mp h).1

theorem mem_allTabs (hmem : leaf ∈ paneLeaves root) (htab : tabId ∈ leaf.tabs) :
    tabId ∈ allTabs root :=
  List.mem_flatMap.mpr ⟨leaf, hmem, htab⟩

theorem paneForTab_spec (h : paneForTab root tabId = some leaf) :
    leaf ∈ paneLeaves root ∧ tabId ∈ leaf.tabs := by
  have hheld : leaf.tabs.contains tabId = true :=
    List.find?_some (p := fun leaf : PaneLeaf => leaf.tabs.contains tabId) h
  exact ⟨List.mem_of_find?_eq_some h, List.contains_iff_mem.mp hheld⟩

theorem insertTab_perm (tabs : List String) (index : Option Nat) (tabId : String) :
    (insertTab tabs index tabId).Perm (tabId :: tabs) :=
  List.perm_insertIdx _ _ (min_le_right _ _)

namespace Owns

theorem not_mem (h : Owns tabs root) (hfind : paneForTab root tabId = none) : tabId ∉ tabs := by
  intro hmem
  obtain ⟨leaf, hleaf, htab⟩ := List.mem_flatMap.mp (h.perm.mem_iff.mpr hmem)
  exact List.find?_eq_none.mp hfind leaf hleaf (List.contains_iff_mem.mpr htab)

theorem of_leaves {leaves : List PaneLeaf} (hleaves : (paneLeaves root).Perm leaves)
    (hperm : (leaves.flatMap PaneLeaf.tabs).Perm tabs) (hshows : ∀ leaf ∈ leaves, ShowsOwn leaf) :
    Owns tabs root :=
  ⟨(hleaves.flatMap_right _).trans hperm, fun leaf hleaf => hshows leaf (hleaves.subset hleaf)⟩

/-- One leaf is edited, and the tabs of the others are there as before. -/
theorem modifyLeaf (h : Owns tabs w.root) (hw : Shaped w.root) (hmem : target ∈ paneLeaves w.root)
    {f : PaneLeaf → PaneLeaf} (hshows : ShowsOwn (f target)) :
    ∃ rest, tabs.Perm (target.tabs ++ rest) ∧
      Owns ((f target).tabs ++ rest) (w.modifyLeaf target.paneId f).root := by
  obtain ⟨rest, hbefore, hafter⟩ := modifyLeaf_perm hw hmem f
  refine ⟨rest.flatMap PaneLeaf.tabs, h.perm.symm.trans (hbefore.flatMap_right _),
    of_leaves hafter (.refl _) ?_⟩
  intro leaf hleaf
  rcases List.mem_cons.mp hleaf with rfl | hleaf
  · exact hshows
  · exact h.shows leaf (hbefore.symm.subset (List.mem_cons_of_mem _ hleaf))

theorem modifyLeaf_same (h : Owns tabs w.root) (hw : Shaped w.root)
    (hmem : target ∈ paneLeaves w.root) {f : PaneLeaf → PaneLeaf}
    (htabs : (f target).tabs.Perm target.tabs) (hshows : ShowsOwn (f target)) :
    Owns tabs (w.modifyLeaf target.paneId f).root := by
  obtain ⟨rest, hbefore, hafter⟩ := h.modifyLeaf hw hmem hshows
  exact ⟨hafter.perm.trans ((htabs.append_right rest).trans hbefore.symm), hafter.shows⟩

theorem modifyLeaf_erase (h : Owns tabs w.root) (hw : Shaped w.root)
    (hmem : target ∈ paneLeaves w.root) (htab : tabId ∈ target.tabs) {f : PaneLeaf → PaneLeaf}
    (htabs : (f target).tabs = target.tabs.erase tabId) (hshows : ShowsOwn (f target)) :
    Owns (tabs.erase tabId) (w.modifyLeaf target.paneId f).root := by
  obtain ⟨rest, hbefore, hafter⟩ := h.modifyLeaf hw hmem hshows
  refine ⟨hafter.perm.trans ?_, hafter.shows⟩
  rw [htabs, ← List.erase_append_left _ htab]
  exact (hbefore.erase tabId).symm

theorem collapseEmptyLeaf (h : Owns tabs w.root) (hw : Shaped w.root) (paneId : String) :
    Owns tabs (w.collapseEmptyLeaf paneId).root := by
  have hperm : allTabs (w.collapseEmptyLeaf paneId).root = allTabs w.root := by
    simpa [allTabs, tabIds] using tabIds_collapseEmptyLeaf (q := fun _ => true) hw paneId
  refine ⟨hperm ▸ h.perm, ?_⟩
  rcases collapseEmptyLeaf_cases hw paneId with
    heq | ⟨leaf, -, -, -, kept, root, survivor, hkept, hshape, -, heq⟩
  · rw [heq]
    exact h.shows
  · rw [heq, Workspace.focusLeaf_root, paneLeaves_of_cut hw.branching hkept hshape]
    exact fun leaf hleaf => h.shows leaf (List.mem_of_mem_filter hleaf)

theorem splitLeaf (h : Owns tabs w.root) (hw : Shaped w.root) (hmem : leaf ∈ paneLeaves w.root)
    (kind : SplitKind) : Owns tabs (w.splitLeaf leaf kind).root := by
  refine of_leaves (paneLeaves_splitLeaf hw hmem kind) ?_ ?_
  · rw [List.flatMap_append]
    simpa [allTabs, Workspace.newEmptyLeaf] using h.perm
  · intro other hother
    rcases List.mem_append.mp hother with hother | hother
    · exact h.shows other hother
    · obtain rfl := List.mem_singleton.mp hother
      simp [ShowsOwn, Workspace.newEmptyLeaf]

theorem splitActivePane (h : Owns tabs w.root) (hw : Shaped w.root) (kind : SplitKind) :
    Owns tabs (w.splitActivePane kind).root := by
  rw [Workspace.splitActivePane]
  split
  · exact h
  · next leaf hactive =>
      exact splitLeaf (w := { w with maximizedPaneId := none }) h hw
        (Workspace.activeLeaf_mem hactive) kind

theorem splitPaneFor (h : Owns tabs w.root) (hw : Shaped w.root) (paneId : String)
    (kind : SplitKind) : Owns tabs (w.splitPaneFor paneId kind).root := by
  rw [Workspace.splitPaneFor]
  split
  · exact h
  · next leaf _ =>
      split
      · split
        · exact splitActivePane (w := w.focusLeaf w.root leaf.paneId) h hw kind
        · -- a split turns, and no leaf is touched
          next parent _ _ =>
          have hleaves := OrderedTree.leaves_relabel (fun split _ =>
            if split.ref = parent.ref then { split with kind } else split) w.root
          exact of_leaves (.of_eq hleaves) h.perm h.shows
      · exact splitActivePane (w := w.focusLeaf w.root leaf.paneId) h hw kind

end Owns

end Edits

section Moving

variable {w : Workspace} {tabs : List String} {leaf source target : PaneLeaf} {tabId : String}

theorem foldl_append_of_nodup {new all : List String} (h : (all ++ new).Nodup) :
    new.foldl (fun all tabId => if all.contains tabId then all else all ++ [tabId]) all =
      all ++ new := by
  induction new generalizing all with
  | nil => simp
  | cons tabId new ih =>
    have hout : tabId ∉ all := fun hmem =>
      List.disjoint_of_nodup_append h hmem List.mem_cons_self
    rw [List.append_cons] at h
    rw [List.foldl_cons, if_neg fun hmem => hout (List.contains_iff_mem.mp hmem), ih h,
      ← List.append_cons]

theorem inherit_shows (routeTab : Option String) :
    ShowsOwn (Workspace.inherit tabs routeTab target) := by
  intro tabId hactive _
  simp only [Workspace.inherit] at hactive ⊢
  split at hactive
  · next hkept =>
      obtain ⟨shown, hshown, hmem⟩ := (Option.any_eq_true _ _).mp hkept
      obtain rfl := Option.some.inj ((mem_of_mem_orNull hshown).symm.trans hactive)
      exact List.contains_iff_mem.mp hmem
  · rcases Option.or_eq_some_iff.mp hactive with hroute | ⟨-, hhead⟩
    · exact List.contains_iff_mem.mp (Option.filter_eq_some_iff.mp hroute).2
    · exact List.mem_of_mem_head? (mem_of_mem_orNull hhead)

theorem Owns.closeActivePane (h : Owns tabs w.root) (hw : Shaped w.root) (hnodup : tabs.Nodup)
    (routeTab : Option String) : Owns tabs (w.closeActivePane routeTab).root := by
  rcases closeActivePane_cases hw routeTab with
    heq | ⟨leaf, hmem, migration, hmigration, hne, kept, root, survivor, hkept, hshape, -, heq⟩
  · rwa [heq]
  · rw [heq, Workspace.focusLeaf_root]
    obtain ⟨rest, hbefore, hafter⟩ := paneLeaves_of_close hw hmem hmigration hne
      (inherit_paneId leaf.tabs routeTab) hkept hshape
    have hall := h.perm.symm.trans (hbefore.flatMap_right PaneLeaf.tabs)
    simp only [List.flatMap_cons, ← List.append_assoc] at hall
    have hboth := (hall.trans (List.perm_append_comm.append_right _))
    refine .of_leaves hafter ?_ ?_
    · rw [List.flatMap_cons, show (Workspace.inherit leaf.tabs routeTab migration).tabs = _ from
        foldl_append_of_nodup (hboth.nodup_iff.mp hnodup).of_append_left]
      exact hboth.symm
    · intro other hother
      rcases List.mem_cons.mp hother with rfl | hother
      · exact inherit_shows routeTab
      · exact h.shows other (hbefore.symm.subset (by simp [hother]))

theorem otherLeaf_mem {leaves : List PaneLeaf} (hmem : source ∈ leaves) :
    otherLeaf leaves source ∈ leaves := by
  rw [otherLeaf]
  cases hnext : (if leaves[0]? = some source then leaves[1]? else none) with
  | some next =>
    split at hnext
    · exact List.mem_of_getElem? hnext
    · cases hnext
  | none =>
    cases hfind : leaves.find? fun leaf => leaf.paneId ≠ source.paneId with
    | some other => exact List.mem_of_find?_eq_some hfind
    | none => exact hmem

theorem carryTab_leaves (hw : Shaped w.root) (hsource : source ∈ paneLeaves w.root)
    (htarget : target ∈ paneLeaves w.root) (hids : target.paneId ≠ source.paneId)
    (hout : tabId ∉ target.tabs) (index : Option Nat) :
    ∃ rest, (paneLeaves w.root).Perm (source :: target :: rest) ∧
      (paneLeaves (carryTab tabId source target index w).root).Perm
        (⟨source.paneId, source.tabs.erase tabId, orNull (source.tabs.erase tabId).head?⟩ ::
          ⟨target.paneId, insertTab target.tabs index tabId, some tabId⟩ :: rest) := by
  have hdiffers : target ≠ source := fun heq => hids (by rw [heq])
  have hperm : (paneLeaves w.root).Perm (source :: target ::
      ((paneLeaves w.root).erase source).erase target) :=
    (List.perm_cons_erase hsource).trans (.cons source (List.perm_cons_erase
      ((List.mem_erase_of_ne hdiffers).mpr htarget)))
  refine ⟨_, hperm, ?_⟩
  have hnodup := (hperm.map PaneLeaf.paneId).nodup_iff.mp hw.paneIds
  simp only [List.map_cons, List.nodup_cons, List.mem_cons, not_or, List.mem_map, not_exists,
    not_and] at hnodup
  rw [carryTab, Workspace.focusLeaf_root]
  simp only [Workspace.modifyLeaf_root, paneLeaves_modifyLeaf, List.map_map]
  refine (hperm.map _).trans (.of_eq ?_)
  have hrest : ∀ other ∈ ((paneLeaves w.root).erase source).erase target,
      other.paneId ≠ source.paneId ∧ other.paneId ≠ target.paneId := fun other hother =>
    ⟨hnodup.1.2 other hother, hnodup.2.1 other hother⟩
  rw [List.map_cons, List.map_cons, List.map_congr_left fun other hother => ?_, List.map_id]
  · simp [hids, hids.symm, hout]
  · simp [hrest other hother]

theorem Owns.carryTab (h : Owns tabs w.root) (hw : Shaped w.root) (hnodup : tabs.Nodup)
    (hsource : source ∈ paneLeaves w.root) (htarget : target ∈ paneLeaves w.root)
    (hids : target.paneId ≠ source.paneId) (htab : tabId ∈ source.tabs) (index : Option Nat) :
    Owns tabs (Panes.carryTab tabId source target index w).root := by
  have hout : tabId ∉ target.tabs := fun hheld => by
    have hpairs := (List.nodup_flatMap.mp (h.perm.nodup_iff.mpr hnodup)).2
    have : Std.Symm (Function.onFun List.Disjoint PaneLeaf.tabs) := ⟨fun _ _ h => h.symm⟩
    exact hpairs.forall hsource htarget (fun heq => hids (by rw [heq])) htab hheld
  obtain ⟨rest, hbefore, hafter⟩ := carryTab_leaves hw hsource htarget hids hout index
  have hall := h.perm.symm.trans (hbefore.flatMap_right PaneLeaf.tabs)
  refine .of_leaves hafter ?_ ?_
  · -- the tab is in front of the others, in both trees
    simp only [List.flatMap_cons] at hall ⊢
    have hcarried := ((insertTab_perm target.tabs index tabId).append_right
      (rest.flatMap PaneLeaf.tabs)).append_left (source.tabs.erase tabId)
    refine hcarried.trans (List.perm_middle.trans ?_)
    exact ((List.perm_cons_erase htab).symm.append_right _).trans hall.symm
  · intro leaf hleaf
    rcases List.mem_cons.mp hleaf with rfl | hleaf
    · exact fun id hid _ => List.mem_of_mem_head? (mem_of_mem_orNull hid)
    · rcases List.mem_cons.mp hleaf with rfl | hleaf
      · intro id hid _
        obtain rfl := Option.some.inj hid
        exact (insertTab_perm _ _ _).mem_iff.mpr List.mem_cons_self
      · exact h.shows leaf (hbefore.symm.subset (by simp [hleaf]))

theorem Owns.movePaneTabTo (h : Owns tabs w.root) (hw : Shaped w.root) (hnodup : tabs.Nodup)
    (tabId : String) (targetPaneId : Option String) (index : Option Nat) :
    Owns tabs (Panes.movePaneTabTo tabId targetPaneId index w).1.root := by
  rw [Panes.movePaneTabTo]
  split
  · exact h
  · split
    · exact h
    · next source hfind =>
        obtain ⟨hsource, htab⟩ := paneForTab_spec hfind
        dsimp only
        split
        · split
          · exact h
          · have hperm := (insertTab_perm (source.tabs.erase tabId) index tabId).trans
              (List.perm_cons_erase htab).symm
            refine h.modifyLeaf_same hw hsource hperm fun id hid hclient => ?_
            exact hperm.mem_iff.mpr (h.shows source hsource id hid hclient)
        · next hids =>
            have htarget : ((orNull targetPaneId).bind (paneForPaneId w.root)).getD
                (otherLeaf (paneLeaves w.root) source) ∈ paneLeaves w.root := by
              cases hnamed : (orNull targetPaneId).bind (paneForPaneId w.root) with
              | none => exact otherLeaf_mem hsource
              | some target =>
                obtain ⟨_, -, hfound⟩ := Option.bind_eq_some_iff.mp hnamed
                exact List.mem_of_find?_eq_some hfound
            have hmoved := h.carryTab hw hnodup hsource htarget hids htab index
            split
            · exact hmoved.collapseEmptyLeaf (shaped_carryTab hw index) source.paneId
            · exact hmoved

theorem Owns.moveActiveTabToNextPane (h : Owns tabs w.root) (hw : Shaped w.root)
    (hnodup : tabs.Nodup) : Owns tabs w.moveActiveTabToNextPane.root := by
  rw [Workspace.moveActiveTabToNextPane]
  dsimp only
  split
  · exact h
  · next leaf hactive =>
      have hleaf := Workspace.activeLeaf_mem hactive
      split
      · next tabId target hshown htarget =>
          split
          · exact h
          · next hmoves =>
              rw [not_or, Bool.not_eq_true, Bool.not_eq_false'] at hmoves
              have htab := h.shows leaf hleaf tabId (mem_of_mem_orNull hshown) hmoves.1
              have hmoved := h.carryTab hw hnodup hleaf (List.mem_of_getElem? htarget) hmoves.2 htab
                none
              split
              · exact hmoved.collapseEmptyLeaf (shaped_carryTab hw none) leaf.paneId
              · exact hmoved
      · exact h

end Moving

section Opening

variable {w : Workspace} {tabs : List String} {tabId : String}

theorem Owns.paneEnsureTab (h : Owns tabs w.root) (hw : Shaped w.root) (tabId : String) :
    Owns (tabs.insert tabId) (w.paneEnsureTab tabId).root := by
  rw [Workspace.paneEnsureTab]
  cases hfind : paneForTab w.root tabId with
  | some owner =>
    obtain ⟨howner, htab⟩ := paneForTab_spec hfind
    rw [List.insert_of_mem (h.perm.subset (mem_allTabs howner htab))]
    refine h.modifyLeaf_same hw howner (.refl _) fun id hid _ => ?_
    obtain rfl := Option.some.inj hid
    exact htab
  | none =>
    rw [List.insert_of_not_mem (h.not_mem hfind)]
    obtain ⟨leaf, hactive⟩ := Workspace.exists_activeLeaf (w := w) hw.branching.leaves_ne_nil
    have hleaf := Workspace.activeLeaf_mem hactive
    obtain ⟨rest, hbefore, hafter⟩ := h.modifyLeaf hw hleaf
      (f := fun leaf => { leaf with tabs := leaf.tabs ++ [tabId] })
      fun id hid hclient => List.mem_append_left _ (h.shows leaf hleaf id hid hclient)
    rw [hactive]
    refine ⟨hafter.perm.trans ?_, hafter.shows⟩
    rw [List.append_assoc]
    exact List.perm_middle.trans (.cons tabId hbefore.symm)

theorem withoutClosed_shows {leaf : PaneLeaf} (h : ShowsOwn leaf) (tabId : String) :
    ShowsOwn (Workspace.withoutClosed tabId leaf) := by
  intro id hid hclient
  simp only [Workspace.withoutClosed] at hid ⊢
  split at hid
  · rcases Option.or_eq_some_iff.mp hid with hnext | ⟨-, hrest⟩
    · exact List.mem_of_getElem? (mem_of_mem_orNull hnext)
    · rcases Option.or_eq_some_iff.mp hrest with hfront | ⟨-, hhead⟩
      · have hfront := mem_of_mem_orNull hfront
        split at hfront
        · cases hfront
        · exact List.mem_of_getElem? hfront
      · exact List.mem_of_mem_head? (mem_of_mem_orNull hhead)
  · next hother =>
      have hne : id ≠ tabId := fun heq => hother (heq ▸ hid)
      exact (List.mem_erase_of_ne hne).mpr (h id hid hclient)

theorem Owns.closeTabImmediate (h : Owns tabs w.root) (hw : Shaped w.root) (tabId : String) :
    Owns (tabs.erase tabId) (w.closeTabImmediate tabId).root := by
  rw [Workspace.closeTabImmediate]
  cases hfind : paneForTab w.root tabId with
  | none => rwa [List.erase_of_not_mem (h.not_mem hfind)]
  | some leaf =>
    obtain ⟨hleaf, htab⟩ := paneForTab_spec hfind
    have hclosed := h.modifyLeaf_erase hw hleaf htab (f := Workspace.withoutClosed tabId) rfl
      (withoutClosed_shows (h.shows leaf hleaf) tabId)
    exact hclosed.collapseEmptyLeaf (hw.modifyLeaf fun _ => rfl) leaf.paneId

theorem Owns.setActivePaneTab (h : Owns tabs w.root) (hw : Shaped w.root)
    (hin : isClientTab tabId = true → tabId ∈ tabs) :
    Owns tabs (w.setActivePaneTab tabId).root := by
  rw [Workspace.setActivePaneTab]
  split
  · exact h
  · split
    · exact h
    · next leaf hshown =>
        have hleaf : leaf ∈ paneLeaves w.root ∧ (isClientTab tabId = true → tabId ∈ leaf.tabs) := by
          rcases Option.or_eq_some_iff.mp hshown with hfind | ⟨hnone, hactive⟩
          · exact (paneForTab_spec hfind).imp_right fun htab _ => htab
          · exact ⟨Workspace.activeLeaf_mem hactive, fun hclient =>
              absurd (hin hclient) (h.not_mem hnone)⟩
        refine modifyLeaf_same (w := { w with sawExplicitActive := true }) h hw hleaf.1 (.refl _) ?_
        intro id hid hclient
        obtain rfl := Option.some.inj hid
        exact hleaf.2 hclient

theorem Owns.collapseLeafForClosedTab (h : Owns tabs w.root) (hw : Shaped w.root)
    (tabId : String) :
    Owns ((LayoutCommand.collapseLeafForClosedTab tabId).tabsAfter w.root tabs)
      (w.collapseLeafForClosedTab tabId).root := by
  rw [Workspace.collapseLeafForClosedTab]
  split
  · next hroot => simpa [LayoutCommand.tabsAfter, hroot] using h
  · next split children hroot =>
      simp only [LayoutCommand.tabsAfter, hroot]
      by_cases hempty : tabId = ""
      · have hname : orNull (some tabId) = none := by simp [orNull, hempty]
        rw [hname, if_pos hempty]
        exact h
      · have hname : orNull (some tabId) = some tabId := by simp [orNull, hempty]
        rw [hname, if_neg hempty, Option.bind_some, ← hroot]
        cases hfind : paneForTab w.root tabId with
        | none => rwa [List.erase_of_not_mem (h.not_mem hfind)]
        | some leaf =>
          obtain ⟨hleaf, htab⟩ := paneForTab_spec hfind
          have hclosed := h.modifyLeaf_erase hw hleaf htab (f := fun leaf =>
            { leaf with
              tabs := leaf.tabs.erase tabId
              active :=
                if leaf.active = some tabId then orNull (leaf.tabs.erase tabId).head?
                else leaf.active }) rfl ?_
          · dsimp only
            split
            · exact hclosed.collapseEmptyLeaf (hw.modifyLeaf fun _ => rfl) leaf.paneId
            · exact hclosed
          · intro id hid hclient
            dsimp only at hid
            split at hid
            · exact List.mem_of_mem_head? (mem_of_mem_orNull hid)
            · next hother =>
                have hne : id ≠ tabId := fun heq => hother (heq ▸ hid)
                exact (List.mem_erase_of_ne hne).mpr (h.shows leaf hleaf id hid hclient)

end Opening

section Runs

variable {w w' : Workspace} {tabs : List String}

theorem LayoutCommand.owns (h : Owns tabs w.root) (hw : Shaped w.root) (hnodup : tabs.Nodup)
    {command : LayoutCommand} (hok : OwnerOk w (.layout command)) :
    Owns (command.tabsAfter w.root tabs) (command.run w).root := by
  cases command with
  | splitActivePane kind => exact h.splitActivePane hw kind
  | splitPaneFor paneId kind => exact h.splitPaneFor hw paneId kind
  | closeActivePane routeTab => exact h.closeActivePane hw hnodup routeTab
  | closePaneFor paneId routeTab =>
    rw [run, Workspace.closePaneFor]
    split
    · exact h
    · next leaf _ =>
        split
        · exact h
        · exact Owns.closeActivePane (w := w.focusLeaf w.root leaf.paneId) h hw hnodup routeTab
  | movePaneTabTo tabId targetPaneId index =>
    exact h.movePaneTabTo hw hnodup tabId targetPaneId index
  | moveActiveTabToNextPane => exact h.moveActiveTabToNextPane hw hnodup
  | maximizePaneFor paneId =>
    rw [run, Workspace.maximizePaneFor]
    split
    · exact h
    · split <;> exact h
  | newTabForPane paneId =>
    rw [run, Workspace.newTabForPane]
    split <;> exact h
  | paneEnsureEditorTab path => exact h.paneEnsureTab hw (editorTabId path)
  | paneEnsureGitTab viewKey => exact h.paneEnsureTab hw (gitTabId viewKey)
  | closeEditorTabImmediate path => exact h.closeTabImmediate hw (editorTabId path)
  | closeGitTabImmediate viewKey => exact h.closeTabImmediate hw (gitTabId viewKey)
  | setActivePaneTab tabId =>
    exact h.setActivePaneTab hw fun hclient => h.perm.mem_iff.mp (hok.2 tabId rfl hclient)
  | collapseLeafForClosedTab tabId => exact h.collapseLeafForClosedTab hw tabId

theorem Synced.allTabs_perm {backend : BackendTabs} {routeTab : Option String}
    {seed shown : PaneLeaf → PaneLeaf} (h : Synced backend routeTab w w' seed shown) :
    (allTabs w'.root).Perm ((allTabs w.root).filter isClientTab ++ backend.ids) := by
  have hclient : (allTabs w'.root).filter isClientTab = (allTabs w.root).filter isClientTab := by
    have hshown : ∀ id, (isClientTab id && isShown backend.ids id) = isClientTab id := by
      intro id
      cases hclient : isClientTab id <;> simp [isShown, hclient]
    rw [allTabs, h.allTabs_eq, List.filter_filter, List.filter_congr fun id _ => hshown id,
      List.flatMap_map, List.filter_flatMap, allTabs, List.filter_flatMap]
    exact List.flatMap_congr h.client
  have hterminals : ((allTabs w'.root).filter isTerminalTab).Perm backend.ids := by
    refine (List.perm_ext_iff_of_nodup h.tidy.terminals backend.nodup).mpr fun id => ?_
    rw [tabIds, List.mem_filter]
    constructor
    · rintro ⟨hmem, hterminal⟩
      obtain ⟨leaf, hleaf, hid⟩ := List.mem_flatMap.mp hmem
      refine (isShown_iff.mp (h.shown_of_mem hleaf hid)).resolve_left fun hclient => ?_
      rw [isTerminalTab, hclient] at hterminal
      cases hterminal
    · intro hid
      refine ⟨List.count_pos_iff.mp (by rw [h.count_eq_one hid]; exact Nat.one_pos), ?_⟩
      rw [isTerminalTab, (backend.terminal id hid).2.2]
      rfl
  refine (List.filter_append_perm isClientTab (allTabs w'.root)).symm.trans ?_
  rw [hclient]
  exact hterminals.append_left _

/-- Without terminals a sync heals what the leaves show. -/
theorem Owns.sync_nil (h : Owns tabs w.root) (hw : Shaped w.root) (routeTab : Option String) :
    Owns tabs (syncTerminalTabsIntoTree [] routeTab w).root := by
  obtain ⟨target, htarget⟩ := exists_terminalLeafForSync hw.branching.leaves_ne_nil []
  have hseed : seedTerminals [] target { w with pendingNext := none } =
      { w with pendingNext := none } := if_neg fun hseed => hseed.2.2 rfl
  have hroute : syncRoute [] routeTab ⟨{ w with pendingNext := none }, none⟩ =
      ⟨{ w with pendingNext := none }, none⟩ := by
    rw [syncRoute]
    dsimp only
    split
    · rfl
    · exact if_neg fun hmoves => by simp [Option.any_eq_true] at hmoves
  rw [syncTerminalTabsIntoTree, htarget]
  dsimp only
  rw [hseed, pruneTerminals, if_pos rfl, hroute, healLeaves_root target fun _ => id]
  have hleaves : paneLeaves (w.root.mapLeaves (healActive [])) = _ :=
    OrderedTree.leaves_mapLeaves _ _
  refine .of_leaves (.of_eq hleaves) ?_ ?_
  · rw [List.flatMap_map, List.flatMap_congr fun leaf _ => (onlyActive_healActive []).tabs leaf]
    exact h.perm
  · rw [List.forall_mem_map]
    intro leaf hleaf id hid hclient
    rw [(onlyActive_healActive []).tabs]
    rw [healActive] at hid
    split at hid
    · exact h.shows leaf hleaf id hid hclient
    · rcases Option.or_eq_some_iff.mp hid with hfind | ⟨-, hhead⟩
      · exact List.mem_of_find?_eq_some (mem_of_mem_orNull hfind)
      · exact List.mem_of_mem_head? (mem_of_mem_orNull hhead)

theorem owns_step {action : PaneAction} (hw : Tidy w) (h : Owns tabs w.root)
    (hnodup : tabs.Nodup) (hok : OwnerOk w action) (hstep : paneSystem.step w action = some w') :
    Owns (action.tabsAfter w.root tabs) w'.root := by
  cases action with
  | layout command =>
    obtain rfl : command.run w = w' := Option.some.inj hstep
    exact LayoutCommand.owns h hw.toShaped hnodup hok
  | sync backend routeTab =>
    obtain rfl : syncTerminalTabsIntoTree backend.ids routeTab w = w' := Option.some.inj hstep
    rw [PaneAction.tabsAfter]
    split
    · next hids =>
        rw [hids]
        exact h.sync_nil hw.toShaped routeTab
    · next hids =>
        obtain ⟨seed, shown, hsynced⟩ := exists_synced hw hids hok.1
        refine ⟨hsynced.allTabs_perm.trans ((h.perm.filter _).append_right _), ?_⟩
        intro leaf hleaf id hid _
        rcases hsynced.active leaf hleaf with ⟨-, hnone⟩ | ⟨tabId, hmem, hactive⟩
        · cases hnone.symm.trans hid
        · obtain rfl := Option.some.inj (hactive.symm.trans hid)
          exact hmem

theorem nodup_tabsAfter {root : PaneNode} (h : tabs.Nodup) (action : PaneAction) :
    (action.tabsAfter root tabs).Nodup := by
  cases action with
  | layout command =>
    cases command <;> simp only [PaneAction.tabsAfter, LayoutCommand.tabsAfter]
    case collapseLeafForClosedTab => split <;> [exact h; (split <;> [exact h; exact h.erase _])]
    all_goals first | exact h | exact h.insert | exact h.erase _
  | sync backend routeTab =>
    rw [PaneAction.tabsAfter]
    split
    · exact h
    · refine (h.filter _).append backend.nodup fun id hclient hid => ?_
      exact absurd (List.of_mem_filter hclient) (by simp [(backend.terminal id hid).2.2])

/-- In every run whose syncs are as they must be and in which no view is shown after its tab is
closed, each tab is in one leaf and a leaf shows one of its own. What a step leaves of the tabs is
what it does to a list of them. -/
theorem paneSystem_oneOwner (h : paneSystem.ReachVia OwnerOk w) :
    (allTabs w.root).Nodup ∧ (∀ leaf ∈ paneLeaves w.root, ShowsOwn leaf) ∧
      ∀ action w', OwnerOk w action → paneSystem.step w action = some w' →
        (allTabs w'.root).Perm (action.tabsAfter w.root (allTabs w.root)) := by
  have htidy : ∀ {w}, paneSystem.ReachVia OwnerOk w → Tidy w := fun hreach =>
    tidy_of_reachVia (hreach.mono fun _ _ hok => hok.1)
  have hinv : (allTabs w.root).Nodup ∧ Owns (allTabs w.root) w.root := by
    refine h.invariant (I := fun w => (allTabs w.root).Nodup ∧ Owns (allTabs w.root) w.root) ?_ ?_
    · rintro _ rfl
      exact ⟨by decide +kernel, .refl _, by simp [Workspace.initial, paneLeaves, ShowsOwn]⟩
    · rintro w action w' hreach ⟨hnodup, howns⟩ hok hstep
      have hafter := owns_step (htidy hreach) howns hnodup hok hstep
      exact ⟨hafter.perm.nodup_iff.mpr (nodup_tabsAfter hnodup action), .refl _, hafter.shows⟩
  refine ⟨hinv.1, hinv.2.shows, fun action w' hok hstep => ?_⟩
  exact (owns_step (htidy h) hinv.2 hinv.1 hok hstep).perm

end Runs

/-- A terminal from the backend beside two files, one of which goes to a pane that is split off. -/
def splitRun : List PaneAction :=
  [.sync ⟨["tab_1"], by decide, by decide +kernel⟩ (some "tab_1"),
    .layout (.paneEnsureEditorTab "a"), .layout (.setActivePaneTab "editor:a"),
    .layout (.paneEnsureEditorTab "b"), .layout (.splitActivePane .row),
    .layout (.movePaneTabTo "editor:a" (some "p2") (some 0))]

theorem splitRun_runs : (paneSystem.runVia OwnerOk .initial splitRun).isSome = true := by
  decide +kernel

/-- Closing the pane that the file went to gives it back. -/
theorem paneSystem_oneOwner_split :
    let w := (paneSystem.runVia OwnerOk .initial splitRun).get splitRun_runs
    (allTabs w.root).Nodup ∧
      (allTabs (w.closePaneFor "p2" none).root).Perm (allTabs w.root) := by
  intro w
  have h := paneSystem_oneOwner (w := w) (System.reachVia_get rfl splitRun_runs)
  exact ⟨h.1, h.2.2 (.layout (.closePaneFor "p2" none)) _ ⟨trivial, by simp [PaneAction.shown]⟩ rfl⟩

end HerdrWebui.Panes
