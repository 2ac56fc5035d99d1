import HerdrWebui.Panes.Collapse

/-!
Terminal tabs follow the backend's list. A sync gives the ids that are in no leaf to one leaf, drops
the terminal ids that are not in the list from all leaves, collapses the leaves that this has
emptied, and sets right what the leaves show.
-/

namespace HerdrWebui.Panes

open Concurrency

/-- The leaf that the ids without a leaf go to: where the + was pressed, if there are any, else the
leaf with terminals, else the active one. -/
def terminalLeafForSync (backendIds : List String) (w : Workspace) : Option PaneLeaf :=
  let leaves := paneLeaves w.root
  let missingIds := backendIds.filter fun id => !leaves.any fun leaf => leaf.tabs.contains id
  let placed := if missingIds = [] then none else w.pendingNext.bind (paneForPaneId w.root)
  let withTerminal := leaves.find? fun leaf =>
    leaf.tabs.any fun id => id = terminalTabPlaceholder || backendIds.contains id
  placed.or (withTerminal.or (w.activeLeaf w.root))

/-- The backend's ids in the place of the placeholder. -/
def fillPlaceholder (backendIds : List String) (leaf : PaneLeaf) : PaneLeaf :=
  let i := leaf.tabs.idxOf terminalTabPlaceholder
  { leaf with
    tabs := leaf.tabs.take i ++ backendIds ++ leaf.tabs.drop (i + 1)
    active := if leaf.active = some terminalTabPlaceholder then backendIds.head? else leaf.active }

/-- An id that is in another leaf stays there. -/
def addTerminal (paneId : String) (w : Workspace) (id : String) : Workspace :=
  if (paneForTab w.root id).any fun owner => owner.paneId ≠ paneId then w
  else w.modifyLeaf paneId fun leaf =>
    if leaf.tabs.contains id then leaf else { leaf with tabs := leaf.tabs ++ [id] }

def seedTerminals (backendIds : List String) (target : PaneLeaf) (w : Workspace) : Workspace :=
  if terminalTabPlaceholder ∈ target.tabs ∧ terminalTabPlaceholder ∉ backendIds ∧ backendIds ≠ []
  then w.modifyLeaf target.paneId (fillPlaceholder backendIds)
  else backendIds.foldl (addTerminal target.paneId) w

def pruneLeaf (backendIds : List String) (leaf : PaneLeaf) : PaneLeaf :=
  { leaf with tabs := paneTabsForTree backendIds leaf }

def emptiedByPrune (backendIds : List String) (leaf : PaneLeaf) : Bool :=
  leaf.tabs ≠ [] ∧ paneTabsForTree backendIds leaf = []

/-- An empty list is no reason to drop anything. -/
def pruneTerminals (backendIds : List String) (w : Workspace) : Held :=
  if backendIds = [] then ⟨w, none⟩
  else
    collapseLeaves (((paneLeaves w.root).filter (emptiedByPrune backendIds)).map PaneLeaf.paneId)
      ⟨{ w with root := w.root.mapLeaves (pruneLeaf backendIds) }, none⟩

/-- A route that is new and names a terminal is shown by its leaf, unless something was opened
before the first sync. -/
def syncRoute (backendIds : List String) (routeTab : Option String) (h : Held) : Held :=
  let routeChanged := h.workspace.lastSyncedRouteTab ≠ some routeTab
  let routeIsLivePanel := (orNull routeTab).any backendIds.contains
  let freshActivation := h.workspace.lastSyncedRouteTab = none ∧ h.workspace.sawExplicitActive
  match (orNull routeTab).bind (paneForTab h.root) with
  | none => h
  | some owner =>
    if routeChanged ∧ routeIsLivePanel ∧ ¬freshActivation ∧ owner.active ≠ routeTab then
      let shown := h.edit (PaneNode.modifyLeaf owner.paneId fun leaf =>
        { leaf with active := routeTab })
      { shown with workspace := shown.workspace.focusLeaf shown.root owner.paneId }
    else h

/-- A leaf that shows none of its tabs shows one that is live, else the first, else nothing. -/
def healActive (backendIds : List String) (leaf : PaneLeaf) : PaneLeaf :=
  if leaf.active.any leaf.tabs.contains then leaf
  else
    { leaf with
      active := (orNull (leaf.tabs.find? (isShown backendIds))).or (orNull leaf.tabs.head?) }

/-- All leaves that the command can see are healed, and the one that had the new ids. -/
def healLeaves (backendIds : List String) (target : PaneLeaf) (h : Held) : Held :=
  h.edit (OrderedTree.mapLeaves fun leaf =>
    if (paneLeaves h.root).any (hasPaneId leaf.paneId) || hasPaneId target.paneId leaf then
      healActive backendIds leaf
    else leaf)

/-- What it says about a change, for the store, is left out. -/
def syncTerminalTabsIntoTree (backendIds : List String) (routeTab : Option String)
    (w : Workspace) : Workspace :=
  match terminalLeafForSync backendIds w with
  | none => { w with pendingNext := none }
  | some target =>
    let seeded := seedTerminals backendIds target { w with pendingNext := none }
    let routed := syncRoute backendIds routeTab (pruneTerminals backendIds seeded)
    let seen : Held := ⟨{ routed.workspace with
      lastSyncedRouteTab := some routeTab, sawExplicitActive := false }, routed.captured⟩
    (healLeaves backendIds target seen).workspace

/-- The ids of the backend's tabs: none twice, and none that is empty, the placeholder or one of the
client's. -/
structure BackendTabs where
  ids : List String
  nodup : ids.Nodup
  terminal : ∀ id ∈ ids, id ≠ "" ∧ id ≠ terminalTabPlaceholder ∧ isClientTab id = false

inductive PaneAction where
  | layout (command : LayoutCommand)
  | sync (tabs : BackendTabs) (routeTab : Option String)

def paneSystem : System Workspace PaneAction where
  init := (· = Workspace.initial)
  step w
    | .layout command => some (command.run w)
    | .sync tabs routeTab => some (syncTerminalTabsIntoTree tabs.ids routeTab w)

/-- A sync does not empty the first half of the root and, with it, a half of the second. -/
def SyncOk (w : Workspace) : PaneAction → Prop
  | .layout _ => True
  | .sync tabs _ =>
    ∀ target ∈ terminalLeafForSync tabs.ids w,
      losesHalf (emptiedByPrune tabs.ids)
        (seedTerminals tabs.ids target { w with pendingNext := none }).root = false

instance (w : Workspace) : DecidablePred (SyncOk w)
  | .layout _ => .isTrue trivial
  | .sync tabs _ => inferInstanceAs (Decidable (∀ target ∈ terminalLeafForSync tabs.ids w, _))

/-- The tree mirrors the backend: each id is in one leaf, and in the one that it was in; no other
terminal is in the tree; the client's tabs are where they were; no leaf that lost its tabs is there;
each leaf shows one of its tabs, if it has any; and doing it again changes nothing. -/
structure Mirrors (tabs : BackendTabs) (routeTab : Option String) (w w' : Workspace) : Prop where
  once : ∀ id ∈ tabs.ids, ((paneLeaves w'.root).flatMap PaneLeaf.tabs).count id = 1
  stays : ∀ id ∈ tabs.ids, ∀ leaf ∈ paneLeaves w.root, id ∈ leaf.tabs →
    ∃ leaf' ∈ paneLeaves w'.root, leaf'.paneId = leaf.paneId ∧ id ∈ leaf'.tabs
  only : ∀ leaf' ∈ paneLeaves w'.root, ∀ id ∈ leaf'.tabs, isClientTab id = true ∨ id ∈ tabs.ids
  client : ∀ id, isClientTab id = true → ∀ paneId,
    (∃ leaf' ∈ paneLeaves w'.root, leaf'.paneId = paneId ∧ id ∈ leaf'.tabs) ↔
      ∃ leaf ∈ paneLeaves w.root, leaf.paneId = paneId ∧ id ∈ leaf.tabs
  kept : ∀ leaf' ∈ paneLeaves w'.root, leaf'.tabs = [] →
    ∀ leaf ∈ paneLeaves w.root, leaf.paneId = leaf'.paneId → leaf.tabs = []
  active : ∀ leaf' ∈ paneLeaves w'.root,
    (leaf'.tabs = [] ∧ leaf'.active = none) ∨ ∃ tabId ∈ leaf'.tabs, leaf'.active = some tabId
  again : syncTerminalTabsIntoTree tabs.ids routeTab { w' with pendingNext := w.pendingNext } = w'

def isTerminalTab (tabId : String) : Bool := !isClientTab tabId

/-- No terminal is in the tree twice, and the placeholder is in it only without terminals. -/
structure Tidy (w : Workspace) : Prop extends Sound w where
  terminals : (tabIds isTerminalTab w.root).Nodup
  placeholder : terminalTabPlaceholder ∈ tabIds isTerminalTab w.root →
    tabIds isTerminalTab w.root = [terminalTabPlaceholder]

section Seed

variable {w : Workspace} {root : PaneNode} {target : PaneLeaf} {ids : List String}
  {f g : PaneLeaf → PaneLeaf} {paneId : String}

theorem modifyLeaf_congr (h : ∀ leaf ∈ paneLeaves w.root, leaf.paneId = paneId → f leaf = g leaf) :
    w.modifyLeaf paneId f = w.modifyLeaf paneId g := by
  have hroot : w.root.modifyLeaf paneId f = w.root.modifyLeaf paneId g :=
    OrderedTree.mapLeaves_congr fun leaf hleaf => by
      split
      · next heq => exact h leaf hleaf heq
      · rfl
  rw [Workspace.modifyLeaf, hroot, Workspace.modifyLeaf]

theorem modifyLeaf_self (h : ∀ leaf ∈ paneLeaves w.root, leaf.paneId = paneId → f leaf = leaf) :
    w.modifyLeaf paneId f = w := by
  have hroot : w.root.modifyLeaf paneId f = w.root := by
    refine (OrderedTree.mapLeaves_congr fun leaf hleaf => ?_).trans (OrderedTree.mapLeaves_id _)
    split
    · next heq => exact h leaf hleaf heq
    · rfl
  rw [Workspace.modifyLeaf, hroot]

theorem modifyLeaf_modifyLeaf (hf : ∀ leaf, (f leaf).paneId = leaf.paneId) :
    (w.modifyLeaf paneId f).modifyLeaf paneId g = w.modifyLeaf paneId fun leaf => g (f leaf) := by
  have hroot : (w.root.modifyLeaf paneId f).modifyLeaf paneId g =
      w.root.modifyLeaf paneId fun leaf => g (f leaf) := by
    rw [PaneNode.modifyLeaf, PaneNode.modifyLeaf, OrderedTree.mapLeaves_mapLeaves]
    refine OrderedTree.mapLeaves_congr fun leaf _ => ?_
    by_cases heq : leaf.paneId = paneId
    · rw [if_pos heq, hf, if_pos heq, if_pos heq]
    · rw [if_neg heq, if_neg heq, if_neg heq]
  rw [Workspace.modifyLeaf, Workspace.modifyLeaf_root, hroot]
  rfl

def isMissing (root : PaneNode) (id : String) : Bool :=
  !(paneLeaves root).any fun leaf => leaf.tabs.contains id

theorem isMissing_iff {id : String} :
    isMissing root id = true ↔ ∀ leaf ∈ paneLeaves root, id ∉ leaf.tabs := by
  simp [isMissing]

theorem foldl_addTerminal (hw : Shaped w.root) (hids : ids.Nodup) :
    ids.foldl (addTerminal paneId) w = w.modifyLeaf paneId fun leaf =>
      { leaf with tabs := leaf.tabs ++ ids.filter (isMissing w.root) } := by
  induction ids generalizing w with
  | nil =>
    rw [modifyLeaf_self fun leaf _ _ => by rw [List.filter_nil, List.append_nil]]
    rfl
  | cons id ids ih =>
    obtain ⟨hid, hids⟩ := List.nodup_cons.mp hids
    rw [List.foldl_cons]
    cases hmissing : isMissing w.root id with
    | false =>
      have hstays : addTerminal paneId w id = w := by
        rw [isMissing, Bool.not_eq_false', List.any_eq_true] at hmissing
        obtain ⟨owner, howner⟩ := Option.isSome_iff_exists.mp (List.find?_isSome.mpr hmissing)
        rw [addTerminal, show paneForTab w.root id = some owner from howner, Option.any_some]
        split
        · rfl
        · next heq =>
            refine modifyLeaf_self fun leaf hleaf hpane => if_pos ?_
            have hown : owner.paneId = paneId := by simpa using heq
            rw [hw.eq_of_paneId hleaf (List.mem_of_find?_eq_some howner)
              (hpane.trans hown.symm)]
            exact List.find?_some (p := fun leaf : PaneLeaf => leaf.tabs.contains id) howner
      rw [hstays, ih hw hids, List.filter_cons_of_neg (by simp [hmissing])]
    | true =>
      rw [isMissing_iff] at hmissing
      have hadded : addTerminal paneId w id =
          w.modifyLeaf paneId fun leaf => { leaf with tabs := leaf.tabs ++ [id] } := by
        have hnone : paneForTab w.root id = none :=
          List.find?_eq_none.mpr fun leaf hleaf => by simpa using hmissing leaf hleaf
        rw [addTerminal, hnone, if_neg (by simp)]
        exact modifyLeaf_congr fun leaf hleaf _ => if_neg (by simpa using hmissing leaf hleaf)
      have hothers : ids.filter (isMissing (w.modifyLeaf paneId fun leaf =>
          { leaf with tabs := leaf.tabs ++ [id] }).root) = ids.filter (isMissing w.root) := by
        refine List.filter_congr fun other hother => ?_
        have hne : other ≠ id := fun heq => hid (heq ▸ hother)
        rw [Bool.eq_iff_iff, isMissing_iff, isMissing_iff, Workspace.modifyLeaf_root,
          paneLeaves_modifyLeaf, List.forall_mem_map]
        refine forall₂_congr fun leaf _ => ?_
        split <;> simp [hne]
      rw [hadded, ih (by apply hw.modifyLeaf; exact fun _ => rfl) hids, hothers,
        modifyLeaf_modifyLeaf, List.filter_cons_of_pos (isMissing_iff.mpr hmissing)]
      · simp only [List.append_assoc, List.singleton_append]
      · exact fun _ => rfl

/-- The tabs of the leaf that the ids without a leaf go to. -/
def seededTabs (ids : List String) (root : PaneNode) (tabs : List String) : List String :=
  if terminalTabPlaceholder ∈ tabs ∧ terminalTabPlaceholder ∉ ids ∧ ids ≠ [] then
    tabs.take (tabs.idxOf terminalTabPlaceholder) ++ ids ++
      tabs.drop (tabs.idxOf terminalTabPlaceholder + 1)
  else tabs ++ ids.filter (isMissing root)

theorem exists_seed (hw : Shaped w.root) (hids : ids.Nodup) (target : PaneLeaf) :
    ∃ f : PaneLeaf → PaneLeaf, seedTerminals ids target w = w.modifyLeaf target.paneId f ∧
      (∀ leaf, (f leaf).paneId = leaf.paneId) ∧
      (f target).tabs = seededTabs ids w.root target.tabs := by
  by_cases hseed : terminalTabPlaceholder ∈ target.tabs ∧ terminalTabPlaceholder ∉ ids ∧ ids ≠ []
  · exact ⟨fillPlaceholder ids, if_pos hseed, fun _ => rfl, (if_pos hseed).symm⟩
  · exact ⟨_, (if_neg hseed).trans (foldl_addTerminal hw hids), fun _ => rfl, (if_neg hseed).symm⟩

theorem take_cons_drop {α : Type*} [DecidableEq α] {l : List α} {a : α} (h : a ∈ l) :
    l.take (l.idxOf a) ++ a :: l.drop (l.idxOf a + 1) = l := by
  have hlt := List.idxOf_lt_length_of_mem h
  conv_rhs => rw [← List.take_append_drop (l.idxOf a) l, List.drop_eq_getElem_cons hlt,
    List.getElem_idxOf hlt]

variable {tabs : List String} {id : String}

theorem mem_seededTabs (hne : id ≠ terminalTabPlaceholder) (h : id ∈ tabs) :
    id ∈ seededTabs ids root tabs := by
  rw [seededTabs]
  split
  · next hseed =>
      rw [← take_cons_drop hseed.1] at h
      simp only [List.mem_append, List.mem_cons] at h ⊢
      tauto
  · exact List.mem_append_left _ h

theorem of_mem_seededTabs (h : id ∈ seededTabs ids root tabs) : id ∈ tabs ∨ id ∈ ids := by
  rw [seededTabs] at h
  split at h
  · simp only [List.mem_append] at h
    rcases h with (h | h) | h
    · exact .inl (List.mem_of_mem_take h)
    · exact .inr h
    · exact .inl (List.mem_of_mem_drop h)
  · exact (List.mem_append.mp h).imp_right List.mem_of_mem_filter

theorem filter_seededTabs (h : ∀ id ∈ ids, isClientTab id = false) :
    (seededTabs ids root tabs).filter isClientTab = tabs.filter isClientTab := by
  have hids : ids.filter isClientTab = [] := List.filter_eq_nil_iff.mpr fun id hid => by
    simp [h id hid]
  have hmissing : (ids.filter (isMissing root)).filter isClientTab = [] :=
    List.filter_eq_nil_iff.mpr fun id hid => by
      simp [h id (List.mem_of_mem_filter hid)]
  rw [seededTabs]
  split
  · next hseed =>
      have hplace : isClientTab terminalTabPlaceholder = false := by decide +kernel
      conv_rhs => rw [← take_cons_drop hseed.1]
      simp [hids, hplace]
  · rw [List.filter_append, hmissing, List.append_nil]

theorem mem_allTabs_iff : id ∈ (paneLeaves root).flatMap PaneLeaf.tabs ↔
    isMissing root id = false := by
  rw [List.mem_flatMap, isMissing, Bool.not_eq_false', List.any_eq_true]
  simp only [List.contains_iff_mem]

theorem modifyLeaf_perm (hw : Shaped w.root) (htarget : target ∈ paneLeaves w.root)
    (f : PaneLeaf → PaneLeaf) :
    ∃ rest, (paneLeaves w.root).Perm (target :: rest) ∧
      (paneLeaves (w.modifyLeaf target.paneId f).root).Perm (f target :: rest) := by
  have hperm := List.perm_cons_erase htarget
  have hids := (hperm.map PaneLeaf.paneId).nodup_iff.mp hw.paneIds
  rw [List.map_cons, List.nodup_cons] at hids
  refine ⟨_, hperm, ?_⟩
  rw [Workspace.modifyLeaf_root, paneLeaves_modifyLeaf]
  refine (hperm.map _).trans (.of_eq ?_)
  rw [List.map_cons, if_pos rfl]
  refine congrArg _ ((List.map_congr_left fun other hother => if_neg fun heq => ?_).trans
    (List.map_id _))
  exact hids.1 (heq ▸ List.mem_map_of_mem hother)

theorem count_seeded (h : Tidy w) (htarget : target ∈ paneLeaves w.root) (tabs : BackendTabs)
    {f : PaneLeaf → PaneLeaf} (hf : (f target).tabs = seededTabs tabs.ids w.root target.tabs)
    (hid : id ∈ tabs.ids) :
    ((paneLeaves (w.modifyLeaf target.paneId f).root).flatMap PaneLeaf.tabs).count id = 1 := by
  obtain ⟨-, hne, hterminal⟩ := tabs.terminal id hid
  obtain ⟨rest, hbefore, hafter⟩ := modifyLeaf_perm h.toShaped htarget f
  have hcount : ((paneLeaves w.root).flatMap PaneLeaf.tabs).count id =
      target.tabs.count id + (rest.flatMap PaneLeaf.tabs).count id := by
    rw [(hbefore.flatMap_right _).count_eq, List.flatMap_cons, List.count_append]
  have hterminals : (tabIds isTerminalTab w.root).count id =
      ((paneLeaves w.root).flatMap PaneLeaf.tabs).count id :=
    List.count_filter (by rw [isTerminalTab, hterminal]; rfl)
  have hids : tabs.ids.count id = 1 := List.count_eq_one_of_mem tabs.nodup hid
  rw [(hafter.flatMap_right _).count_eq, List.flatMap_cons, List.count_append, hf, seededTabs]
  split
  · next hseed =>
      -- the placeholder was the only terminal
      have hplace : terminalTabPlaceholder ∈ tabIds isTerminalTab w.root :=
        List.mem_filter.mpr ⟨List.mem_flatMap.mpr ⟨target, htarget, hseed.1⟩, by decide +kernel⟩
      rw [h.placeholder hplace, List.count_singleton, beq_false_of_ne hne.symm] at hterminals
      have htake := (List.take_sublist (target.tabs.idxOf terminalTabPlaceholder)
        target.tabs).count_le id
      have hdrop := (List.drop_sublist (target.tabs.idxOf terminalTabPlaceholder + 1)
        target.tabs).count_le id
      rw [List.count_append, List.count_append]
      simp only [Bool.false_eq_true, if_false] at hterminals
      omega
  · rw [List.count_append]
    cases hmissing : isMissing w.root id with
    | true =>
      have hout : id ∉ (paneLeaves w.root).flatMap PaneLeaf.tabs := fun hmem => by
        rw [mem_allTabs_iff.mp hmem] at hmissing
        cases hmissing
      rw [List.count_eq_zero_of_not_mem hout] at hcount
      rw [List.count_filter hmissing]
      omega
    | false =>
      have hin := List.count_pos_iff.mpr (mem_allTabs_iff.mpr hmissing)
      have hone := List.nodup_iff_count_le_one.mp h.terminals id
      have hnone : (tabs.ids.filter (isMissing w.root)).count id = 0 :=
        List.count_eq_zero_of_not_mem fun hmem => by
          rw [List.of_mem_filter hmem] at hmissing
          cases hmissing
      omega

end Seed

section Target

variable {w : Workspace} {target : PaneLeaf}

theorem terminalLeafForSync_mem {ids : List String} (h : terminalLeafForSync ids w = some target) :
    target ∈ paneLeaves w.root := by
  rcases Option.or_eq_some_iff.mp h with hplaced | ⟨-, h⟩
  · split at hplaced
    · cases hplaced
    · obtain ⟨paneId, -, hfind⟩ := Option.bind_eq_some_iff.mp hplaced
      exact List.mem_of_find?_eq_some hfind
  · rcases Option.or_eq_some_iff.mp h with hterminal | ⟨-, hactive⟩
    · exact List.mem_of_find?_eq_some hterminal
    · exact Workspace.activeLeaf_mem hactive

theorem exists_terminalLeafForSync (h : paneLeaves w.root ≠ []) (ids : List String) :
    ∃ target, terminalLeafForSync ids w = some target := by
  obtain ⟨active, hactive⟩ := Workspace.exists_activeLeaf (w := w) h
  rw [← Option.isSome_iff_exists, terminalLeafForSync, hactive]
  simp

theorem exists_mem_seededTabs {tabs : BackendTabs} (hids : tabs.ids ≠ [])
    (h : terminalLeafForSync tabs.ids w = some target) :
    ∃ id ∈ tabs.ids, id ∈ seededTabs tabs.ids w.root target.tabs := by
  have hplace : terminalTabPlaceholder ∉ tabs.ids := fun hmem =>
    (tabs.terminal _ hmem).2.1 rfl
  have hmissing : ∀ id ∈ tabs.ids, isMissing w.root id = true →
      id ∈ seededTabs tabs.ids w.root target.tabs := by
    intro id hid hmissing
    rw [seededTabs]
    split
    · exact List.mem_append_left _ (List.mem_append_right _ hid)
    · exact List.mem_append_right _ (List.mem_filter.mpr ⟨hid, hmissing⟩)
  rcases Option.or_eq_some_iff.mp h with hplaced | ⟨-, h⟩
  · split at hplaced
    · cases hplaced
    · next hsome =>
        obtain ⟨id, hid⟩ := List.exists_mem_of_ne_nil _ hsome
        obtain ⟨hid, hout⟩ := List.mem_filter.mp hid
        exact ⟨id, hid, hmissing id hid hout⟩
  · rcases Option.or_eq_some_iff.mp h with hterminal | ⟨hnone, -⟩
    · have hany := List.find?_some (p := fun leaf : PaneLeaf => leaf.tabs.any fun id =>
        id = terminalTabPlaceholder || tabs.ids.contains id) hterminal
      obtain ⟨id, hid, hor⟩ := List.any_eq_true.mp hany
      rcases (Bool.or_eq_true _ _).mp hor with heq | hin
      · obtain rfl := of_decide_eq_true heq
        obtain ⟨first, hfirst⟩ := List.exists_mem_of_ne_nil _ hids
        rw [seededTabs, if_pos ⟨hid, hplace, hids⟩]
        exact ⟨first, hfirst, List.mem_append_left _ (List.mem_append_right _ hfirst)⟩
      · have hin := List.contains_iff_mem.mp hin
        exact ⟨id, hin, mem_seededTabs (tabs.terminal id hin).2.1 hid⟩
    · obtain ⟨first, hfirst⟩ := List.exists_mem_of_ne_nil _ hids
      refine ⟨first, hfirst, hmissing first hfirst (isMissing_iff.mpr fun leaf hleaf hmem => ?_)⟩
      have hno := List.find?_eq_none.mp hnone leaf hleaf
      exact hno (List.any_eq_true.mpr ⟨first, hmem, by simp [hfirst]⟩)

end Target

end HerdrWebui.Panes
