import HerdrWebui.Panes.Tree
import Mathlib.Data.List.Lemmas

/-!
A tab that is dragged to a place in the strip of a leaf. The caret is at a place among the tabs that
the strip shows without the dragged one; the move takes it for a place among all tabs of the leaf,
and asks whether the tab moves at all with the dragged tab among them.
-/

namespace HerdrWebui.Panes

/-- The leaf that a move goes to that names none. -/
def otherLeaf (leaves : List PaneLeaf) (source : PaneLeaf) : PaneLeaf :=
  (if leaves[0]? = some source then leaves[1]? else none).getD
    ((leaves.find? fun leaf => leaf.paneId ≠ source.paneId).getD source)

/-- A tab at a place in a strip, or at its end. -/
def insertTab (tabs : List String) (index : Option Nat) (tabId : String) : List String :=
  tabs.insertIdx (min (index.getD tabs.length) tabs.length) tabId

/-- A tab goes from one leaf to another, which then shows it and has the focus. -/
def carryTab (tabId : String) (source target : PaneLeaf) (index : Option Nat) (w : Workspace) :
    Workspace :=
  let taken := w.modifyLeaf source.paneId fun leaf => { leaf with tabs := leaf.tabs.erase tabId }
  let placed := taken.modifyLeaf target.paneId fun leaf =>
    { leaf with
      tabs := if leaf.tabs.contains tabId then leaf.tabs else insertTab leaf.tabs index tabId
      active := some tabId }
  let left := placed.modifyLeaf source.paneId fun leaf =>
    { leaf with active := orNull leaf.tabs.head? }
  left.focusLeaf w.root target.paneId

/-- The module of the tab is asked for its view afterwards, which is left out. -/
def movePaneTabTo (tabId : String) (targetPaneId : Option String) (index : Option Nat)
    (w : Workspace) : Workspace × Bool :=
  if !isClientTab tabId then (w, false)
  else
    match paneForTab w.root tabId with
    | none => (w, false)
    | some source =>
      let target := ((orNull targetPaneId).bind (paneForPaneId w.root)).getD
        (otherLeaf (paneLeaves w.root) source)
      let pos := source.tabs.idxOf tabId
      if target.paneId = source.paneId then
        if index = none ∨ index = some pos ∨ index = some (pos + 1) then (w, true)
        else
          ((w.modifyLeaf source.paneId fun leaf =>
            { leaf with tabs := insertTab (leaf.tabs.erase tabId) index tabId }).focusLeaf
              w.root source.paneId, true)
      else
        let moved := carryTab tabId source target index w
        if source.tabs.erase tabId = [] then (moved.collapseEmptyLeaf source.paneId, true)
        else (moved, true)

/-- A tab in the strip with the middle of its button. -/
structure StripTab where
  tabId : String
  middle : Rat

/-- The place of the pointer among the tabs of a strip without the dragged one. -/
def paneDropIndexAt (strip : List StripTab) (pointerX : Rat) (draggedId : String) : Nat :=
  (strip.filter fun tab => tab.tabId ≠ draggedId).findIdx fun tab => pointerX < tab.middle

theorem paneDropIndexAt_le {strip : List StripTab} {tabs : List String} {target : PaneLeaf}
    (hstrip : strip.map StripTab.tabId = paneTabsForTree tabs target) (htabs : target.tabs.Nodup)
    (pointerX : Rat) (tabId : String) :
    paneDropIndexAt strip pointerX tabId ≤ ((paneTabsForTree tabs target).erase tabId).length := by
  have hshown : (paneTabsForTree tabs target).Nodup := htabs.filter _
  rw [hshown.erase_eq_filter, ← hstrip, List.filter_map, List.length_map]
  refine List.findIdx_le_length.trans (le_of_eq (congrArg _ (List.filter_congr fun tab _ => ?_)))
  rw [Function.comp, bne, beq_eq_decide, decide_not]

/-- A tree in which each tab has one place and each leaf has an id. -/
structure WellFormed (root : PaneNode) : Prop extends Shaped root where
  named : ∀ leaf ∈ paneLeaves root, leaf.paneId ≠ ""
  tabs : ((paneLeaves root).flatMap PaneLeaf.tabs).Nodup

/-- A leaf that a move may go to or come from, without the dragged tab. -/
def withoutTab (tabId : String) (leaf : PaneLeaf) : String × List String :=
  (leaf.paneId, leaf.tabs.erase tabId)

/-- The tab is where the caret was, behind the first `i` of the other tabs that the strip shows, and
nowhere else. All leaves are there with the other tabs as they were, but for a leaf that had no
other tab, and the leaf that the tab came from shows what it showed, unless that was the tab. -/
structure LandsAtCaret (w w' : Workspace) (tabs : List String) (tabId paneId : String) (i : Nat) :
    Prop where
  caret : ∀ target ∈ paneLeaves w.root, target.paneId = paneId →
    ∃ target' ∈ paneLeaves w'.root, target'.paneId = paneId ∧
      paneTabsForTree tabs target' = ((paneTabsForTree tabs target).erase tabId).insertIdx i tabId
  alone : ∀ leaf' ∈ paneLeaves w'.root, tabId ∈ leaf'.tabs → leaf'.paneId = paneId
  order : (paneLeaves w'.root).map (withoutTab tabId) =
    ((paneLeaves w.root).filter fun leaf => leaf.tabs ≠ [tabId] ∨ leaf.paneId = paneId).map
      (withoutTab tabId)
  active : ∀ leaf ∈ paneLeaves w.root, tabId ∈ leaf.tabs → ∀ leaf' ∈ paneLeaves w'.root,
    leaf'.paneId = leaf.paneId → leaf'.active = leaf.active ∨ leaf.active = some tabId

/-- The strip shows every tab in front of the caret, the tab does not go one place to the right in
its own leaf, and a leaf that it leaves behind with other tabs showed it or the first of these. -/
def ReachesCaret (source target : PaneLeaf) (tabs : List String) (tabId : String) (i : Nat) :
    Prop :=
  (∀ other ∈ (target.tabs.erase tabId).take i, other ∈ paneTabsForTree tabs target) ∧
  if source = target then i ≠ source.tabs.idxOf tabId + 1
  else source.tabs = [tabId] ∨ source.active = some tabId ∨
    source.active = orNull (source.tabs.erase tabId).head?

instance (source target : PaneLeaf) (tabs : List String) (tabId : String) (i : Nat) :
    Decidable (ReachesCaret source target tabs tabId i) := inferInstanceAs (Decidable (_ ∧ _))

section Places

variable {α : Type*} {q : α → Bool} {x : α}

theorem filter_insertIdx (hx : q x = true) {l : List α} {i : Nat} (hi : i ≤ l.length) :
    (l.insertIdx i x).filter q = (l.filter q).insertIdx ((l.take i).countP q) x := by
  induction i generalizing l with
  | zero => simp [hx]
  | succ i ih =>
    cases l with
    | nil => simp at hi
    | cons a l =>
      have hrest := ih (l := l) (by simpa using hi)
      cases ha : q a <;> simp [ha, hrest]

theorem erase_insertIdx [DecidableEq α] {l : List α} (hx : x ∉ l) (i : Nat) :
    (l.insertIdx i x).erase x = l := by
  induction i generalizing l with
  | zero => simp
  | succ i ih =>
    cases l with
    | nil => rfl
    | cons a l =>
      rw [List.mem_cons, not_or] at hx
      rw [List.insertIdx_succ_cons, List.erase_cons_tail (by simpa using Ne.symm hx.1), ih hx.2]

/-- The place that is seen is the place itself where all in front of it is seen. -/
theorem filter_insertIdx_eq_iff [DecidableEq α] (hq : q x = true) {l : List α} (hx : x ∉ l)
    {i p : Nat} (hi : i ≤ (l.filter q).length) (hp : p ≤ l.length) :
    (l.insertIdx p x).filter q = (l.filter q).insertIdx i x ↔ (l.take p).countP q = i := by
  rw [filter_insertIdx hq hp]
  have hcount : (l.take p).countP q ≤ (l.filter q).length := by
    rw [← List.countP_eq_length_filter]
    exact (List.take_sublist p l).countP_le
  have hx' : x ∉ l.filter q := fun hmem => hx (List.mem_of_mem_filter hmem)
  exact ⟨fun h => List.injOn_insertIdx_index_of_notMem _ _ hx' hcount hi h, fun h => by rw [h]⟩

end Places

namespace WellFormed

variable {root : PaneNode} {tabId : String} {source target : PaneLeaf}

theorem eq_of_tab (h : WellFormed root) {leaf leaf' : PaneLeaf} (hmem : leaf ∈ paneLeaves root)
    (hmem' : leaf' ∈ paneLeaves root) (htab : tabId ∈ leaf.tabs) (htab' : tabId ∈ leaf'.tabs) :
    leaf = leaf' := by
  by_contra hne
  have hpairs := (List.nodup_flatMap.mp h.tabs).2
  have : Std.Symm (Function.onFun List.Disjoint PaneLeaf.tabs) := ⟨fun _ _ h => h.symm⟩
  exact hpairs.forall hmem hmem' hne htab htab'

theorem nodup_tabs (h : WellFormed root) {leaf : PaneLeaf} (hmem : leaf ∈ paneLeaves root) :
    leaf.tabs.Nodup :=
  (List.nodup_flatMap.mp h.tabs).1 leaf hmem

theorem paneForTab_eq (h : WellFormed root) (hmem : source ∈ paneLeaves root)
    (htab : tabId ∈ source.tabs) : paneForTab root tabId = some source :=
  find?_eq_some_of_unique hmem (List.contains_iff_mem.mpr htab) fun _ hother hheld =>
    h.eq_of_tab hother hmem (List.contains_iff_mem.mp hheld) htab

end WellFormed

section Moves

variable {w : Workspace} {tabId : String} {source target : PaneLeaf}

/-- The place that the code gives to the tab among the others. -/
def placeOf (source target : PaneLeaf) (tabId : String) (i : Nat) : Nat :=
  if source = target ∧ i = source.tabs.idxOf tabId + 1 then source.tabs.idxOf tabId
  else min i (target.tabs.erase tabId).length

/-- The leaves after a move, from those that stay. -/
structure Moves (w w' : Workspace) (tabId : String) (source target : PaneLeaf) (i : Nat)
    (g : PaneLeaf → PaneLeaf) : Prop where
  leaves : paneLeaves w'.root = ((paneLeaves w.root).filter fun leaf =>
    leaf.tabs ≠ [tabId] ∨ leaf.paneId = target.paneId).map g
  paneId : ∀ leaf, (g leaf).paneId = leaf.paneId
  placed : (g target).tabs =
    (target.tabs.erase tabId).insertIdx (placeOf source target tabId i) tabId
  others : ∀ leaf ∈ paneLeaves w.root, leaf ≠ target → (g leaf).tabs = leaf.tabs.erase tabId
  active : (g source).active =
    if source = target then source.active else orNull (source.tabs.erase tabId).head?

theorem named_target (hw : WellFormed w.root) (htarget : target ∈ paneLeaves w.root)
    (other : PaneLeaf) :
    ((orNull (some target.paneId)).bind (paneForPaneId w.root)).getD other = target := by
  have hname : orNull (some target.paneId) = some target.paneId := by
    simp [orNull, hw.named target htarget]
  rw [hname, Option.bind_some, hw.paneForPaneId_eq htarget]
  rfl

theorem insertIdx_erase {tabs : List String} (htab : tabId ∈ tabs) :
    (tabs.erase tabId).insertIdx (tabs.idxOf tabId) tabId = tabs := by
  have hpos := List.idxOf_lt_length_of_mem htab
  have hset := List.set_getElem_self hpos
  rw [List.getElem_idxOf hpos] at hset
  rw [← List.eraseIdx_idxOf_eq_erase, List.insertIdx_eraseIdx_self hpos.ne, hset]

theorem erase_of_ne (hw : WellFormed w.root) (hmem : source ∈ paneLeaves w.root)
    (htab : tabId ∈ source.tabs) {leaf : PaneLeaf} (hleaf : leaf ∈ paneLeaves w.root)
    (hne : leaf ≠ source) : tabId ∉ leaf.tabs :=
  fun hheld => hne (hw.eq_of_tab hleaf hmem hheld htab)

theorem movePaneTabTo_sameLeaf (hw : WellFormed w.root) (hclient : isClientTab tabId = true)
    (hmem : source ∈ paneLeaves w.root) (htab : tabId ∈ source.tabs) (i : Nat) :
    ∃ g, Moves w (movePaneTabTo tabId (some source.paneId) (some i) w).1 tabId source source i
      g := by
  have hstay : ((paneLeaves w.root).filter fun leaf =>
      leaf.tabs ≠ [tabId] ∨ leaf.paneId = source.paneId) = paneLeaves w.root := by
    refine List.filter_eq_self.mpr fun leaf hleaf => decide_eq_true ?_
    by_cases heq : leaf = source
    · exact .inr (by rw [heq])
    · refine .inl fun htabs => erase_of_ne hw hmem htab hleaf heq ?_
      rw [htabs]
      exact List.mem_singleton_self tabId
  have hid : ∀ leaf ∈ paneLeaves w.root, leaf.paneId = source.paneId → leaf = source :=
    fun leaf hleaf heq => hw.eq_of_paneId hleaf hmem heq
  refine ⟨fun leaf => if leaf.paneId = source.paneId then
    { leaf with tabs := (source.tabs.erase tabId).insertIdx (placeOf source source tabId i) tabId }
    else leaf, ?_, fun leaf => ?_, by rw [if_pos rfl], fun leaf hleaf hne => ?_, ?_⟩
  · rw [hstay]
    have hpos := List.idxOf_lt_length_of_mem htab
    have hlength := List.length_erase_of_mem htab
    simp only [movePaneTabTo, hclient, Bool.not_true, Bool.false_eq_true, if_false,
      hw.paneForTab_eq hmem htab, named_target hw hmem, if_true]
    split
    · next hthere =>
        -- the code leaves the tab where it is
        have hplace : placeOf source source tabId i = source.tabs.idxOf tabId := by
          simp only [reduceCtorEq, false_or, Option.some.injEq] at hthere
          by_cases hnext : i = source.tabs.idxOf tabId + 1
          · rw [placeOf, if_pos ⟨rfl, hnext⟩]
          · rw [placeOf, if_neg fun h => hnext h.2]
            omega
        rw [hplace, insertIdx_erase htab]
        refine ((List.map_congr_left fun leaf hleaf => ?_).trans (List.map_id _)).symm
        split
        · next heq => rw [hid leaf hleaf heq]; rfl
        · rfl
    · next hmoves =>
        have hplace : placeOf source source tabId i = min i (source.tabs.erase tabId).length := by
          rw [placeOf, if_neg fun h => hmoves (.inr (.inr (by rw [h.2])))]
        rw [hplace, Workspace.focusLeaf_root, Workspace.modifyLeaf_root, paneLeaves_modifyLeaf]
        refine List.map_congr_left fun leaf hleaf => ?_
        split
        · next heq => rw [hid leaf hleaf heq]; rfl
        · rfl
  · split <;> rfl
  · rw [if_neg fun heq => hne (hid leaf hleaf heq), List.erase_of_not_mem]
    exact erase_of_ne hw hmem htab hleaf hne
  · rw [if_pos rfl, if_pos rfl]

/-- The leaves of the moved tab's own tree, before a leaf that is left empty goes. -/
def movedLeaf (source target : PaneLeaf) (tabId : String) (i : Nat) (leaf : PaneLeaf) : PaneLeaf :=
  if leaf.paneId = source.paneId then
    { leaf with
      tabs := source.tabs.erase tabId
      active := orNull (source.tabs.erase tabId).head? }
  else if leaf.paneId = target.paneId then
    { leaf with
      tabs := (target.tabs.erase tabId).insertIdx (placeOf source target tabId i) tabId
      active := some tabId }
  else leaf

theorem movedLeaf_paneId (source target : PaneLeaf) (tabId : String) (i : Nat) (leaf : PaneLeaf) :
    (movedLeaf source target tabId i leaf).paneId = leaf.paneId := by
  rw [movedLeaf]
  split
  · rfl
  · split <;> rfl

theorem paneLeaves_carryTab (hw : WellFormed w.root) (hmem : source ∈ paneLeaves w.root)
    (htab : tabId ∈ source.tabs) (htarget : target ∈ paneLeaves w.root) (hne : source ≠ target)
    (i : Nat) :
    paneLeaves (carryTab tabId source target (some i) w).root =
      (paneLeaves w.root).map (movedLeaf source target tabId i) := by
  have hids : target.paneId ≠ source.paneId :=
    fun heq => hne (hw.eq_of_paneId htarget hmem heq).symm
  have hout : tabId ∉ target.tabs := erase_of_ne hw hmem htab htarget hne.symm
  rw [carryTab, Workspace.focusLeaf_root]
  simp only [Workspace.modifyLeaf_root, paneLeaves_modifyLeaf, List.map_map]
  refine List.map_congr_left fun leaf hleaf => ?_
  by_cases hsource : leaf.paneId = source.paneId
  · obtain rfl := hw.eq_of_paneId hleaf hmem hsource
    simp [movedLeaf, hids.symm]
  · by_cases hgoes : leaf.paneId = target.paneId
    · obtain rfl := hw.eq_of_paneId hleaf htarget hgoes
      simp [movedLeaf, hids, hout, insertTab, placeOf, hne, List.erase_of_not_mem]
    · simp [movedLeaf, hsource, hgoes]

theorem shaped_carryTab (hw : Shaped w.root) (i : Option Nat) :
    Shaped (carryTab tabId source target i w).root := by
  refine Shaped.modifyLeaf (Shaped.modifyLeaf (Shaped.modifyLeaf hw ?_) ?_) ?_
  all_goals exact fun _ => rfl

theorem erase_eq_nil_iff {tabs : List String} (htab : tabId ∈ tabs) :
    tabs.erase tabId = [] ↔ tabs = [tabId] := by
  constructor
  · intro h
    have hperm := List.perm_cons_erase htab
    rw [h] at hperm
    exact List.perm_singleton.mp hperm
  · rintro rfl
    simp

theorem stays_iff (hw : WellFormed w.root) (hmem : source ∈ paneLeaves w.root)
    (htab : tabId ∈ source.tabs) (hids : target.paneId ≠ source.paneId) {leaf : PaneLeaf}
    (hleaf : leaf ∈ paneLeaves w.root) :
    (leaf.tabs ≠ [tabId] ∨ leaf.paneId = target.paneId) ↔
      (source.tabs.erase tabId = [] → leaf.paneId ≠ source.paneId) := by
  rw [erase_eq_nil_iff htab]
  by_cases hsource : leaf.paneId = source.paneId
  · obtain rfl := hw.eq_of_paneId hleaf hmem hsource
    simp [hids.symm]
  · have hout := erase_of_ne hw hmem htab hleaf fun heq => hsource (by rw [heq])
    have hne : leaf.tabs ≠ [tabId] := by
      intro htabs
      rw [htabs] at hout
      exact hout (List.mem_singleton_self tabId)
    exact iff_of_true (.inl hne) fun _ => hsource

theorem movePaneTabTo_otherLeaf (hw : WellFormed w.root) (hclient : isClientTab tabId = true)
    (hmem : source ∈ paneLeaves w.root) (htab : tabId ∈ source.tabs)
    (htarget : target ∈ paneLeaves w.root) (hne : source ≠ target) (i : Nat) :
    ∃ g, Moves w (movePaneTabTo tabId (some target.paneId) (some i) w).1 tabId source target i
      g := by
  have hid : ∀ leaf ∈ paneLeaves w.root, leaf.paneId = source.paneId → leaf = source :=
    fun leaf hleaf heq => hw.eq_of_paneId hleaf hmem heq
  have hids : target.paneId ≠ source.paneId := fun heq => hne (hid target htarget heq).symm
  have hmoved := paneLeaves_carryTab hw hmem htab htarget hne i
  refine ⟨movedLeaf source target tabId i, ?_, movedLeaf_paneId source target tabId i, ?_,
    fun leaf hleaf hother => ?_, ?_⟩
  · simp only [movePaneTabTo, hclient, Bool.not_true, Bool.false_eq_true, if_false,
      hw.paneForTab_eq hmem htab, named_target hw htarget, if_neg hids]
    split
    · next hempty =>
        have hin : movedLeaf source target tabId i source ∈
            paneLeaves (carryTab tabId source target (some i) w).root := by
          rw [hmoved]
          exact List.mem_map_of_mem hmem
        have htwo : 2 ≤ (paneLeaves (carryTab tabId source target (some i) w).root).length := by
          rw [hmoved, List.length_map]
          exact two_le_of_ne hmem htarget hne
        have hcollapse := paneLeaves_collapseEmptyLeaf
          (shaped_carryTab hw.toShaped (some i)) hin
          (by rw [movedLeaf, if_pos rfl]; exact hempty) htwo
        rw [movedLeaf_paneId, hmoved, List.filter_map] at hcollapse
        refine hcollapse.trans (congrArg _ (List.filter_congr fun leaf hleaf => ?_))
        rw [Function.comp, movedLeaf_paneId, decide_eq_decide, stays_iff hw hmem htab hids hleaf]
        exact ⟨fun h _ => h, fun h => h hempty⟩
    · next hrest =>
        rw [hmoved, List.filter_eq_self.mpr fun leaf hleaf => decide_eq_true
          ((stays_iff hw hmem htab hids hleaf).mpr fun hempty => absurd hempty hrest)]
  · rw [movedLeaf, if_neg hids, if_pos rfl]
  · rw [movedLeaf]
    split
    · next heq => rw [hid leaf hleaf heq]
    · next hsource =>
        rw [if_neg fun heq => hother (hw.eq_of_paneId hleaf htarget heq), List.erase_of_not_mem]
        exact erase_of_ne hw hmem htab hleaf fun heq => hsource (by rw [heq])
  · rw [movedLeaf, if_pos rfl, if_neg hne]

theorem exists_moves (hw : WellFormed w.root) (hclient : isClientTab tabId = true)
    (hmem : source ∈ paneLeaves w.root) (htab : tabId ∈ source.tabs)
    (htarget : target ∈ paneLeaves w.root) (i : Nat) :
    ∃ g, Moves w (movePaneTabTo tabId (some target.paneId) (some i) w).1 tabId source target i
      g := by
  by_cases heq : source = target
  · subst heq
    exact movePaneTabTo_sameLeaf hw hclient hmem htab i
  · exact movePaneTabTo_otherLeaf hw hclient hmem htab htarget heq i

/-- The strip shows the tab where the caret was exactly if it shows all in front of it, and the
place is not the one behind the tab itself. -/
theorem caret_iff (source target : PaneLeaf) (hw : WellFormed w.root)
    (hclient : isClientTab tabId = true) (htab : tabId ∈ source.tabs)
    (htarget : target ∈ paneLeaves w.root) (tabs : List String) {i : Nat}
    (hcaret : i ≤ ((paneTabsForTree tabs target).erase tabId).length) {target' : PaneLeaf}
    (hplaced : target'.tabs =
      (target.tabs.erase tabId).insertIdx (placeOf source target tabId i) tabId) :
    paneTabsForTree tabs target' =
        ((paneTabsForTree tabs target).erase tabId).insertIdx i tabId ↔
      (∀ other ∈ (target.tabs.erase tabId).take i, other ∈ paneTabsForTree tabs target) ∧
        ¬(source = target ∧ i = source.tabs.idxOf tabId + 1) := by
  simp only [paneTabsForTree, List.erase_filter, hplaced] at hcaret ⊢
  have hout : tabId ∉ target.tabs.erase tabId := (hw.nodup_tabs htarget).not_mem_erase
  have hshown : isShown tabs tabId = true := by rw [isShown, hclient, Bool.true_or]
  have hlength : i ≤ (target.tabs.erase tabId).length := hcaret.trans (List.length_filter_le _ _)
  by_cases hnext : source = target ∧ i = source.tabs.idxOf tabId + 1
  · -- the tab stays behind fewer tabs than the caret had in front of it
    have hpos : source.tabs.idxOf tabId ≤ (target.tabs.erase tabId).length := by
      have := List.idxOf_lt_length_of_mem htab
      rw [← hnext.1, List.length_erase_of_mem htab]
      omega
    rw [placeOf, if_pos hnext, filter_insertIdx_eq_iff hshown hout hcaret hpos]
    refine iff_of_false (fun hcount => ?_) fun h => h.2 hnext
    have hle := List.countP_le_length (p := isShown tabs)
      (l := (target.tabs.erase tabId).take (source.tabs.idxOf tabId))
    rw [hcount, List.length_take] at hle
    omega
  · rw [placeOf, if_neg hnext, Nat.min_eq_left hlength,
      filter_insertIdx_eq_iff hshown hout hcaret hlength]
    have hcount : ((target.tabs.erase tabId).take i).countP (isShown tabs) = i ↔
        ∀ other ∈ (target.tabs.erase tabId).take i, isShown tabs other = true := by
      rw [← List.countP_eq_length, List.length_take, Nat.min_eq_left hlength]
    rw [hcount, and_iff_left hnext]
    refine forall₂_congr fun other hother => ?_
    rw [List.mem_filter, and_iff_right (List.mem_of_mem_erase (List.mem_of_mem_take hother))]

/-- A drop lands at the caret and moves the tab alone exactly if it reaches the caret. -/
theorem movePaneTabTo_landsAtCaret_iff (source target : PaneLeaf) (hw : WellFormed w.root)
    (hclient : isClientTab tabId = true) (hmem : source ∈ paneLeaves w.root)
    (htab : tabId ∈ source.tabs)
    (htarget : target ∈ paneLeaves w.root) (tabs : List String) {i : Nat}
    (hcaret : i ≤ ((paneTabsForTree tabs target).erase tabId).length) :
    LandsAtCaret w (movePaneTabTo tabId (some target.paneId) (some i) w).1 tabs tabId target.paneId
      i ↔ ReachesCaret source target tabs tabId i := by
  obtain ⟨g, hg⟩ := exists_moves hw hclient hmem htab htarget i
  have hcaretIff := caret_iff source target hw hclient htab htarget tabs hcaret hg.placed
  have hid : ∀ leaf ∈ paneLeaves w.root, ∀ leaf' ∈ paneLeaves w.root,
      leaf.paneId = leaf'.paneId → leaf = leaf' := fun _ h _ h' heq => hw.eq_of_paneId h h' heq
  have hmem' : ∀ leaf' ∈ paneLeaves (movePaneTabTo tabId (some target.paneId) (some i) w).1.root,
      ∃ leaf ∈ paneLeaves w.root, (leaf.tabs ≠ [tabId] ∨ leaf.paneId = target.paneId) ∧
        leaf' = g leaf := by
    intro leaf' hleaf'
    rw [hg.leaves] at hleaf'
    obtain ⟨leaf, hleaf, rfl⟩ := List.mem_map.mp hleaf'
    obtain ⟨hleaf, hstays⟩ := List.mem_filter.mp hleaf
    exact ⟨leaf, hleaf, of_decide_eq_true hstays, rfl⟩
  have hin : ∀ leaf ∈ paneLeaves w.root, (leaf.tabs ≠ [tabId] ∨ leaf.paneId = target.paneId) →
      g leaf ∈ paneLeaves (movePaneTabTo tabId (some target.paneId) (some i) w).1.root := by
    intro leaf hleaf hstays
    rw [hg.leaves]
    exact List.mem_map_of_mem (List.mem_filter.mpr ⟨hleaf, decide_eq_true hstays⟩)
  constructor
  · intro h
    obtain ⟨target', htarget', hpane, hshown⟩ := h.caret target htarget rfl
    obtain ⟨leaf, hleaf, -, rfl⟩ := hmem' target' htarget'
    rw [hg.paneId] at hpane
    obtain rfl := hid leaf hleaf target htarget hpane
    obtain ⟨hfront, hnext⟩ := hcaretIff.mp hshown
    refine ⟨hfront, ?_⟩
    split
    · next heq => exact fun hi => hnext ⟨heq, hi⟩
    · next hne =>
        by_cases hlast : source.tabs = [tabId]
        · exact .inl hlast
        · have hkept := h.active source hmem htab (g source) (hin source hmem (.inl hlast))
            (hg.paneId source)
          rw [hg.active, if_neg hne] at hkept
          rcases hkept with hkept | hkept
          · exact .inr (.inr hkept.symm)
          · exact .inr (.inl hkept)
  · rintro ⟨hfront, hsource⟩
    refine ⟨fun leaf hleaf hpane => ?_, fun leaf' hleaf' hheld => ?_, ?_,
      fun leaf hleaf hheld leaf' hleaf' hpane => ?_⟩
    · obtain rfl := hid leaf hleaf target htarget hpane
      refine ⟨g leaf, hin leaf hleaf (.inr rfl), hg.paneId leaf, hcaretIff.mpr ⟨hfront, ?_⟩⟩
      rintro ⟨heq, hi⟩
      rw [if_pos heq] at hsource
      exact hsource hi
    · obtain ⟨leaf, hleaf, -, rfl⟩ := hmem' leaf' hleaf'
      rw [hg.paneId]
      by_contra hpane
      have hne : leaf ≠ target := fun heq => hpane (by rw [heq])
      rw [hg.others leaf hleaf hne] at hheld
      exact (hw.nodup_tabs hleaf).not_mem_erase hheld
    · rw [hg.leaves, List.map_map]
      refine List.map_congr_left fun leaf hleaf => ?_
      obtain ⟨hleaf, -⟩ := List.mem_filter.mp hleaf
      have hout : tabId ∉ leaf.tabs.erase tabId := (hw.nodup_tabs hleaf).not_mem_erase
      rw [Function.comp, withoutTab, withoutTab, hg.paneId]
      by_cases heq : leaf = target
      · rw [heq, hg.placed, erase_insertIdx (heq ▸ hout)]
      · rw [hg.others leaf hleaf heq, List.erase_of_not_mem hout]
    · obtain rfl := hw.eq_of_tab hleaf hmem hheld htab
      obtain ⟨other, hother, hstays, rfl⟩ := hmem' leaf' hleaf'
      rw [hg.paneId] at hpane
      obtain rfl := hid other hother leaf hleaf hpane
      rw [hg.active]
      split
      · exact .inl rfl
      · next hne =>
          rw [if_neg hne] at hsource
          rcases hsource with hlast | hsource | hsource
          · exact absurd (hid other hother target htarget (hstays.resolve_left (absurd hlast))) hne
          · exact .inr hsource
          · exact .inl hsource.symm

end Moves

/-- Two files in a pane, and a third beside it. -/
def twoPanes : Workspace where
  root := .node ⟨0, .row, [1, 1]⟩
    [.leaf ⟨"p1", ["editor:a", "editor:b"], some "editor:a"⟩,
      .leaf ⟨"p2", ["editor:c"], some "editor:c"⟩]
  usedPaneIds := ["p2", "p1"]

theorem wellFormed_twoPanes : WellFormed twoPanes.root where
  branching := .node (by decide) (by
    simp only [List.forall_mem_cons]
    exact ⟨.leaf _, .leaf _, by simp⟩)
  refs := by decide +kernel
  paneIds := by decide +kernel
  named := by decide +kernel
  tabs := by decide +kernel

theorem movePaneTabTo_landsAtCaret_otherPane :
    LandsAtCaret twoPanes (movePaneTabTo "editor:a" (some "p2") (some 1) twoPanes).1 ["tab_1"]
      "editor:a" "p2" 1 :=
  (movePaneTabTo_landsAtCaret_iff ⟨"p1", ["editor:a", "editor:b"], some "editor:a"⟩
    ⟨"p2", ["editor:c"], some "editor:c"⟩ wellFormed_twoPanes (by decide +kernel)
    (by decide +kernel) (by decide +kernel) (by decide +kernel) ["tab_1"]
    (by decide +kernel)).mpr (by decide +kernel)

/-- A tab that is dropped behind its right neighbour stays where it is. -/
theorem movePaneTabTo_stays_left :
    WellFormed twoPanes.root ∧ isClientTab "editor:a" = true ∧
      1 ≤ ((paneTabsForTree ["tab_1"] ⟨"p1", ["editor:a", "editor:b"], some "editor:a"⟩).erase
        "editor:a").length ∧
      ¬LandsAtCaret twoPanes (movePaneTabTo "editor:a" (some "p1") (some 1) twoPanes).1 ["tab_1"]
        "editor:a" "p1" 1 := by
  refine ⟨wellFormed_twoPanes, by decide +kernel, by decide +kernel, fun h => ?_⟩
  obtain ⟨target', htarget', hpane, hshown⟩ :=
    h.caret ⟨"p1", ["editor:a", "editor:b"], some "editor:a"⟩ (by decide +kernel) rfl
  revert target'
  decide +kernel

end HerdrWebui.Panes
