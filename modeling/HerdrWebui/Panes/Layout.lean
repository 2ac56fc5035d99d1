import HerdrWebui.Concurrency.System
import HerdrWebui.Panes.Commands

/-!
What the commands of a layout keep: splits in two with a size for each half, one object for each
split and each leaf, and the tabs of the backend in no more leaves than before.
-/

namespace HerdrWebui.Panes

theorem paneIdAt_injective : Function.Injective paneIdAt := by
  intro n m h
  have hdigits : Nat.toDigits 10 n = Nat.toDigits 10 m := by
    have hlists := congrArg String.toList h
    simpa [paneIdAt, Nat.toString_eq_ofList_toDigits] using hlists
  rw [← Nat.ofDigitChars_ten_toDigits (n := n), hdigits, Nat.ofDigitChars_ten_toDigits]

theorem taken_of_nextPaneNumber {used : List String} {fuel counter : Nat}
    (h : paneIdAt (nextPaneNumber used fuel counter) ∈ used) :
    ∀ i ≤ fuel, paneIdAt (counter + 1 + i) ∈ used := by
  induction fuel generalizing counter with
  | zero =>
    intro i hi
    obtain rfl : i = 0 := by omega
    exact h
  | succ fuel ih =>
    rw [nextPaneNumber] at h
    split at h
    · next htaken =>
        intro i hi
        cases i with
        | zero => exact List.contains_iff_mem.mp htaken
        | succ i =>
          have hrest := ih h i (by omega)
          rwa [show counter + 1 + 1 + i = counter + 1 + (i + 1) by omega] at hrest
    · next hfree => exact absurd (List.contains_iff_mem.mpr h) hfree

/-- With as many tries as there are taken ids, and one more, an id is found that is not taken. -/
theorem nextPaneNumber_free (used : List String) (counter : Nat) :
    paneIdAt (nextPaneNumber used used.length counter) ∉ used := by
  intro h
  have htaken := taken_of_nextPaneNumber h
  have hnodup : ((List.range (used.length + 1)).map fun i => paneIdAt (counter + 1 + i)).Nodup :=
    List.nodup_range.map fun i j hij => by
      have := paneIdAt_injective hij
      omega
  have hsub : ((List.range (used.length + 1)).map fun i => paneIdAt (counter + 1 + i)) ⊆ used := by
    intro id hid
    obtain ⟨i, hi, rfl⟩ := List.mem_map.mp hid
    exact htaken i (by rw [List.mem_range] at hi; omega)
  have hle := (hnodup.subperm hsub).length_le
  rw [List.length_map, List.length_range] at hle
  omega

/-- The ids of a tree's tabs that have a property, with how often they are there. -/
def tabIds (q : String → Bool) (root : PaneNode) : List String :=
  ((paneLeaves root).flatMap PaneLeaf.tabs).filter q

/-- Splits are in two and have a size for each half, splits and leaves are objects of their own, and
no new one can be taken for one of them. -/
structure Sound (w : Workspace) : Prop where
  halves : w.root.Everywhere fun split n => n = 2 ∧ split.sizes.length = 2
  refs : OrderedTree.DistinctKeys PaneSplit.ref w.root
  below : ∀ split ∈ w.root.labels, split.ref < w.nextRef
  paneIds : ((paneLeaves w.root).map PaneLeaf.paneId).Nodup
  used : ∀ leaf ∈ paneLeaves w.root, leaf.paneId ∈ w.usedPaneIds

theorem Shaped.filter_hasPaneId {root : PaneNode} (h : Shaped root) {leaf : PaneLeaf}
    (hmem : leaf ∈ paneLeaves root) :
    (paneLeaves root).filter (hasPaneId leaf.paneId) = [leaf] := by
  have hone := h.countP_le_one leaf.paneId
  have hin : leaf ∈ (paneLeaves root).filter (hasPaneId leaf.paneId) :=
    List.mem_filter.mpr ⟨hmem, decide_eq_true rfl⟩
  rw [List.countP_eq_length_filter] at hone
  rw [paneLeaves] at hin ⊢
  rcases hlist : root.leaves.filter (hasPaneId leaf.paneId) with _ | ⟨other, _ | ⟨_, _⟩⟩
  · simp [hlist] at hin
  · simpa [hlist, eq_comm] using hin
  · simp [hlist] at hone

theorem flatMap_ite_singleton {α β : Type*} (p : α → Prop) [DecidablePred p] (b : β) (l : List α) :
    (l.flatMap fun a => if p a then [b] else []) = (l.filter fun a => p a).map fun _ => b := by
  induction l with
  | nil => rfl
  | cons a l ih =>
    rw [List.flatMap_cons, ih]
    by_cases ha : p a <;> simp [ha]

section SplitLeaf

variable {w : Workspace} {leaf : PaneLeaf}

theorem newEmptyLeaf_free (w : Workspace) : w.newEmptyLeaf.2.paneId ∉ w.usedPaneIds :=
  nextPaneNumber_free w.usedPaneIds w.paneIdCounter

theorem paneLeaves_splitLeaf (hw : Shaped w.root) (hmem : leaf ∈ paneLeaves w.root)
    (kind : SplitKind) :
    (paneLeaves (w.splitLeaf leaf kind).root).Perm (paneLeaves w.root ++ [w.newEmptyLeaf.2]) := by
  have hleaves : paneLeaves (w.splitLeaf leaf kind).root = (paneLeaves w.root).flatMap fun other =>
      [other] ++ if other.paneId = leaf.paneId then [w.newEmptyLeaf.2] else [] := by
    refine (OrderedTree.leaves_replaceLeaves _ _).trans (List.flatMap_congr fun other hother => ?_)
    split
    · next heq =>
        rw [hw.eq_of_paneId hother hmem heq]
        rfl
    · rfl
  rw [hleaves]
  refine (List.flatMap_append_perm _ _ _).symm.trans ?_
  rw [flatMap_ite_singleton, show (fun a : PaneLeaf => decide (a.paneId = leaf.paneId)) =
    hasPaneId leaf.paneId from rfl, hw.filter_hasPaneId hmem, List.flatMap_singleton']
  exact .refl _

theorem labels_splitLeaf (hw : Shaped w.root) (hmem : leaf ∈ paneLeaves w.root)
    (kind : SplitKind) :
    (w.splitLeaf leaf kind).root.labels.Perm (w.root.labels ++ [⟨w.nextRef, kind, [1, 1]⟩]) := by
  refine (OrderedTree.labels_replaceLeaves _ _).trans (.append_left _ ?_)
  have hlabels : (w.root.leaves.flatMap fun other =>
      (if other.paneId = leaf.paneId then OrderedTree.node ⟨w.nextRef, kind, [1, 1]⟩
        [.leaf leaf, .leaf w.newEmptyLeaf.2] else .leaf other : PaneNode).labels) =
      w.root.leaves.flatMap fun other =>
        if other.paneId = leaf.paneId then [⟨w.nextRef, kind, [1, 1]⟩] else [] :=
    List.flatMap_congr fun other _ => by
      split
      · simp
      · rfl
  refine .of_eq (hlabels.trans ?_)
  rw [flatMap_ite_singleton, show (fun a : PaneLeaf => decide (a.paneId = leaf.paneId)) =
    hasPaneId leaf.paneId from rfl, show w.root.leaves = paneLeaves w.root from rfl,
    hw.filter_hasPaneId hmem]
  rfl

end SplitLeaf

namespace Sound

variable {w : Workspace} {paneId : String} {leaf : PaneLeaf} {f : PaneLeaf → PaneLeaf}

theorem toShaped (h : Sound w) : Shaped w.root :=
  ⟨h.halves.mono fun _ _ hn => hn.1.ge, h.refs, h.paneIds⟩

theorem mapLeaves (h : Sound w) (hf : ∀ leaf, (f leaf).paneId = leaf.paneId) :
    Sound { w with root := w.root.mapLeaves f } where
  halves := OrderedTree.everywhere_mapLeaves h.halves f
  refs := (h.toShaped.mapLeaves hf).refs
  below := by
    rw [OrderedTree.labels_mapLeaves]
    exact h.below
  paneIds := (h.toShaped.mapLeaves hf).paneIds
  used := by
    rw [paneLeaves, OrderedTree.leaves_mapLeaves]
    intro edited hedited
    obtain ⟨leaf, hleaf, rfl⟩ := List.mem_map.mp hedited
    rw [hf]
    exact h.used leaf hleaf

theorem modifyLeaf (h : Sound w) (hf : ∀ leaf, (f leaf).paneId = leaf.paneId) :
    Sound (w.modifyLeaf paneId f) :=
  h.mapLeaves fun leaf => by
    split
    · exact hf leaf
    · rfl

theorem focusLeaf (h : Sound w) (root : PaneNode) (paneId : String) :
    Sound (w.focusLeaf root paneId) :=
  ⟨h.halves, h.refs, h.below, h.paneIds, h.used⟩

theorem unmaximize (h : Sound w) (paneId : String) : Sound (w.unmaximize paneId) :=
  ⟨h.halves, h.refs, h.below, h.paneIds, h.used⟩

theorem relabel (h : Sound w) {g : PaneSplit → Nat → PaneSplit}
    (href : ∀ split n, (g split n).ref = split.ref)
    (hsizes : ∀ split n, n = 2 → split.sizes.length = 2 → (g split n).sizes.length = 2) :
    Sound { w with root := w.root.relabel g } := by
  have hlabels : (w.root.relabel g).labels.map PaneSplit.ref = w.root.labels.map PaneSplit.ref :=
    OrderedTree.map_labels_relabel href w.root
  refine ⟨OrderedTree.everywhere_relabel
    (fun split n hn => ⟨hn.1, hsizes split n hn.1 hn.2⟩) h.halves, ?_, fun split hsplit => ?_,
    ?_, ?_⟩
  · rw [OrderedTree.DistinctKeys, hlabels]
    exact h.refs
  · have hmem := List.mem_map_of_mem (f := PaneSplit.ref) hsplit
    rw [hlabels] at hmem
    obtain ⟨split', hsplit', heq⟩ := List.mem_map.mp hmem
    rw [← heq]
    exact h.below split' hsplit'
  · rw [paneLeaves, OrderedTree.leaves_relabel]
    exact h.paneIds
  · rw [paneLeaves, OrderedTree.leaves_relabel]
    exact h.used

theorem without (h : Sound w) {p : PaneLeaf → Bool} {kept : PaneNode}
    (hkept : w.root.without p = some kept) : Sound { w with root := kept } := by
  have hlabels := OrderedTree.sublist_labels_without _ hkept
  have hleaves : paneLeaves kept = _ := OrderedTree.leaves_of_without _ hkept
  refine ⟨OrderedTree.everywhere_without _ (fun _ _ _ hn htwo hle => ⟨by omega, hn.2⟩) h.halves
    hkept, h.refs.sublist (hlabels.map _),
    fun split hsplit => h.below split (hlabels.subset hsplit), ?_, fun leaf hleaf => ?_⟩
  · rw [hleaves]
    exact h.paneIds.sublist (List.filter_sublist.map _)
  · rw [hleaves] at hleaf
    exact h.used leaf (List.mem_of_mem_filter hleaf)

theorem cut (h : Sound w) {kept root : PaneNode}
    (hkept : w.root.without (hasPaneId paneId) = some kept)
    (hshape : root = kept ∨ root = normalizePaneTree kept) : Sound { w with root } := by
  have hleft := h.without hkept
  rcases hshape with rfl | rfl
  · exact hleft
  · rw [normalizePaneTree_eq hleft.toShaped.branching]
    refine hleft.relabel ?_ ?_
    · exact fun _ _ => rfl
    · intro split n hn _
      rw [normalizeSizes, List.length_map, List.length_range, hn]

theorem collapseEmptyLeaf (h : Sound w) (paneId : String) : Sound (w.collapseEmptyLeaf paneId) := by
  rcases collapseEmptyLeaf_cases h.toShaped paneId with
    heq | ⟨leaf, -, -, -, kept, root, survivor, hkept, hshape, -, heq⟩
  · rwa [heq]
  · rw [heq]
    exact ((h.unmaximize paneId).cut hkept hshape).focusLeaf root survivor.paneId

theorem splitLeaf (h : Sound w) (hmem : leaf ∈ paneLeaves w.root) (kind : SplitKind) :
    Sound (w.splitLeaf leaf kind) := by
  have hleaves := paneLeaves_splitLeaf h.toShaped hmem kind
  have hlabels := labels_splitLeaf h.toShaped hmem kind
  refine ⟨?_, ?_, ?_, ?_, ?_⟩
  · refine OrderedTree.everywhere_replaceLeaves h.halves fun other _ => ?_
    split
    · exact .node ⟨rfl, rfl⟩ (by
        simp only [List.forall_mem_cons]
        exact ⟨.leaf _, .leaf _, by simp⟩)
    · exact .leaf other
  · rw [OrderedTree.DistinctKeys, (hlabels.map _).nodup_iff, List.map_append, List.map_singleton,
      List.nodup_append]
    refine ⟨h.refs, List.nodup_singleton _, fun ref href ref' href' heq => ?_⟩
    obtain ⟨split, hsplit, rfl⟩ := List.mem_map.mp href
    exact (h.below split hsplit).ne (heq.trans (List.mem_singleton.mp href'))
  · intro split hsplit
    rcases List.mem_append.mp (hlabels.mem_iff.mp hsplit) with hsplit | hsplit
    · exact Nat.lt_succ_of_lt (h.below split hsplit)
    · rw [List.mem_singleton.mp hsplit]
      exact Nat.lt_succ_self w.nextRef
  · rw [(hleaves.map _).nodup_iff, List.map_append, List.map_singleton, List.nodup_append]
    refine ⟨h.paneIds, List.nodup_singleton _, fun id hid id' hid' heq => ?_⟩
    obtain ⟨other, hother, rfl⟩ := List.mem_map.mp hid
    rw [List.mem_singleton.mp hid'] at heq
    exact newEmptyLeaf_free w (heq ▸ h.used other hother)
  · intro other hother
    rcases List.mem_append.mp (hleaves.mem_iff.mp hother) with hother | hother
    · exact List.mem_cons_of_mem _ (h.used other hother)
    · rw [List.mem_singleton.mp hother]
      exact List.mem_cons_self

end Sound

section Close

variable {w : Workspace} {root : PaneNode} {leaf : PaneLeaf}

theorem mem_of_find?_map {l : List PaneNode} {leaves : List PaneLeaf}
    (h : (l.map paneLeaves).find? (· ≠ []) = some leaves) :
    ∃ other ∈ l, paneLeaves other = leaves :=
  List.mem_map.mp (List.mem_of_find?_eq_some h)

theorem exists_migrationTarget (hw : Shaped root) (hmem : leaf ∈ paneLeaves root)
    (htwo : 2 ≤ (paneLeaves root).length) :
    ∃ migration ∈ paneLeaves root, migration.paneId ≠ leaf.paneId ∧
      migrationTargetForClosedLeaf root leaf.paneId = some migration := by
  obtain ⟨split, front, back, hholds⟩ := exists_holds_of_two_le hmem htwo
  have hone := hw.countP_le_one leaf.paneId
  have hslot : findLeafSlot root leaf.paneId = _ := hholds.slot_eq hone
  have hbeside : ∀ other ∈ front ++ back, ∀ x ∈ paneLeaves other,
      x ∈ paneLeaves root ∧ x.paneId ≠ leaf.paneId := fun other hother x hx =>
    (hholds.sibling_leaves hone other hother x hx).imp_right of_decide_eq_false
  have hfound : ∃ migration, migrationTargetForClosedLeaf root leaf.paneId = some migration ∧
      migration ∈ paneLeaves root ∧ migration.paneId ≠ leaf.paneId := by
    rw [migrationTargetForClosedLeaf, hslot]
    dsimp only
    split
    · next hlength =>
        -- the sibling of a split in two
        obtain ⟨sibling, hsibling⟩ : ∃ sibling, front ++ back = [sibling] := by
          rw [← List.length_eq_one_iff]
          simp only [List.length_append, List.length_cons] at hlength ⊢
          omega
        obtain ⟨-, hother⟩ := append_singleton_cases hsibling (.leaf leaf)
        have hin := hbeside sibling (by rw [hsibling]; exact List.mem_singleton_self _)
        have hne : paneLeaves sibling ≠ [] :=
          (hholds.sibling_branching hw.branching sibling
            (by rw [hsibling]; exact List.mem_singleton_self _)).leaves_ne_nil
        rw [hother, Option.bind_some]
        split
        · exact ⟨_, List.getLast?_eq_some_getLast hne, hin _ (List.getLast_mem hne)⟩
        · exact ⟨_, List.head?_eq_some_head hne, hin _ (List.head_mem hne)⟩
    · -- the next leaf behind it, in front of it, or any other
      have hback : (front ++ .leaf leaf :: back).drop (front.length + 1) = back := by simp
      rw [hback, List.take_left]
      cases hafter : ((back.map paneLeaves).find? (· ≠ [])).bind List.head? with
      | some next =>
        obtain ⟨leaves, hfind, hhead⟩ := Option.bind_eq_some_iff.mp hafter
        obtain ⟨other, hother, rfl⟩ := mem_of_find?_map hfind
        exact ⟨next, rfl, hbeside other (List.mem_append_right _ hother) next
          (List.mem_of_mem_head? hhead)⟩
      | none =>
        rw [Option.none_or]
        cases hbefore : ((front.reverse.map paneLeaves).find? (· ≠ [])).bind List.getLast? with
        | some last =>
          obtain ⟨leaves, hfind, hlast⟩ := Option.bind_eq_some_iff.mp hbefore
          obtain ⟨other, hother, rfl⟩ := mem_of_find?_map hfind
          exact ⟨last, rfl, hbeside other
            (List.mem_append_left _ (List.mem_reverse.mp hother)) last
            (List.mem_of_getLast? hlast)⟩
        | none =>
          obtain ⟨other, hother, hne⟩ := hw.exists_other leaf.paneId htwo
          rw [Option.none_or]
          cases hany : (paneLeaves root).find? fun other => other.paneId ≠ leaf.paneId with
          | none => exact absurd hne (by simpa using List.find?_eq_none.mp hany other hother)
          | some any =>
            have hid := List.find?_some hany
            exact ⟨any, rfl, List.mem_of_find?_eq_some hany, of_decide_eq_true hid⟩
  obtain ⟨migration, hfound, hin, hne⟩ := hfound
  exact ⟨migration, hin, hne, hfound⟩

theorem inherit_paneId (tabs : List String) (routeTab : Option String) (leaf : PaneLeaf) :
    (Workspace.inherit tabs routeTab leaf).paneId = leaf.paneId := rfl

/-- A pane is not closed, or its tabs go to another leaf and it is taken out. -/
theorem closeActivePane_cases (hw : Shaped w.root) (routeTab : Option String) :
    w.closeActivePane routeTab = w ∨
    ∃ leaf ∈ paneLeaves w.root, ∃ migration ∈ paneLeaves w.root, migration.paneId ≠ leaf.paneId ∧
      ∃ kept root survivor,
        (w.root.modifyLeaf migration.paneId (Workspace.inherit leaf.tabs routeTab)).without
          (hasPaneId leaf.paneId) = some kept ∧
        (root = kept ∨ root = normalizePaneTree kept) ∧ survivor ∈ paneLeaves root ∧
        w.closeActivePane routeTab =
          ({ w.unmaximize leaf.paneId with root }).focusLeaf root survivor.paneId := by
  rw [Workspace.closeActivePane]
  split
  · exact .inl rfl
  · next hlength =>
      have htwo : 2 ≤ (paneLeaves w.root).length := not_le.mp hlength
      split
      · exact .inl rfl
      · next leaf hactive =>
          have hmem := Workspace.activeLeaf_mem hactive
          obtain ⟨migration, hmigration, hne, htarget⟩ := exists_migrationTarget hw hmem htwo
          have hshaped : Shaped
              (w.root.modifyLeaf migration.paneId (Workspace.inherit leaf.tabs routeTab)) :=
            hw.modifyLeaf (inherit_paneId leaf.tabs routeTab)
          have hleaves : paneLeaves
              (w.root.modifyLeaf migration.paneId (Workspace.inherit leaf.tabs routeTab)) = _ :=
            paneLeaves_modifyLeaf _
          have hin : leaf ∈ paneLeaves
              (w.root.modifyLeaf migration.paneId (Workspace.inherit leaf.tabs routeTab)) := by
            rw [hleaves]
            exact List.mem_map.mpr ⟨leaf, hmem, if_neg hne.symm⟩
          obtain ⟨split, front, back, hholds⟩ := exists_holds_of_two_le hin
            (by rw [hleaves, List.length_map]; exact htwo)
          have hslot : findLeafSlot _ leaf.paneId = _ :=
            hholds.slot_eq (hshaped.countP_le_one leaf.paneId)
          obtain ⟨kept, root, captured, hkept, hshape, hcut⟩ := Held.cutLeaf_live
            (w := (w.unmaximize leaf.paneId).modifyLeaf migration.paneId
              (Workspace.inherit leaf.tabs routeTab)) hshaped hholds
          have hrest : paneLeaves root ≠ [] := by
            obtain ⟨other, hother, hid⟩ := hshaped.exists_other leaf.paneId
              (by rw [hleaves, List.length_map]; exact htwo)
            rw [paneLeaves_of_cut hshaped.branching hkept hshape]
            exact List.ne_nil_of_mem (List.mem_filter.mpr ⟨hother, decide_eq_true hid⟩)
          obtain ⟨survivor, hsurvivor⟩ := Workspace.exists_activeLeaf
            (w := { w.unmaximize leaf.paneId with root }) hrest
          refine .inr ⟨leaf, hmem, migration, hmigration, hne, kept, root, survivor, hkept, hshape,
            Workspace.activeLeaf_mem hsurvivor, ?_⟩
          have hgone : (findLeafSlot (w.root.modifyLeaf migration.paneId
              (Workspace.inherit leaf.tabs routeTab)) leaf.paneId).bind (fun slot =>
                Held.cutLeaf ⟨(w.unmaximize leaf.paneId).modifyLeaf migration.paneId
                  (Workspace.inherit leaf.tabs routeTab), none⟩ slot.1 slot.2.1 slot.2.2) =
              some ⟨{ w.unmaximize leaf.paneId with root }, captured⟩ := by
            rw [hslot]
            exact hcut
          simp only [htarget, Workspace.modifyLeaf_root, Workspace.unmaximize_root]
          rw [hgone]
          simp only [Workspace.focusActiveLeaf, hsurvivor]

end Close

section TabIds

variable {q : String → Bool} {w : Workspace} {root root' : PaneNode}

theorem tabIds_eq (q : String → Bool) (root : PaneNode) :
    tabIds q root = (paneLeaves root).flatMap fun leaf => leaf.tabs.filter q :=
  List.filter_flatMap

theorem flatMap_filter_of_nil {α β : Type*} {f : α → List β} {p : α → Bool} {l : List α}
    (h : ∀ a ∈ l, p a = false → f a = []) : (l.filter p).flatMap f = l.flatMap f := by
  induction l with
  | nil => rfl
  | cons a l ih =>
    have hrest := ih fun b hb => h b (List.mem_cons_of_mem a hb)
    cases ha : p a with
    | true => rw [List.filter_cons_of_pos ha, List.flatMap_cons, List.flatMap_cons, hrest]
    | false =>
      rw [List.filter_cons_of_neg (by simp [ha]), List.flatMap_cons, h a List.mem_cons_self ha,
        hrest, List.nil_append]

theorem tabIds_collapseEmptyLeaf (hw : Shaped w.root) (paneId : String) :
    tabIds q (w.collapseEmptyLeaf paneId).root = tabIds q w.root := by
  rcases collapseEmptyLeaf_cases hw paneId with
    heq | ⟨leaf, hmem, rfl, hempty, kept, root, survivor, hkept, hshape, -, heq⟩
  · rw [heq]
  · rw [heq]
    have hleaves : paneLeaves root = _ := paneLeaves_of_cut hw.branching hkept hshape
    rw [Workspace.focusLeaf_root, tabIds, hleaves, flatMap_filter_of_nil, tabIds]
    intro other hother hid
    rw [decide_eq_false_iff_not, not_not] at hid
    rw [hw.eq_of_paneId hother hmem hid, hempty]

theorem tabIds_splitLeaf (hw : Shaped w.root) {leaf : PaneLeaf} (hmem : leaf ∈ paneLeaves w.root)
    (kind : SplitKind) : (tabIds q (w.splitLeaf leaf kind).root).Perm (tabIds q w.root) := by
  refine (((paneLeaves_splitLeaf hw hmem kind).flatMap_right _).filter q).trans ?_
  rw [List.flatMap_append, List.flatMap_singleton]
  exact .of_eq (by rw [show w.newEmptyLeaf.2.tabs = [] from rfl, List.append_nil, tabIds])

theorem exists_foldl_append (tabs all : List String) :
    ∃ new, new.Sublist tabs ∧
      tabs.foldl (fun all tabId => if all.contains tabId then all else all ++ [tabId]) all =
        all ++ new := by
  induction tabs generalizing all with
  | nil => exact ⟨[], .slnil, (List.append_nil all).symm⟩
  | cons tabId tabs ih =>
    rw [List.foldl_cons]
    split
    · obtain ⟨new, hnew, heq⟩ := ih all
      exact ⟨new, hnew.cons tabId, heq⟩
    · obtain ⟨new, hnew, heq⟩ := ih (all ++ [tabId])
      exact ⟨tabId :: new, hnew.cons_cons tabId, by rw [heq, List.append_assoc]; rfl⟩

theorem paneLeaves_of_close (hw : Shaped w.root) {leaf migration : PaneLeaf}
    (hmem : leaf ∈ paneLeaves w.root) (hmigration : migration ∈ paneLeaves w.root)
    (hne : migration.paneId ≠ leaf.paneId) {f : PaneLeaf → PaneLeaf}
    (hf : ∀ leaf, (f leaf).paneId = leaf.paneId) {kept : PaneNode}
    (hkept : (w.root.modifyLeaf migration.paneId f).without (hasPaneId leaf.paneId) = some kept)
    (hshape : root = kept ∨ root = normalizePaneTree kept) :
    ∃ rest, (paneLeaves w.root).Perm (leaf :: migration :: rest) ∧
      (paneLeaves root).Perm (f migration :: rest) := by
  have hdiffers : leaf ≠ migration := fun heq => hne (by rw [heq])
  have hperm : (paneLeaves w.root).Perm (leaf :: migration ::
      ((paneLeaves w.root).erase leaf).erase migration) := by
    refine (List.perm_cons_erase hmem).trans (.cons leaf (List.perm_cons_erase ?_))
    exact (List.mem_erase_of_ne hdiffers.symm).mpr hmigration
  refine ⟨_, hperm, ?_⟩
  have hids := (hperm.map PaneLeaf.paneId).nodup_iff.mp hw.paneIds
  simp only [List.map_cons, List.nodup_cons, List.mem_cons, not_or, List.mem_map, not_exists,
    not_and] at hids
  have hleaves := paneLeaves_of_cut (hw.modifyLeaf hf).branching hkept hshape
  rw [hleaves, paneLeaves_modifyLeaf]
  refine ((hperm.map _).filter _).trans (.of_eq ?_)
  rw [List.map_cons, List.map_cons, if_neg hne.symm, if_pos rfl,
    List.filter_cons_of_neg (by simp),
    List.filter_cons_of_pos (by rw [hf]; exact decide_eq_true hne)]
  have hrest : (((paneLeaves w.root).erase leaf).erase migration).map (fun other =>
      if other.paneId = migration.paneId then f other else other) =
      ((paneLeaves w.root).erase leaf).erase migration :=
    (List.map_congr_left fun other hother => if_neg (hids.2.1 other hother)).trans (List.map_id _)
  rw [hrest]
  exact congrArg _ (List.filter_eq_self.mpr fun other hother =>
    decide_eq_true (hids.1.2 other hother))

theorem tabIds_closeActivePane (hw : Shaped w.root) (routeTab : Option String) :
    (tabIds q (w.closeActivePane routeTab).root).Subperm (tabIds q w.root) := by
  rcases closeActivePane_cases hw routeTab with
    heq | ⟨leaf, hmem, migration, hmigration, hne, kept, root, survivor, hkept, hshape, -, heq⟩
  · rw [heq]
  · rw [heq, Workspace.focusLeaf_root]
    obtain ⟨rest, hbefore, hafter⟩ := paneLeaves_of_close hw hmem hmigration hne
      (inherit_paneId leaf.tabs routeTab) hkept hshape
    obtain ⟨new, hnew, htabs⟩ := exists_foldl_append leaf.tabs migration.tabs
    refine List.Subperm.filter q ?_
    refine (hafter.flatMap_right _).subperm.trans
      (List.Subperm.trans ?_ (hbefore.flatMap_right _).symm.subperm)
    simp only [List.flatMap_cons]
    rw [show (Workspace.inherit leaf.tabs routeTab migration).tabs = _ from htabs,
      ← List.append_assoc]
    exact ((hnew.append_left _).append_right _).subperm.trans
      (List.perm_append_comm.append_right _).subperm

end TabIds

/-- The layout is sound after a step, and the tabs with a property are no more than before. -/
structure Keeps (q : String → Bool) (w w' : Workspace) : Prop where
  sound : Sound w'
  tabIds : (tabIds q w'.root).Subperm (tabIds q w.root)

namespace Keeps

variable {q : String → Bool} {w w' w'' : Workspace} {leaf : PaneLeaf} {f : PaneLeaf → PaneLeaf}

theorem refl (h : Sound w) : Keeps q w w := ⟨h, .refl _⟩

theorem focusLeaf (h : Keeps q w w') (root : PaneNode) (paneId : String) :
    Keeps q w (w'.focusLeaf root paneId) :=
  ⟨h.sound.focusLeaf root paneId, h.tabIds⟩

theorem modifyLeaf (h : Keeps q w w') (paneId : String) (hf : ∀ leaf, (f leaf).paneId = leaf.paneId)
    (htabs : ∀ leaf, ((f leaf).tabs.filter q).Sublist (leaf.tabs.filter q)) :
    Keeps q w (w'.modifyLeaf paneId f) := by
  refine ⟨h.sound.modifyLeaf hf, List.Subperm.trans ?_ h.tabIds⟩
  rw [tabIds_eq, tabIds_eq, Workspace.modifyLeaf_root, paneLeaves_modifyLeaf, List.flatMap_map]
  refine (List.Sublist.flatMap_right _ fun leaf _ => ?_).subperm
  split
  · exact htabs leaf
  · exact .refl _

theorem collapseEmptyLeaf (h : Keeps q w w') (paneId : String) :
    Keeps q w (w'.collapseEmptyLeaf paneId) := by
  refine ⟨h.sound.collapseEmptyLeaf paneId, ?_⟩
  rw [tabIds_collapseEmptyLeaf h.sound.toShaped]
  exact h.tabIds

theorem splitLeaf (h : Keeps q w w') (hmem : leaf ∈ paneLeaves w'.root) (kind : SplitKind) :
    Keeps q w (w'.splitLeaf leaf kind) :=
  ⟨h.sound.splitLeaf hmem kind,
    (tabIds_splitLeaf h.sound.toShaped hmem kind).subperm.trans h.tabIds⟩

theorem splitActivePane (h : Keeps q w w') (kind : SplitKind) :
    Keeps q w (w'.splitActivePane kind) := by
  have hrestored : Keeps q w { w' with maximizedPaneId := none } :=
    ⟨⟨h.sound.halves, h.sound.refs, h.sound.below, h.sound.paneIds, h.sound.used⟩, h.tabIds⟩
  rw [Workspace.splitActivePane]
  split
  · exact hrestored
  · next leaf hactive => exact hrestored.splitLeaf (Workspace.activeLeaf_mem hactive) kind

theorem splitPaneFor (h : Sound w) (paneId : String) (kind : SplitKind) :
    Keeps q w (w.splitPaneFor paneId kind) := by
  rw [Workspace.splitPaneFor]
  split
  · exact refl h
  · next leaf _ =>
      split
      · split
        · exact ((refl h).focusLeaf w.root leaf.paneId).splitActivePane kind
        · -- a split turns, and no leaf is touched
          next parent _ _ =>
          have hturned : Sound { w with root := w.root.relabel fun split _ =>
              if split.ref = parent.ref then { split with kind } else split } :=
            h.relabel (fun split _ => by split <;> rfl) fun split _ _ htwo => by
              split <;> exact htwo
          have hkept : Keeps q w { w with
              root := w.root.relabel fun split _ =>
                if split.ref = parent.ref then { split with kind } else split
              maximizedPaneId := none } := by
            refine ⟨⟨hturned.halves, hturned.refs, hturned.below, hturned.paneIds,
              hturned.used⟩, ?_⟩
            rw [Panes.tabIds, paneLeaves, OrderedTree.leaves_relabel]
            exact .refl _
          exact hkept.focusLeaf _ leaf.paneId
      · exact ((refl h).focusLeaf w.root leaf.paneId).splitActivePane kind

theorem closeActivePane (h : Keeps q w w') (routeTab : Option String) :
    Keeps q w (w'.closeActivePane routeTab) := by
  refine ⟨?_, (tabIds_closeActivePane h.sound.toShaped routeTab).trans h.tabIds⟩
  rcases closeActivePane_cases h.sound.toShaped routeTab with
    heq | ⟨leaf, hmem, migration, hmigration, hne, kept, root, survivor, hkept, hshape, -, heq⟩
  · rw [heq]
    exact h.sound
  · rw [heq]
    have hmigrated : Sound ((w'.unmaximize leaf.paneId).modifyLeaf migration.paneId
        (Workspace.inherit leaf.tabs routeTab)) :=
      (h.sound.unmaximize leaf.paneId).modifyLeaf (inherit_paneId leaf.tabs routeTab)
    exact (hmigrated.cut hkept hshape).focusLeaf root survivor.paneId

section Client

variable {tabId : String} (hq : ∀ tabId, isClientTab tabId = true → q tabId = false)
  (hclient : isClientTab tabId = true)

include hq hclient

theorem filter_erase (tabs : List String) : (tabs.erase tabId).filter q = tabs.filter q := by
  rw [← List.erase_filter, List.erase_of_not_mem]
  intro hmem
  exact absurd (List.of_mem_filter hmem) (by rw [hq tabId hclient]; decide)

theorem filter_insertIdx (tabs : List String) (i : Nat) :
    (tabs.insertIdx i tabId).filter q = tabs.filter q := by
  induction i generalizing tabs with
  | zero => rw [List.insertIdx_zero, List.filter_cons_of_neg (by rw [hq tabId hclient]; decide)]
  | succ i ih =>
    cases tabs with
    | nil => rfl
    | cons a tabs => rw [List.insertIdx_succ_cons, List.filter_cons, List.filter_cons, ih tabs]

theorem carryTab (h : Keeps q w w') (source target : PaneLeaf) (index : Option Nat) :
    Keeps q w (Panes.carryTab tabId source target index w') := by
  refine focusLeaf (modifyLeaf (modifyLeaf (modifyLeaf h source.paneId ?_ ?_) target.paneId ?_ ?_)
    source.paneId ?_ ?_) w'.root target.paneId
  · exact fun _ => rfl
  · intro leaf
    rw [filter_erase hq hclient]
  · exact fun _ => rfl
  · intro leaf
    dsimp only
    split
    · exact .refl _
    · rw [insertTab, filter_insertIdx hq hclient]
  · exact fun _ => rfl
  · exact fun _ => .refl _

theorem insertTab (h : Keeps q w w') (paneId : String) (index : Option Nat) :
    Keeps q w (w'.modifyLeaf paneId fun leaf =>
      { leaf with tabs := Panes.insertTab (leaf.tabs.erase tabId) index tabId }) := by
  refine modifyLeaf h paneId ?_ ?_
  · exact fun _ => rfl
  · intro leaf
    rw [Panes.insertTab, filter_insertIdx hq hclient, filter_erase hq hclient]

omit hclient in
theorem movePaneTabTo (h : Sound w) (tabId : String) (targetPaneId : Option String)
    (index : Option Nat) : Keeps q w (Panes.movePaneTabTo tabId targetPaneId index w).1 := by
  rw [Panes.movePaneTabTo]
  split
  · exact refl h
  · next hnot =>
      have hclient : isClientTab tabId = true := by simpa using hnot
      split
      · exact refl h
      · next source _ =>
          dsimp only
          split
          · split
            · exact refl h
            · exact ((refl h).insertTab hq hclient source.paneId index).focusLeaf _ _
          · have hmoved := (refl h).carryTab hq hclient source
              (((orNull targetPaneId).bind (paneForPaneId w.root)).getD
                (otherLeaf (paneLeaves w.root) source)) index
            split
            · exact hmoved.collapseEmptyLeaf source.paneId
            · exact hmoved

omit hclient in
theorem moveActiveTabToNextPane (h : Sound w) : Keeps q w w.moveActiveTabToNextPane := by
  rw [Workspace.moveActiveTabToNextPane]
  dsimp only
  split
  · exact refl h
  · next leaf _ =>
      split
      · next tabId target _ _ =>
          split
          · exact refl h
          · next hmoves =>
              have hclient : isClientTab tabId = true := by
                rw [not_or] at hmoves
                simpa using hmoves.1
              have hmoved := (refl h).carryTab hq hclient leaf target none
              split
              · exact hmoved.collapseEmptyLeaf leaf.paneId
              · exact hmoved
      · exact refl h

theorem paneEnsureTab (h : Sound w) : Keeps q w (w.paneEnsureTab tabId) := by
  rw [Workspace.paneEnsureTab]
  split
  · next owner _ =>
      refine focusLeaf (modifyLeaf (refl h) owner.paneId ?_ ?_) _ _
      · exact fun _ => rfl
      · exact fun _ => .refl _
  · split
    · exact refl h
    · next leaf _ =>
        refine modifyLeaf (refl h) leaf.paneId ?_ ?_
        · exact fun _ => rfl
        · intro leaf
          rw [List.filter_append, List.filter_cons_of_neg (by rw [hq tabId hclient]; decide),
            List.filter_nil, List.append_nil]

theorem closeTabImmediate (h : Sound w) : Keeps q w (w.closeTabImmediate tabId) := by
  rw [Workspace.closeTabImmediate]
  split
  · exact refl h
  · next leaf _ =>
      refine collapseEmptyLeaf (modifyLeaf (refl h) leaf.paneId ?_ ?_) leaf.paneId
      · exact fun _ => rfl
      · intro leaf
        rw [show (Workspace.withoutClosed tabId leaf).tabs = leaf.tabs.erase tabId from rfl,
          filter_erase hq hclient]

end Client

theorem setActivePaneTab (h : Sound w) (tabId : String) : Keeps q w (w.setActivePaneTab tabId) := by
  have hseen : Keeps q w { w with sawExplicitActive := true } :=
    ⟨⟨h.halves, h.refs, h.below, h.paneIds, h.used⟩, .refl _⟩
  rw [Workspace.setActivePaneTab]
  split
  · exact refl h
  · split
    · exact refl h
    · next leaf _ =>
        refine focusLeaf (modifyLeaf hseen leaf.paneId ?_ ?_) _ _
        · exact fun _ => rfl
        · exact fun _ => .refl _

theorem collapseLeafForClosedTab (h : Sound w) (tabId : String) :
    Keeps q w (w.collapseLeafForClosedTab tabId) := by
  rw [Workspace.collapseLeafForClosedTab]
  split
  · exact refl h
  · split
    · exact refl h
    · next leaf _ =>
        have hclosed : Keeps q w (w.modifyLeaf leaf.paneId fun leaf =>
            { leaf with
              tabs := leaf.tabs.erase tabId
              active :=
                if leaf.active = some tabId then orNull (leaf.tabs.erase tabId).head?
                else leaf.active }) := by
          refine modifyLeaf (refl h) leaf.paneId ?_ ?_
          · exact fun _ => rfl
          · exact fun leaf => (List.erase_sublist).filter q
        dsimp only
        split
        · exact hclosed.collapseEmptyLeaf leaf.paneId
        · exact hclosed

end Keeps

theorem isClientTab_editorTabId (path : String) : isClientTab (editorTabId path) = true := by
  rw [isClientTab, isEditorTab, editorTabId, String.toList_append,
    List.isPrefixOf_iff_prefix.mpr (List.prefix_append _ _), Bool.true_or]

theorem isClientTab_gitTabId (viewKey : String) : isClientTab (gitTabId viewKey) = true := by
  rw [isClientTab, isGitTab, gitTabId, String.toList_append,
    List.isPrefixOf_iff_prefix.mpr (List.prefix_append _ _), Bool.or_true]

theorem LayoutCommand.keeps {q : String → Bool}
    (hq : ∀ tabId, isClientTab tabId = true → q tabId = false) {w : Workspace} (h : Sound w)
    (command : LayoutCommand) : Keeps q w (command.run w) := by
  cases command with
  | splitActivePane kind => exact (Keeps.refl h).splitActivePane kind
  | splitPaneFor paneId kind => exact .splitPaneFor h paneId kind
  | closeActivePane routeTab => exact (Keeps.refl h).closeActivePane routeTab
  | closePaneFor paneId routeTab =>
    rw [run, Workspace.closePaneFor]
    split
    · exact .refl h
    · split
      · exact .refl h
      · exact ((Keeps.refl h).focusLeaf w.root _).closeActivePane routeTab
  | movePaneTabTo tabId targetPaneId index => exact .movePaneTabTo hq h tabId targetPaneId index
  | moveActiveTabToNextPane => exact .moveActiveTabToNextPane hq h
  | maximizePaneFor paneId =>
    rw [run, Workspace.maximizePaneFor]
    split
    · exact .refl h
    · split
      · exact .refl h
      · exact ⟨⟨h.halves, h.refs, h.below, h.paneIds, h.used⟩, .refl _⟩
  | newTabForPane paneId =>
    rw [run, Workspace.newTabForPane]
    split
    · exact .refl h
    · exact ⟨⟨h.halves, h.refs, h.below, h.paneIds, h.used⟩, .refl _⟩
  | paneEnsureEditorTab path => exact .paneEnsureTab hq (isClientTab_editorTabId path) h
  | paneEnsureGitTab viewKey => exact .paneEnsureTab hq (isClientTab_gitTabId viewKey) h
  | closeEditorTabImmediate path => exact .closeTabImmediate hq (isClientTab_editorTabId path) h
  | closeGitTabImmediate viewKey => exact .closeTabImmediate hq (isClientTab_gitTabId viewKey) h
  | setActivePaneTab tabId => exact .setActivePaneTab h tabId
  | collapseLeafForClosedTab tabId => exact .collapseLeafForClosedTab h tabId

end HerdrWebui.Panes
