import HerdrWebui.Panes.Layout

/-!
Empty leaves that are collapsed one after the other. The loop goes on with the root that it began
with. Where a half of that root goes, the other half is the root of the entry, and the loop still
finds the leaves below it through the old root: it can no longer take out what is right below the
new root.
-/

namespace HerdrWebui.Panes

def collapseLeaves (ids : List String) (h : Held) : Held :=
  ids.foldl (fun h paneId => (collapseEmptyLeafInTree h paneId).getD h) h

def isGone (ids : List String) (leaf : PaneLeaf) : Bool := ids.contains leaf.paneId

/-- The workspace has another root, and perhaps other pointers. -/
def Workspace.Turns (w w' : Workspace) (root : PaneNode) : Prop :=
  ∃ maximizedPaneId activePaneIds, w' = { w with root, maximizedPaneId, activePaneIds }

namespace Workspace.Turns

variable {w w' w'' : Workspace} {root root' : PaneNode}

theorem root_eq (h : w.Turns w' root) : w'.root = root := by
  obtain ⟨_, _, rfl⟩ := h
  rfl

theorem trans (h : w.Turns w' root) (h' : w'.Turns w'' root') : w.Turns w'' root' := by
  obtain ⟨_, _, rfl⟩ := h
  obtain ⟨maximizedPaneId, activePaneIds, rfl⟩ := h'
  exact ⟨maximizedPaneId, activePaneIds, rfl⟩

end Workspace.Turns

/-- A tree of splits in two. -/
structure Halved (root : PaneNode) : Prop extends Shaped root where
  halves : root.Everywhere fun _ n => n = 2

namespace Halved

variable {root kept : PaneNode} {p : PaneLeaf → Bool}

theorem without (h : Halved root) (hkept : root.without p = some kept) : Halved kept where
  branching := OrderedTree.everywhere_without _ (fun _ _ _ _ htwo _ => htwo) h.branching hkept
  refs := h.refs.sublist ((OrderedTree.sublist_labels_without _ hkept).map _)
  paneIds := by
    rw [paneLeaves, OrderedTree.leaves_of_without _ hkept]
    exact h.paneIds.sublist (List.filter_sublist.map _)
  halves := OrderedTree.everywhere_without _ (fun _ _ _ hn htwo hle => by omega) h.halves hkept

theorem second {split : PaneSplit} {first second : PaneNode}
    (h : Halved (.node split [first, second])) : Halved second where
  branching := h.branching.of_mem (by simp)
  refs := by
    refine h.refs.sublist (List.Sublist.map _ ?_)
    simp [OrderedTree.labels_node]
  paneIds := by
    refine h.paneIds.sublist (List.Sublist.map _ ?_)
    simp [paneLeaves, OrderedTree.leaves_node]
  halves := by
    cases h.halves with
    | node _ hchildren => exact hchildren second (by simp)

end Halved

section Steps

variable {w : Workspace} {split : PaneSplit} {first second first' second' : PaneNode}
  {leaf : PaneLeaf}

theorem without_pair {p : PaneLeaf → Bool} (hfirst : first.without p = some first')
    (hsecond : second.without p = some second') :
    (OrderedTree.node split [first, second]).without p = some (.node split [first', second']) :=
  OrderedTree.without_node_of_two_le p (by simp [hfirst, hsecond]) le_rfl

theorem leaf_without (leaf : PaneLeaf) :
    (OrderedTree.leaf leaf : PaneNode).without (hasPaneId leaf.paneId) = none :=
  (OrderedTree.without_eq_none_iff _).mpr fun other hother => by
    rw [List.mem_singleton.mp hother]
    exact decide_eq_true rfl

theorem not_child {front back : List PaneNode} {above : PaneSplit}
    (hfirst : first.without (hasPaneId leaf.paneId) = some first')
    (hsecond : second.without (hasPaneId leaf.paneId) = some second') :
    OrderedTree.node split [first, second] ≠ .node above (front ++ .leaf leaf :: back) := by
  intro heq
  have hmem : OrderedTree.leaf leaf ∈ [first, second] := by
    rw [(OrderedTree.node.inj heq).2]
    simp
  rcases List.mem_cons.mp hmem with rfl | hmem
  · rw [leaf_without] at hfirst
    cases hfirst
  · rw [← List.mem_singleton.mp hmem, leaf_without] at hsecond
    cases hsecond

theorem exists_sibling {root : PaneNode} {front back : List PaneNode} {above : PaneSplit}
    {paneId : String} (h : Halved root)
    (hholds : OrderedTree.Holds (hasPaneId paneId) root above front leaf back) :
    ∃ sibling, front ++ back = [sibling] := by
  have hlength := hholds.everywhere h.halves
  rw [← List.length_eq_one_iff]
  simp only [List.length_append, List.length_cons] at hlength ⊢
  omega

theorem two_le_paneLeaves (h : Halved (.node split [first, second])) :
    2 ≤ (paneLeaves (.node split [first, second])).length := by
  have hfirst : first.leaves ≠ [] := (h.branching.of_mem (by simp)).leaves_ne_nil
  have hsecond : second.leaves ≠ [] := (h.branching.of_mem (by simp)).leaves_ne_nil
  rw [← List.length_pos_iff] at hfirst hsecond
  rw [paneLeaves, OrderedTree.leaves_node]
  simp only [List.flatMap_cons, List.flatMap_nil, List.length_append, List.append_nil]
  omega

theorem collapse_inside (hroot : w.root = .node split [first, second]) (h : Halved w.root)
    (hmem : leaf ∈ paneLeaves w.root) (hempty : leaf.tabs = [])
    (hfirst : first.without (hasPaneId leaf.paneId) = some first')
    (hsecond : second.without (hasPaneId leaf.paneId) = some second') :
    ∃ w', w.Turns w' (.node split [first', second']) ∧
      collapseEmptyLeafInTree ⟨w, none⟩ leaf.paneId = some ⟨w', none⟩ := by
  have htwo : 2 ≤ (paneLeaves w.root).length := by
    rw [hroot]
    exact two_le_paneLeaves (hroot ▸ h)
  obtain ⟨above, front, back, hholds⟩ := exists_holds_of_two_le hmem htwo
  obtain ⟨sibling, hsibling⟩ := exists_sibling h hholds
  rcases Held.cutLeaf_of_sibling (w := w.unmaximize leaf.paneId) h.toShaped hholds hsibling with
    ⟨hchild, -⟩ | ⟨kept, hkept, hcut⟩
  · exact absurd (hroot ▸ hchild) (not_child hfirst hsecond)
  · rw [Workspace.unmaximize_root, hroot, without_pair hfirst hsecond] at hkept
    obtain rfl := Option.some.inj hkept
    obtain ⟨survivor, -, hcollapse⟩ := collapse_of_cut (h := ⟨w, none⟩)
      (h.toShaped.paneForPaneId_eq hmem) hempty htwo
      (hholds.slot_eq (h.toShaped.countP_le_one leaf.paneId)) hcut
      (h.without (hroot ▸ without_pair hfirst hsecond)).branching.leaves_ne_nil
    exact ⟨_, ⟨_, _, rfl⟩, hcollapse⟩

theorem collapse_half (front back : List PaneNode) {sibling : PaneNode}
    (hroot : w.root = .node split (front ++ .leaf leaf :: back)) (h : Halved w.root)
    (hempty : leaf.tabs = []) (hsibling : front ++ back = [sibling]) :
    ∃ w', w.Turns w' sibling ∧
      collapseEmptyLeafInTree ⟨w, none⟩ leaf.paneId = some ⟨w', some w.root⟩ := by
  have hholds : OrderedTree.Holds (hasPaneId leaf.paneId) w.root split front leaf back := by
    rw [hroot]
    exact .here split front back (decide_eq_true rfl)
  have hsub : sibling ∈ front ++ .leaf leaf :: back := by
    have : sibling ∈ front ++ back := by rw [hsibling]; exact List.mem_singleton_self _
    simp only [List.mem_append, List.mem_cons] at this ⊢
    tauto
  have hrest : paneLeaves sibling ≠ [] :=
    ((hroot ▸ h.branching : OrderedTree.Branching (.node split _)).of_mem hsub).leaves_ne_nil
  have htwo : 2 ≤ (paneLeaves w.root).length := by
    obtain ⟨other, hother⟩ := List.exists_mem_of_ne_nil _ hrest
    have hbeside := hholds.sibling_leaves (h.toShaped.countP_le_one leaf.paneId) sibling
      (by rw [hsibling]; exact List.mem_singleton_self _) other hother
    refine two_le_of_ne hbeside.1 hholds.mem_leaves ?_
    rintro rfl
    exact absurd hholds.isTrue (by rw [hbeside.2]; decide)
  obtain ⟨survivor, -, hcollapse⟩ := collapse_of_cut (h := ⟨w, none⟩)
    (h.toShaped.paneForPaneId_eq hholds.mem_leaves) hempty htwo
    (hholds.slot_eq (h.toShaped.countP_le_one leaf.paneId))
    (Held.cutLeaf_root (w := w.unmaximize leaf.paneId) hroot hsibling) hrest
  exact ⟨_, ⟨_, _, rfl⟩, hcollapse⟩

theorem dead_without {old : PaneSplit} {dead : PaneLeaf} {root : PaneNode}
    (h : Halved (.node old [.leaf dead, root])) (hmem : leaf ∈ paneLeaves root) :
    (OrderedTree.leaf dead : PaneNode).without (hasPaneId leaf.paneId) = some (.leaf dead) := by
  refine OrderedTree.without_eq_self _ (.leaf dead) fun other hother => ?_
  obtain rfl := List.mem_singleton.mp hother
  have hids := h.paneIds
  rw [paneLeaves, OrderedTree.leaves_node, List.flatMap_cons, List.flatMap_singleton,
    OrderedTree.leaves_leaf, List.singleton_append, List.map_cons, List.nodup_cons] at hids
  exact decide_eq_false fun heq => hids.1 (heq ▸ List.mem_map_of_mem hmem)

/-- A leaf goes from a half of the new root that has others, found through the old root. -/
theorem collapse_behind {old : PaneSplit} {dead : PaneLeaf}
    (hroot : w.root = .node split [first, second])
    (h : Halved (.node old [.leaf dead, w.root])) (hmem : leaf ∈ paneLeaves w.root)
    (hempty : leaf.tabs = []) (hfirst : first.without (hasPaneId leaf.paneId) = some first')
    (hsecond : second.without (hasPaneId leaf.paneId) = some second') :
    ∃ w', w.Turns w' (.node split [first', second']) ∧
      collapseEmptyLeafInTree ⟨w, some (.node old [.leaf dead, w.root])⟩ leaf.paneId =
        some ⟨w', some (.node old [.leaf dead, .node split [first', second']])⟩ := by
  have hinner : Halved w.root := h.second
  have hkept : w.root.without (hasPaneId leaf.paneId) = some (.node split [first', second']) := by
    rw [hroot]
    exact without_pair hfirst hsecond
  have hdead := dead_without h hmem
  obtain ⟨above, front, back, hholds⟩ := exists_holds_of_two_le hmem
    (by rw [hroot]; exact two_le_paneLeaves (hroot ▸ hinner))
  obtain ⟨sibling, hsibling⟩ := exists_sibling hinner hholds
  have hthere : OrderedTree.Holds (hasPaneId leaf.paneId) (.node old [.leaf dead, w.root]) above
      front leaf back := .there old [.leaf dead] [] hholds
  have hone := h.toShaped.countP_le_one leaf.paneId
  -- the split above the leaf's is found below the new root, from both roots
  rcases hholds.without_of_sibling hinner.branching (hinner.toShaped.countP_le_one leaf.paneId)
    hinner.refs hsibling with ⟨hchild, -⟩ | ⟨hbelow, parent, children, j, hslot, hedit⟩
  · exact absurd (hroot ▸ hchild) (not_child hfirst hsecond)
  rcases hthere.without_of_sibling h.branching hone h.refs hsibling with
    ⟨hchild, -⟩ | ⟨hbelow', parent', children', j', hslot', hedit'⟩
  · exact absurd hchild (not_child hdead hkept)
  have hplace : OrderedTree.slot (OrderedTree.isNode PaneSplit.ref above.ref)
      (.node old ([.leaf dead] ++ w.root :: [])) = some (parent, children, j) :=
    OrderedTree.slot_there
      (fun other hother => by rw [List.mem_singleton.mp hother]; exact ⟨rfl, rfl⟩) hbelow hslot
  have hplaces := hplace.symm.trans hslot'
  simp only [Option.some.injEq, Prod.mk.injEq] at hplaces
  obtain ⟨rfl, rfl, rfl⟩ := hplaces
  rw [hkept] at hedit
  rw [without_pair hdead hkept] at hedit'
  have hcut : Held.cutLeaf ⟨w.unmaximize leaf.paneId, some (.node old [.leaf dead, w.root])⟩ above
      (front ++ .leaf leaf :: back) front.length =
        some ⟨{ w.unmaximize leaf.paneId with root := .node split [first', second'] },
          some (.node old [.leaf dead, .node split [first', second']])⟩ := by
    have htop : ¬isRootSplit (.node old [.leaf dead, w.root]) above.ref = true :=
      Bool.eq_false_iff.mp hbelow'
    rw [Held.cutLeaf_of_singleton _ above hsibling]
    refine (if_neg htop).trans ?_
    rw [show findSplitSlot (Held.root ⟨w.unmaximize leaf.paneId,
      some (.node old [.leaf dead, w.root])⟩) above.ref = _ from hslot']
    exact congrArg some (congrArg₂
      (fun root captured => (⟨{ w.unmaximize leaf.paneId with root }, captured⟩ : Held))
      (Option.some.inj hedit) hedit')
  obtain ⟨survivor, -, hcollapse⟩ := collapse_of_cut
    (h := ⟨w, some (.node old [.leaf dead, w.root])⟩)
    (h.toShaped.paneForPaneId_eq hthere.mem_leaves) hempty (two_le_paneLeaves h)
    (hthere.slot_eq hone) hcut (hinner.without hkept).branching.leaves_ne_nil
  exact ⟨_, ⟨_, _, rfl⟩, hcollapse⟩

end Steps

/-- The ids of empty leaves of a tree, each once. -/
structure AreEmpty (ids : List String) (root : PaneNode) : Prop where
  nodup : ids.Nodup
  empty : ∀ paneId ∈ ids, ∃ leaf ∈ paneLeaves root, leaf.paneId = paneId ∧ leaf.tabs = []

theorem AreEmpty.tail {paneId : String} {ids : List String} {root kept : PaneNode}
    (h : AreEmpty (paneId :: ids) root) (hkept : root.without (hasPaneId paneId) = some kept) :
    AreEmpty ids kept where
  nodup := (List.nodup_cons.mp h.nodup).2
  empty := by
    intro other hother
    obtain ⟨leaf, hleaf, rfl, hempty⟩ := h.empty other (List.mem_cons_of_mem paneId hother)
    refine ⟨leaf, ?_, rfl, hempty⟩
    rw [paneLeaves_of_without hkept]
    refine List.mem_filter.mpr ⟨hleaf, decide_eq_true fun heq => ?_⟩
    exact (List.nodup_cons.mp h.nodup).1 (heq ▸ hother)

theorem without_isGone_cons {paneId : String} {ids : List String} {root root' : PaneNode}
    (h : root.without (isGone (paneId :: ids)) = some root') :
    ∃ kept, root.without (hasPaneId paneId) = some kept ∧
      kept.without (isGone ids) = some root' := by
  have hgone : isGone (paneId :: ids) = fun leaf => hasPaneId paneId leaf || isGone ids leaf := by
    funext leaf
    rw [isGone, List.contains_cons, isGone, hasPaneId, beq_eq_decide]
  rw [hgone, ← OrderedTree.without_without] at h
  exact Option.bind_eq_some_iff.mp h

theorem without_isGone_nil {root : PaneNode} (h : root.Branching) :
    root.without (isGone []) = some root :=
  OrderedTree.without_eq_self _ h fun _ _ => rfl

section Runs

variable {w : Workspace} {split : PaneSplit} {first second first' second' : PaneNode}
  {ids : List String}

theorem turns_self (hroot : w.root = .node split [first, second]) (h : w.root.Branching)
    (hfirst : first.without (isGone []) = some first')
    (hsecond : second.without (isGone []) = some second') :
    w.Turns w (.node split [first', second']) := by
  rw [hroot] at h
  rw [without_isGone_nil (h.of_mem (by simp))] at hfirst hsecond
  obtain rfl := Option.some.inj hfirst
  obtain rfl := Option.some.inj hsecond
  exact ⟨w.maximizedPaneId, w.activePaneIds, by rw [← hroot]⟩

theorem collapseLeaves_inside (hroot : w.root = .node split [first, second]) (h : Halved w.root)
    (hids : AreEmpty ids w.root) (hfirst : first.without (isGone ids) = some first')
    (hsecond : second.without (isGone ids) = some second') :
    ∃ w', w.Turns w' (.node split [first', second']) ∧
      collapseLeaves ids ⟨w, none⟩ = ⟨w', none⟩ := by
  induction ids generalizing w first second with
  | nil => exact ⟨w, turns_self hroot h.branching hfirst hsecond, rfl⟩
  | cons paneId ids ih =>
    obtain ⟨leaf, hmem, rfl, hempty⟩ := hids.empty paneId List.mem_cons_self
    obtain ⟨nextFirst, hnextFirst, hfirst⟩ := without_isGone_cons hfirst
    obtain ⟨nextSecond, hnextSecond, hsecond⟩ := without_isGone_cons hsecond
    obtain ⟨next, hturns, hcollapse⟩ :=
      collapse_inside hroot h hmem hempty hnextFirst hnextSecond
    have hkept : w.root.without (hasPaneId leaf.paneId) = some next.root := by
      rw [hturns.root_eq, hroot]
      exact without_pair hnextFirst hnextSecond
    obtain ⟨w', hturns', hrun⟩ := ih hturns.root_eq (h.without hkept) (hids.tail hkept) hfirst
      hsecond
    refine ⟨w', hturns.trans hturns', ?_⟩
    rw [collapseLeaves, List.foldl_cons, hcollapse]
    exact hrun

theorem collapseLeaves_behind {old : PaneSplit} {dead : PaneLeaf}
    (hroot : w.root = .node split [first, second]) (h : Halved (.node old [.leaf dead, w.root]))
    (hids : AreEmpty ids w.root) (hfirst : first.without (isGone ids) = some first')
    (hsecond : second.without (isGone ids) = some second') :
    ∃ w', w.Turns w' (.node split [first', second']) ∧
      collapseLeaves ids ⟨w, some (.node old [.leaf dead, w.root])⟩ =
        ⟨w', some (.node old [.leaf dead, w'.root])⟩ := by
  induction ids generalizing w first second with
  | nil => exact ⟨w, turns_self hroot h.second.branching hfirst hsecond, rfl⟩
  | cons paneId ids ih =>
    obtain ⟨leaf, hmem, rfl, hempty⟩ := hids.empty paneId List.mem_cons_self
    obtain ⟨nextFirst, hnextFirst, hfirst⟩ := without_isGone_cons hfirst
    obtain ⟨nextSecond, hnextSecond, hsecond⟩ := without_isGone_cons hsecond
    obtain ⟨next, hturns, hcollapse⟩ :=
      collapse_behind hroot h hmem hempty hnextFirst hnextSecond
    have hkept : w.root.without (hasPaneId leaf.paneId) = some next.root := by
      rw [hturns.root_eq, hroot]
      exact without_pair hnextFirst hnextSecond
    rw [← hturns.root_eq] at hcollapse
    obtain ⟨w', hturns', hrun⟩ := ih hturns.root_eq
      (h.without (without_pair (dead_without h hmem) hkept)) (hids.tail hkept) hfirst hsecond
    refine ⟨w', hturns.trans hturns', ?_⟩
    rw [collapseLeaves, List.foldl_cons, hcollapse]
    exact hrun

end Runs

/-- The first half of the root goes, and a half of the second with it. -/
def losesHalf (p : PaneLeaf → Bool) : PaneNode → Bool
  | .node _ [first, .node _ halves] =>
    (paneLeaves first).all p && halves.any fun half => (paneLeaves half).all p
  | _ => false

theorem collapseLeaves_append (ids ids' : List String) (h : Held) :
    collapseLeaves (ids ++ ids') h = collapseLeaves ids' (collapseLeaves ids h) :=
  List.foldl_append

section All

variable {w : Workspace} {root : PaneNode} {l : List PaneLeaf} {p : PaneLeaf → Bool}

theorem isGone_map (h : Shaped root) (hl : l ⊆ paneLeaves root) {leaf : PaneLeaf}
    (hleaf : leaf ∈ paneLeaves root) : isGone (l.map PaneLeaf.paneId) leaf = decide (leaf ∈ l) := by
  rw [isGone, Bool.eq_iff_iff, List.contains_iff_mem, List.mem_map, decide_eq_true_iff]
  constructor
  · rintro ⟨other, hother, heq⟩
    rwa [← h.eq_of_paneId (hl hother) hleaf heq]
  · exact fun hmem => ⟨leaf, hmem, rfl⟩

theorem areEmpty_map (h : Shaped root) (hl : l.Sublist (paneLeaves root))
    (hempty : ∀ leaf ∈ l, leaf.tabs = []) : AreEmpty (l.map PaneLeaf.paneId) root where
  nodup := h.paneIds.sublist (hl.map _)
  empty := by
    intro paneId hid
    obtain ⟨leaf, hleaf, rfl⟩ := List.mem_map.mp hid
    exact ⟨leaf, hl.subset hleaf, rfl, hempty leaf hleaf⟩

theorem without_isGone_map (h : Shaped root) (hl : l ⊆ paneLeaves root) {part : PaneNode}
    (hpart : paneLeaves part ⊆ paneLeaves root)
    (hp : ∀ leaf ∈ paneLeaves part, p leaf = true ↔ leaf ∈ l) :
    part.without (isGone (l.map PaneLeaf.paneId)) = part.without p :=
  OrderedTree.without_congr fun leaf hleaf => by
    rw [isGone_map h hl (hpart hleaf), Bool.eq_iff_iff, decide_eq_true_iff]
    exact (hp leaf hleaf).symm

theorem without_init (h : root.Branching) (hnodup : (paneLeaves root).Nodup) {init : List PaneLeaf}
    {last : PaneLeaf} (hlast : paneLeaves root = init ++ [last])
    (hp : ∀ leaf ∈ paneLeaves root, p leaf = true ↔ leaf ∈ init) :
    root.without p = some (.leaf last) := by
  rw [hlast, List.nodup_append] at hnodup
  have hout : last ∉ init := fun hmem => hnodup.2.2 last hmem last (List.mem_singleton_self _) rfl
  have hleft : (paneLeaves root).filter (fun leaf => !p leaf) = [last] := by
    have hgone : init.filter (fun leaf => !p leaf) = [] := by
      refine List.filter_eq_nil_iff.mpr fun leaf hleaf => ?_
      rw [(hp leaf (by rw [hlast]; exact List.mem_append_left _ hleaf)).mpr hleaf]
      decide
    have hstays : p last = false := by
      rw [← Bool.not_eq_true, hp last (by rw [hlast]; simp)]
      exact hout
    rw [hlast, List.filter_append, hgone, List.nil_append,
      List.filter_cons_of_pos (by simp [hstays]), List.filter_nil]
  cases hkept : root.without p with
  | none =>
    have hall := (OrderedTree.without_eq_none_iff p).mp hkept
    rw [List.filter_eq_nil_iff.mpr fun leaf hleaf => by rw [hall leaf hleaf]; decide] at hleft
    cases hleft
  | some kept =>
    have hbranching : kept.Branching :=
      OrderedTree.everywhere_without _ (fun _ _ _ _ htwo _ => htwo) h hkept
    rw [hbranching.eq_leaf ((OrderedTree.leaves_of_without _ hkept).trans hleft)]

theorem exists_without {part : PaneNode} (h : ∃ leaf ∈ paneLeaves part, p leaf = false) :
    ∃ kept, part.without p = some kept := by
  obtain ⟨leaf, hleaf, hfalse⟩ := h
  cases hkept : part.without p with
  | none =>
    have hall := (OrderedTree.without_eq_none_iff p).mp hkept leaf hleaf
    rw [hfalse] at hall
    cases hall
  | some kept => exact ⟨kept, rfl⟩

theorem paneLeaves_pair (split : PaneSplit) (first second : PaneNode) :
    paneLeaves (.node split [first, second]) = paneLeaves first ++ paneLeaves second := by
  rw [paneLeaves, OrderedTree.leaves_node, List.flatMap_cons, List.flatMap_singleton]
  rfl

/-- The new root's leaves go, through the old root, while each half has others. -/
theorem collapseLeaves_rest {old : PaneSplit} {dead : PaneLeaf}
    (h : Halved (.node old [.leaf dead, w.root]))
    (hempty : ∀ leaf ∈ paneLeaves w.root, p leaf = true → leaf.tabs = [])
    (hrest : ∃ leaf ∈ paneLeaves w.root, p leaf = false)
    (hok : ∀ split halves, w.root = .node split halves → ∀ half ∈ halves,
      ∃ leaf ∈ paneLeaves half, p leaf = false) :
    ∃ w' kept, w.root.without p = some kept ∧ w.Turns w' kept ∧
      collapseLeaves (((paneLeaves w.root).filter p).map PaneLeaf.paneId)
        ⟨w, some (.node old [.leaf dead, w.root])⟩ =
          ⟨w', some (.node old [.leaf dead, w'.root])⟩ := by
  cases hroot : w.root with
  | leaf a =>
    rw [hroot, paneLeaves, OrderedTree.leaves_leaf] at hrest
    obtain ⟨leaf, hleaf, hfalse⟩ := hrest
    obtain rfl := List.mem_singleton.mp hleaf
    refine ⟨w, .leaf leaf, OrderedTree.without_eq_self _ (.leaf leaf) ?_,
      ⟨w.maximizedPaneId, w.activePaneIds, by rw [← hroot]⟩, ?_⟩
    · exact fun other hother => by rw [List.mem_singleton.mp hother, hfalse]
    · rw [paneLeaves, OrderedTree.leaves_leaf, List.filter_cons_of_neg (by simp [hfalse]), hroot]
      rfl
  | node split halves =>
    have hinner := h.second
    obtain ⟨first, second, rfl⟩ : ∃ first second, halves = [first, second] := by
      have hhalves := hinner.halves
      rw [hroot] at hhalves
      cases hhalves with
      | node htwo _ => exact List.length_eq_two.mp htwo
    have hleaves : paneLeaves w.root = paneLeaves first ++ paneLeaves second := by
      rw [hroot, paneLeaves_pair]
    obtain ⟨first', hfirst⟩ := exists_without (hok split _ hroot first (by simp))
    obtain ⟨second', hsecond⟩ := exists_without (hok split _ hroot second (by simp))
    have hgone : ∀ part : PaneNode, paneLeaves part ⊆ paneLeaves w.root →
        part.without (isGone (((paneLeaves w.root).filter p).map PaneLeaf.paneId)) =
          part.without p := fun part hpart =>
      without_isGone_map hinner.toShaped (List.filter_subset_self _) hpart fun leaf hleaf => by
        rw [List.mem_filter, and_iff_right (hpart hleaf)]
    obtain ⟨w', hturns, hrun⟩ := collapseLeaves_behind hroot h
      (areEmpty_map hinner.toShaped List.filter_sublist fun leaf hleaf =>
        hempty leaf (List.mem_of_mem_filter hleaf) (List.of_mem_filter hleaf))
      ((hgone first (by rw [hleaves]; exact List.subset_append_left _ _)).trans hfirst)
      ((hgone second (by rw [hleaves]; exact List.subset_append_right _ _)).trans hsecond)
    rw [hroot] at hrun
    exact ⟨w', _, without_pair hfirst hsecond, hturns, hrun⟩

theorem collapseLeaves_first {split : PaneSplit} {first second : PaneNode}
    (hroot : w.root = .node split [first, second]) (h : Halved w.root)
    (hempty : ∀ leaf ∈ paneLeaves w.root, p leaf = true → leaf.tabs = [])
    (hgoes : ∀ leaf ∈ paneLeaves first, p leaf = true)
    (hrest : ∃ leaf ∈ paneLeaves second, p leaf = false) (hok : losesHalf p w.root = false) :
    ∃ w' kept captured, second.without p = some kept ∧ w.Turns w' kept ∧
      collapseLeaves (((paneLeaves w.root).filter p).map PaneLeaf.paneId) ⟨w, none⟩ =
        ⟨w', some captured⟩ ∧
      ∀ leaf ∈ paneLeaves kept, leaf ∈ paneLeaves captured := by
  have hleaves : paneLeaves w.root = paneLeaves first ++ paneLeaves second := by
    rw [hroot, paneLeaves_pair]
  have hnodup : (paneLeaves first ++ paneLeaves second).Nodup := hleaves ▸ h.paneIds.of_map
  have hbranching : first.Branching ∧ second.Branching := by
    have hall := h.branching
    rw [hroot] at hall
    exact ⟨hall.of_mem (by simp), hall.of_mem (by simp)⟩
  obtain ⟨init, dead, hlast⟩ : ∃ init dead, paneLeaves first = init ++ [dead] :=
    (List.eq_nil_or_concat' _).resolve_left hbranching.1.leaves_ne_nil
  have hinit : init.Sublist (paneLeaves w.root) := by
    rw [hleaves, hlast, List.append_assoc]
    exact List.sublist_append_left _ _
  have hids : ((paneLeaves w.root).filter p).map PaneLeaf.paneId =
      init.map PaneLeaf.paneId ++ ([dead.paneId] ++
        ((paneLeaves second).filter p).map PaneLeaf.paneId) := by
    rw [hleaves, List.filter_append, List.filter_eq_self.mpr hgoes, hlast]
    simp
  -- all leaves of the first half but the last
  have hfirst : first.without (isGone (init.map PaneLeaf.paneId)) = some (.leaf dead) :=
    without_init hbranching.1 (List.nodup_append.mp hnodup).1 hlast fun leaf hleaf => by
      rw [isGone_map h.toShaped hinit.subset (by rw [hleaves]; exact List.mem_append_left _ hleaf),
        decide_eq_true_iff]
  have hsecond : second.without (isGone (init.map PaneLeaf.paneId)) = some second :=
    OrderedTree.without_eq_self _ hbranching.2 fun leaf hleaf => by
      rw [isGone_map h.toShaped hinit.subset (by rw [hleaves]; exact List.mem_append_right _ hleaf),
        decide_eq_false_iff_not]
      intro hmem
      exact (List.nodup_append.mp hnodup).2.2 leaf
        (by rw [hlast]; exact List.mem_append_left _ hmem) leaf hleaf rfl
  obtain ⟨w₁, hturns₁, hrun₁⟩ := collapseLeaves_inside hroot h
    (areEmpty_map h.toShaped hinit fun leaf hleaf => hempty leaf (hinit.subset hleaf)
      (hgoes leaf (by rw [hlast]; exact List.mem_append_left _ hleaf))) hfirst hsecond
  -- the last
  have hhalved₁ : Halved w₁.root := by
    rw [hturns₁.root_eq]
    exact h.without (by rw [hroot]; exact without_pair hfirst hsecond)
  have hdead : dead ∈ paneLeaves first := by rw [hlast]; simp
  obtain ⟨w₂, hturns₂, hcollapse⟩ := collapse_half [] [second]
    hturns₁.root_eq hhalved₁
    (hempty dead (by rw [hleaves]; exact List.mem_append_left _ hdead) (hgoes dead hdead)) rfl
  -- those of the second half
  rw [hids, collapseLeaves_append, hrun₁, collapseLeaves_append,
    show collapseLeaves [dead.paneId] ⟨w₁, none⟩ = ⟨w₂, some w₁.root⟩ by
      rw [collapseLeaves, List.foldl_cons, hcollapse]; rfl]
  have hin : ∀ leaf ∈ paneLeaves w₂.root, leaf ∈ paneLeaves w.root := by
    rw [hturns₂.root_eq, hleaves]
    exact fun leaf hleaf => List.mem_append_right _ hleaf
  have hhalved₂ : Halved (.node split [.leaf dead, w₂.root]) := by
    rw [hturns₂.root_eq, ← hturns₁.root_eq]
    exact hhalved₁
  obtain ⟨w₃, kept, hkept, hturns₃, hrun₃⟩ := collapseLeaves_rest (p := p) hhalved₂
    (fun leaf hleaf => hempty leaf (hin leaf hleaf)) (by rwa [hturns₂.root_eq])
    (by
      rw [hturns₂.root_eq]
      rintro inner halves rfl half hhalf
      rw [hroot, losesHalf, List.all_eq_true.mpr hgoes, Bool.true_and, List.any_eq_false] at hok
      simpa using hok half hhalf)
  rw [hturns₁.root_eq, ← hturns₂.root_eq, hrun₃]
  refine ⟨w₃, kept, _, hkept, hturns₁.trans (hturns₂.trans hturns₃), rfl, fun leaf hleaf => ?_⟩
  rw [paneLeaves_pair, hturns₃.root_eq]
  exact List.mem_append_right _ hleaf

theorem collapseLeaves_second {split : PaneSplit} {first second : PaneNode}
    (hroot : w.root = .node split [first, second]) (h : Halved w.root)
    (hempty : ∀ leaf ∈ paneLeaves w.root, p leaf = true → leaf.tabs = [])
    (hgoes : ∀ leaf ∈ paneLeaves second, p leaf = true)
    (hrest : ∃ leaf ∈ paneLeaves first, p leaf = false) :
    ∃ w' kept captured, first.without p = some kept ∧ w.Turns w' kept ∧
      collapseLeaves (((paneLeaves w.root).filter p).map PaneLeaf.paneId) ⟨w, none⟩ =
        ⟨w', some captured⟩ ∧
      ∀ leaf ∈ paneLeaves kept, leaf ∈ paneLeaves captured := by
  have hleaves : paneLeaves w.root = paneLeaves first ++ paneLeaves second := by
    rw [hroot, paneLeaves_pair]
  have hnodup : (paneLeaves first ++ paneLeaves second).Nodup := hleaves ▸ h.paneIds.of_map
  have hbranching : second.Branching := by
    have hall := h.branching
    rw [hroot] at hall
    exact hall.of_mem (by simp)
  obtain ⟨init, dead, hlast⟩ : ∃ init dead, paneLeaves second = init ++ [dead] :=
    (List.eq_nil_or_concat' _).resolve_left hbranching.leaves_ne_nil
  have hgone : ((paneLeaves first).filter p ++ init).Sublist (paneLeaves w.root) := by
    rw [hleaves, hlast]
    exact List.filter_sublist.append (List.sublist_append_left _ _)
  have hids : ((paneLeaves w.root).filter p).map PaneLeaf.paneId =
      ((paneLeaves first).filter p ++ init).map PaneLeaf.paneId ++ [dead.paneId] := by
    rw [hleaves, List.filter_append, List.filter_eq_self.mpr hgoes, hlast]
    simp
  have hdisjoint : ∀ leaf ∈ paneLeaves first, leaf ∉ paneLeaves second := fun leaf hleaf hmem =>
    (List.nodup_append.mp hnodup).2.2 leaf hleaf leaf hmem rfl
  -- all leaves that go but the last
  obtain ⟨first', hkept⟩ := exists_without hrest
  have hfirst : first.without
      (isGone (((paneLeaves first).filter p ++ init).map PaneLeaf.paneId)) = some first' := by
    rw [without_isGone_map h.toShaped hgone.subset
      (by rw [hleaves]; exact List.subset_append_left _ _) fun leaf hleaf => ?_, hkept]
    rw [List.mem_append, List.mem_filter, and_iff_right hleaf, or_iff_left]
    exact fun hmem => hdisjoint leaf hleaf (by rw [hlast]; exact List.mem_append_left _ hmem)
  have hsecond : second.without
      (isGone (((paneLeaves first).filter p ++ init).map PaneLeaf.paneId)) = some (.leaf dead) :=
    without_init hbranching (List.nodup_append.mp hnodup).2.1 hlast fun leaf hleaf => by
      rw [isGone_map h.toShaped hgone.subset (by rw [hleaves]; exact List.mem_append_right _ hleaf),
        decide_eq_true_iff, List.mem_append, or_iff_right]
      exact fun hmem => hdisjoint leaf (List.mem_of_mem_filter hmem) hleaf
  obtain ⟨w₁, hturns₁, hrun₁⟩ := collapseLeaves_inside hroot h
    (areEmpty_map h.toShaped hgone fun leaf hleaf => hempty leaf (hgone.subset hleaf) (by
      rcases List.mem_append.mp hleaf with hleaf | hleaf
      · exact List.of_mem_filter hleaf
      · exact hgoes leaf (by rw [hlast]; exact List.mem_append_left _ hleaf))) hfirst hsecond
  -- the last
  have hhalved₁ : Halved w₁.root := by
    rw [hturns₁.root_eq]
    exact h.without (by rw [hroot]; exact without_pair hfirst hsecond)
  have hdead : dead ∈ paneLeaves second := by rw [hlast]; simp
  obtain ⟨w₂, hturns₂, hcollapse⟩ := collapse_half [first'] [] hturns₁.root_eq hhalved₁
    (hempty dead (by rw [hleaves]; exact List.mem_append_right _ hdead) (hgoes dead hdead)) rfl
  refine ⟨w₂, first', w₁.root, hkept, hturns₁.trans hturns₂, ?_, fun leaf hleaf => ?_⟩
  · rw [hids, collapseLeaves_append, hrun₁, collapseLeaves, List.foldl_cons, hcollapse]
    rfl
  · rw [hturns₁.root_eq, paneLeaves_pair]
    exact List.mem_append_left _ hleaf

/-- The leaves with the property are taken out, and the old root still has what is left. -/
theorem collapseLeaves_spec (h : Halved w.root)
    (hempty : ∀ leaf ∈ paneLeaves w.root, p leaf = true → leaf.tabs = [])
    (hrest : ∃ leaf ∈ paneLeaves w.root, p leaf = false) (hok : losesHalf p w.root = false) :
    ∃ w' kept captured, w.root.without p = some kept ∧ w.Turns w' kept ∧
      collapseLeaves (((paneLeaves w.root).filter p).map PaneLeaf.paneId) ⟨w, none⟩ =
        ⟨w', captured⟩ ∧
      ∀ leaf ∈ paneLeaves kept, leaf ∈ paneLeaves (captured.getD kept) := by
  cases hroot : w.root with
  | leaf a =>
    obtain ⟨leaf, hleaf, hfalse⟩ := hrest
    rw [hroot, paneLeaves, OrderedTree.leaves_leaf, List.mem_singleton] at hleaf
    obtain rfl := hleaf
    refine ⟨w, .leaf leaf, none, OrderedTree.without_eq_self _ (.leaf leaf) ?_,
      ⟨w.maximizedPaneId, w.activePaneIds, by rw [← hroot]⟩, ?_, fun _ => id⟩
    · exact fun other hother => by rw [List.mem_singleton.mp hother, hfalse]
    · rw [paneLeaves, OrderedTree.leaves_leaf, List.filter_cons_of_neg (by simp [hfalse])]
      rfl
  | node split children =>
    obtain ⟨first, second, rfl⟩ : ∃ first second, children = [first, second] := by
      have hhalves := h.halves
      rw [hroot] at hhalves
      cases hhalves with
      | node htwo _ => exact List.length_eq_two.mp htwo
    have hleaves : paneLeaves w.root = paneLeaves first ++ paneLeaves second := by
      rw [hroot, paneLeaves_pair]
    have hall : ∀ part : PaneNode, ¬(∃ leaf ∈ paneLeaves part, p leaf = false) →
        ∀ leaf ∈ paneLeaves part, p leaf = true := fun part hnone leaf hleaf => by
      by_contra hfalse
      exact hnone ⟨leaf, hleaf, Bool.not_eq_true _ ▸ hfalse⟩
    rw [← hroot]
    by_cases hfirst : ∃ leaf ∈ paneLeaves first, p leaf = false
    · obtain ⟨first', hfirst'⟩ := exists_without hfirst
      by_cases hsecond : ∃ leaf ∈ paneLeaves second, p leaf = false
      · -- a leaf of each half stays
        obtain ⟨second', hsecond'⟩ := exists_without hsecond
        have hgone : ∀ part : PaneNode, paneLeaves part ⊆ paneLeaves w.root →
            part.without (isGone (((paneLeaves w.root).filter p).map PaneLeaf.paneId)) =
              part.without p := fun part hpart =>
          without_isGone_map h.toShaped (List.filter_subset_self _) hpart fun leaf hleaf => by
            rw [List.mem_filter, and_iff_right (hpart hleaf)]
        obtain ⟨w', hturns, hrun⟩ := collapseLeaves_inside hroot h
          (areEmpty_map h.toShaped List.filter_sublist fun leaf hleaf =>
            hempty leaf (List.mem_of_mem_filter hleaf) (List.of_mem_filter hleaf))
          ((hgone first (by rw [hleaves]; exact List.subset_append_left _ _)).trans hfirst')
          ((hgone second (by rw [hleaves]; exact List.subset_append_right _ _)).trans hsecond')
        refine ⟨w', _, none, ?_, hturns, hrun, fun _ => id⟩
        rw [hroot]
        exact without_pair hfirst' hsecond'
      · have hgoes := hall second hsecond
        obtain ⟨w', kept, captured, hkept, hturns, hrun, hin⟩ :=
          collapseLeaves_second hroot h hempty hgoes hfirst
        refine ⟨w', kept, some captured, ?_, hturns, hrun, hin⟩
        have hnone : second.without p = none := (OrderedTree.without_eq_none_iff p).mpr hgoes
        rw [hroot, OrderedTree.without_node, List.filterMap_cons_some hkept,
          List.filterMap_cons_none hnone, List.filterMap_nil]
    · have hgoes := hall first hfirst
      have hrest' : ∃ leaf ∈ paneLeaves second, p leaf = false := by
        obtain ⟨leaf, hleaf, hfalse⟩ := hrest
        rw [hleaves] at hleaf
        refine ⟨leaf, (List.mem_append.mp hleaf).resolve_left fun hmem => ?_, hfalse⟩
        exact hfirst ⟨leaf, hmem, hfalse⟩
      obtain ⟨w', kept, captured, hkept, hturns, hrun, hin⟩ :=
        collapseLeaves_first hroot h hempty hgoes hrest' hok
      refine ⟨w', kept, some captured, ?_, hturns, hrun, hin⟩
      have hnone : first.without p = none := (OrderedTree.without_eq_none_iff p).mpr hgoes
      rw [hroot, OrderedTree.without_node, List.filterMap_cons_none hnone,
        List.filterMap_cons_some hkept, List.filterMap_nil]

end All

end HerdrWebui.Panes
