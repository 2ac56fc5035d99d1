import HerdrWebui.Builtin.Integrity

/-!
Coherence of the focus: the three focused ids name a workspace, one of its tabs
and one of that tab's panes, and are absent only where there is nothing to
focus. `normalize_focus` establishes it from a coherent registry whatever the
focus was, so the work is in the inserts, which do not normalize. One of them
acts on a focus decision made in an earlier critical section; the runs in which
that decision is never out of date keep the focus coherent.
-/

namespace HerdrWebui.Builtin

open Concurrency Table

structure FocusCoherent (d : BuiltinData) : Prop where
  workspace_isSome : d.focusedWorkspaceId.isSome ↔ ∃ w, w ∈ d.workspaces
  workspace_mem : ∀ w, d.focusedWorkspaceId = some w → w ∈ d.workspaces
  tab_listed : ∀ t, d.focusedTabId = some t →
    ∃ w workspace, d.focusedWorkspaceId = some w ∧
      d.workspaces.lookup w = some workspace ∧ t ∈ workspace.tabIds
  tab_none : d.focusedTabId = none →
    ∀ w workspace, d.focusedWorkspaceId = some w →
      d.workspaces.lookup w = some workspace → workspace.tabIds = []
  pane_listed : ∀ p, d.focusedPaneId = some p →
    ∃ t tab, d.focusedTabId = some t ∧ d.tabs.lookup t = some tab ∧
      p ∈ tab.paneIds
  pane_none : d.focusedPaneId = none →
    ∀ t tab, d.focusedTabId = some t → d.tabs.lookup t = some tab →
      tab.paneIds = []

namespace FocusCoherent

variable {d : BuiltinData}

theorem new : FocusCoherent .new where
  workspace_isSome := by simp [BuiltinData.new, Finmap.notMem_empty]
  workspace_mem w h := by cases h
  tab_listed t h := by cases h
  tab_none _ w workspace h := by cases h
  pane_listed p h := by cases h
  pane_none _ t tab h := by cases h

theorem not_of_unfocused {w : String} (hnone : d.focusedWorkspaceId = none)
    (hw : w ∈ d.workspaces) : ¬ FocusCoherent d := by
  intro h
  have hsome := h.workspace_isSome.mpr ⟨w, hw⟩
  rw [hnone] at hsome
  cases hsome

/-- Focus on a workspace, its head tab and that tab's head pane, or on as much
of it as exists. -/
theorem of_some {w : String} {workspace : WorkspaceRecord}
    (hfocus : d.focusedWorkspaceId = some w)
    (hw : d.workspaces.lookup w = some workspace)
    (htab : ∀ t, d.focusedTabId = some t → t ∈ workspace.tabIds)
    (htabNone : d.focusedTabId = none → workspace.tabIds = [])
    (hpane : ∀ p, d.focusedPaneId = some p →
      ∃ t tab, d.focusedTabId = some t ∧ d.tabs.lookup t = some tab ∧
        p ∈ tab.paneIds)
    (hpaneNone : d.focusedPaneId = none →
      ∀ t tab, d.focusedTabId = some t → d.tabs.lookup t = some tab →
        tab.paneIds = []) : FocusCoherent d where
  workspace_isSome :=
    ⟨fun _ => ⟨w, Finmap.mem_of_lookup_eq_some hw⟩, fun _ => by simp [hfocus]⟩
  workspace_mem v hv := by
    obtain rfl : w = v := Option.some.inj (hfocus.symm.trans hv)
    exact Finmap.mem_of_lookup_eq_some hw
  tab_listed t ht := ⟨w, workspace, hfocus, hw, htab t ht⟩
  tab_none ht v workspace' hv hw' := by
    obtain rfl : w = v := Option.some.inj (hfocus.symm.trans hv)
    obtain rfl : workspace = workspace' := Option.some.inj (hw.symm.trans hw')
    exact htabNone ht
  pane_listed := hpane
  pane_none := hpaneNone

theorem of_tab {w t p : String} {workspace : WorkspaceRecord} {tab : TabRecord}
    (hfocus : d.focusedWorkspaceId = some w) (hfocusTab : d.focusedTabId = some t)
    (hfocusPane : d.focusedPaneId = some p)
    (hw : d.workspaces.lookup w = some workspace) (ht : t ∈ workspace.tabIds)
    (htab : d.tabs.lookup t = some tab) (hp : p ∈ tab.paneIds) :
    FocusCoherent d := by
  refine of_some hfocus hw ?_ ?_ ?_ ?_
  · intro u hu
    exact Option.some.inj (hfocusTab.symm.trans hu) ▸ ht
  · intro hnone
    rw [hfocusTab] at hnone
    cases hnone
  · intro q hq
    exact ⟨t, tab, hfocusTab, htab, Option.some.inj (hfocusPane.symm.trans hq) ▸ hp⟩
  · intro hnone
    rw [hfocusPane] at hnone
    cases hnone

theorem of_keeps {d' : BuiltinData} (h : FocusCoherent d)
    (hfocus : d'.focusedWorkspaceId = d.focusedWorkspaceId)
    (hfocusTab : d'.focusedTabId = d.focusedTabId)
    (hfocusPane : d'.focusedPaneId = d.focusedPaneId)
    (hnone : d.focusedWorkspaceId = none → ∀ w, w ∉ d'.workspaces)
    (hworkspace : ∀ w workspace, d.focusedWorkspaceId = some w →
      d.workspaces.lookup w = some workspace →
      ∃ workspace', d'.workspaces.lookup w = some workspace' ∧
        workspace.tabIds ⊆ workspace'.tabIds ∧
        (d.focusedTabId = none → workspace'.tabIds = workspace.tabIds))
    (htab : ∀ t, d.focusedTabId = some t →
      (d'.tabs.lookup t).map (·.paneIds) = (d.tabs.lookup t).map (·.paneIds)) :
    FocusCoherent d' := by
  cases hw : d.focusedWorkspaceId with
  | none =>
    have htabNone : d.focusedTabId = none := by
      cases ht : d.focusedTabId with
      | none => rfl
      | some t =>
        obtain ⟨w, _, hw', _⟩ := h.tab_listed t ht
        simp [hw] at hw'
    have hpaneNone : d.focusedPaneId = none := by
      cases hp : d.focusedPaneId with
      | none => rfl
      | some p =>
        obtain ⟨t, _, ht, _⟩ := h.pane_listed p hp
        simp [htabNone] at ht
    have hempty := hnone hw
    constructor <;> simp_all
  | some w =>
    obtain ⟨workspace, hlookup⟩ := Finmap.mem_iff.mp (h.workspace_mem w hw)
    obtain ⟨workspace', hlookup', hsub, hsame⟩ := hworkspace w workspace hw hlookup
    refine of_some (hfocus.trans hw) hlookup' ?_ ?_ ?_ ?_
    · intro t ht
      obtain ⟨v, workspace₀, hv, hlookup₀, hmem⟩ :=
        h.tab_listed t (hfocusTab.symm.trans ht)
      obtain rfl : w = v := Option.some.inj (hw.symm.trans hv)
      obtain rfl : workspace = workspace₀ :=
        Option.some.inj (hlookup.symm.trans hlookup₀)
      exact hsub hmem
    · intro ht
      have ht' := hfocusTab.symm.trans ht
      rw [hsame ht', h.tab_none ht' w workspace hw hlookup]
    · intro p hp
      obtain ⟨t, tab, ht, hlookup₀, hmem⟩ :=
        h.pane_listed p (hfocusPane.symm.trans hp)
      have hsamePanes := htab t ht
      rw [hlookup₀, Option.map_some] at hsamePanes
      obtain ⟨tab', hlookup₁, hpanes⟩ := Option.map_eq_some_iff.mp hsamePanes
      exact ⟨t, tab', hfocusTab.trans ht, hlookup₁, hpanes ▸ hmem⟩
    · intro hp t tab' ht htab'
      have ht' := hfocusTab.symm.trans ht
      have hsamePanes := htab t ht'
      rw [htab', Option.map_some] at hsamePanes
      obtain ⟨tab, hlookup₁, hpanes⟩ := Option.map_eq_some_iff.mp hsamePanes.symm
      rw [← hpanes]
      exact h.pane_none (hfocusPane.symm.trans hp) t tab ht' hlookup₁

end FocusCoherent

section Settles

variable {d : BuiltinData}

theorem normalizedWorkspace_eq_none {order : IterationOrder}
    (h : normalizedWorkspace order d = none) (w : String) : w ∉ d.workspaces := by
  intro hw
  obtain ⟨workspace, hlookup⟩ := Finmap.mem_iff.mp hw
  rw [normalizedWorkspace, Option.orElse_eq_or, Option.or_eq_none_iff] at h
  have hvalues : workspaceValues order d.workspaces = [] := by
    simpa using h.2
  have hmem : workspace ∈ workspaceValues order d.workspaces :=
    mem_workspaceValues.mpr ⟨w, hlookup⟩
  rw [hvalues] at hmem
  cases hmem

theorem normalizedWorkspace_eq_some (h : Coherent d ∅ ∅) {order : IterationOrder}
    {w : String} (hw : normalizedWorkspace order d = some w) :
    ∃ workspace, d.workspaces.lookup w = some workspace := by
  rw [normalizedWorkspace, Option.orElse_eq_or, Option.or_eq_some_iff] at hw
  rcases hw with hkept | ⟨-, hfirst⟩
  · obtain ⟨v, _, hv⟩ := Option.bind_eq_some_iff.mp hkept
    obtain ⟨workspace, hlookup, rfl⟩ := Option.map_eq_some_iff.mp hv
    obtain rfl := h.workspace_key v workspace hlookup
    exact ⟨workspace, hlookup⟩
  · obtain ⟨workspace, hhead, rfl⟩ := Option.map_eq_some_iff.mp hfirst
    obtain ⟨v, hlookup⟩ := mem_workspaceValues.mp (List.mem_of_head? hhead)
    obtain rfl := h.workspace_key v workspace hlookup
    exact ⟨workspace, hlookup⟩

theorem normalizedTab_eq_some (h : Coherent d ∅ ∅) {w t : String}
    {workspace : WorkspaceRecord} (hw : d.workspaces.lookup w = some workspace)
    (ht : normalizedTab d w = some t) : t ∈ workspace.tabIds := by
  rw [normalizedTab, Option.orElse_eq_or, Option.or_eq_some_iff] at ht
  rcases ht with hkept | ⟨-, hfirst⟩
  · obtain ⟨_, hany⟩ := Option.filter_eq_some_iff.mp hkept
    obtain ⟨tab, htab, hhome⟩ := Option.any_eq_true _ _ |>.mp hany
    obtain ⟨workspace', hw', hmem⟩ := h.tab_listed t tab htab (by simp)
    rw [beq_iff_eq.mp hhome, hw, Option.some.injEq] at hw'
    exact hw' ▸ hmem
  · rw [hw, Option.bind_some] at hfirst
    exact List.mem_of_head? hfirst

theorem normalizedTab_eq_none {w : String} {workspace : WorkspaceRecord}
    (hw : d.workspaces.lookup w = some workspace)
    (ht : normalizedTab d w = none) : workspace.tabIds = [] := by
  rw [normalizedTab, Option.orElse_eq_or, Option.or_eq_none_iff] at ht
  rw [hw, Option.bind_some] at ht
  exact List.head?_eq_none_iff.mp ht.2

theorem normalizedPane_eq_some (h : Coherent d ∅ ∅) {t p : String}
    (hp : normalizedPane d (some t) = some p) :
    ∃ tab, d.tabs.lookup t = some tab ∧ p ∈ tab.paneIds := by
  rw [normalizedPane, Option.orElse_eq_or, Option.or_eq_some_iff] at hp
  rcases hp with hkept | ⟨-, hfirst⟩
  · obtain ⟨_, hany⟩ := Option.filter_eq_some_iff.mp hkept
    obtain ⟨pane, hpane, hhome⟩ := Option.any_eq_true _ _ |>.mp hany
    obtain ⟨tab, htab, hmem, _⟩ := h.pane_listed p pane hpane (by simp)
    obtain rfl : pane.tabId = t := beq_iff_eq.mp hhome
    exact ⟨tab, htab, hmem⟩
  · obtain ⟨tab, htab, hhead⟩ := Option.bind_eq_some_iff.mp hfirst
    exact ⟨tab, by simpa using htab, List.mem_of_head? hhead⟩

theorem normalizedPane_eq_none {t : String} {tab : TabRecord}
    (htab : d.tabs.lookup t = some tab) (hp : normalizedPane d (some t) = none) :
    tab.paneIds = [] := by
  rw [normalizedPane, Option.orElse_eq_or, Option.or_eq_none_iff] at hp
  rw [Option.bind_some, htab, Option.bind_some] at hp
  exact List.head?_eq_none_iff.mp hp.2

/-- With no tab the pane comparison is against the empty id, which no minted
tab has. -/
theorem normalizedPane_none (h : Coherent d ∅ ∅) (hminted : AllMinted d) :
    normalizedPane d none = none := by
  rw [normalizedPane, Option.orElse_eq_or, Option.or_eq_none_iff]
  refine ⟨Option.filter_eq_none_iff.mpr fun p _ hany => ?_, rfl⟩
  obtain ⟨pane, hpane, hhome⟩ := Option.any_eq_true _ _ |>.mp hany
  obtain ⟨tab, htab, _⟩ := h.pane_listed p pane hpane (by simp)
  rw [beq_iff_eq.mp hhome] at htab
  obtain ⟨n, _, _, hn⟩ := hminted .tab _ (Finmap.mem_of_lookup_eq_some htab)
  simpa [idText, IdKind.text] using congrArg String.toList hn

/-- `normalize_focus` makes the focus of a coherent registry coherent, whatever
it was before. -/
theorem normalizeFocus_focusCoherent (h : Coherent d ∅ ∅) (hminted : AllMinted d)
    (order : IterationOrder) : FocusCoherent (normalizeFocus order d) := by
  cases hnormal : normalizedWorkspace order d with
  | none =>
    have hempty := normalizedWorkspace_eq_none hnormal
    constructor <;> simp [normalizeFocus, hnormal, hempty]
  | some w =>
    obtain ⟨workspace, hw⟩ := normalizedWorkspace_eq_some h hnormal
    unfold normalizeFocus
    rw [hnormal]
    refine .of_some rfl hw ?_ ?_ ?_ ?_
    · exact fun t ht => normalizedTab_eq_some h hw ht
    · exact fun ht => normalizedTab_eq_none hw ht
    · intro p hp
      change normalizedPane d (normalizedTab d w) = some p at hp
      cases ht : normalizedTab d w with
      | none =>
        rw [ht, normalizedPane_none h hminted] at hp
        cases hp
      | some t =>
        rw [ht] at hp
        obtain ⟨tab, htab, hmem⟩ := normalizedPane_eq_some h hp
        exact ⟨t, tab, ht, htab, hmem⟩
    · intro hp t tab ht htab
      change normalizedPane d (normalizedTab d w) = none at hp
      change normalizedTab d w = some t at ht
      change d.tabs.lookup t = some tab at htab
      rw [ht] at hp
      exact normalizedPane_eq_none htab hp

theorem normalizeFocus_settles {order : IterationOrder}
    (h : Coherent (normalizeFocus order d) ∅ ∅)
    (hminted : AllMinted (normalizeFocus order d)) :
    FocusCoherent (normalizeFocus order d) := by
  refine normalizeFocus_focusCoherent (h.of_maps ?_ ?_ ?_ ?_) ?_ order <;> try simp
  intro kind id huse
  have huse' : (normalizeFocus order d).Uses kind id := by
    cases kind <;> simpa [BuiltinData.Uses] using huse
  simpa using hminted kind id huse'

end Settles

section Inserts

variable {d : BuiltinData} {ids : FreshIds}

theorem focused_tab_mem (h : Coherent d ∅ ∅) (hfocus : FocusCoherent d)
    {t : String} (ht : d.focusedTabId = some t) : t ∈ d.tabs := by
  obtain ⟨w, workspace, _, hw, hmem⟩ := hfocus.tab_listed t ht
  obtain ⟨tab, htab, _⟩ := h.listed_tab w workspace t hw hmem
  exact Finmap.mem_of_lookup_eq_some htab

theorem insertTab_focusCoherent (h : Coherent d ∅ ∅) (hfocus : FocusCoherent d)
    {w : String} (hw : d.focusedWorkspaceId = some w)
    (hfreshWorkspace : ids.workspaceId ∉ d.workspaces) (hfreshTab : ids.tabId ∉ d.tabs)
    (label : String) (cwd : Path) (tabLabel : String) (paneLabel : Option String)
    (argv : List String) :
    FocusCoherent (insertTerminalTab
      (insertWorkspace d ids.workspaceId label cwd [ids.tabId])
      ids cwd tabLabel paneLabel argv) := by
  refine hfocus.of_keeps rfl rfl rfl ?_ ?_ ?_
  · intro hnone
    rw [hw] at hnone
    cases hnone
  · intro v workspace hv hlookup
    have hne : v ≠ ids.workspaceId := fun heq =>
      hfreshWorkspace (heq ▸ Finmap.mem_of_lookup_eq_some hlookup)
    refine ⟨workspace, ?_, List.Subset.refl _, fun _ => rfl⟩
    simpa [insertTerminalTab, insertWorkspace, hne] using hlookup
  · intro t ht
    have hne : t ≠ ids.tabId := fun heq =>
      hfreshTab (heq ▸ focused_tab_mem h hfocus ht)
    simp [insertTerminalTab, insertWorkspace, hne]

theorem insertTab_setFocus_focusCoherent (label : String) (cwd : Path)
    (tabLabel : String) (paneLabel : Option String) (argv : List String) :
    FocusCoherent (setFocus (insertTerminalTab
      (insertWorkspace d ids.workspaceId label cwd [ids.tabId])
      ids cwd tabLabel paneLabel argv)
      (some ids.workspaceId) (some ids.tabId) (some ids.paneId)) :=
  .of_tab rfl rfl rfl (Finmap.lookup_insert _) (List.mem_singleton.mpr rfl)
    (Finmap.lookup_insert _) (List.mem_singleton.mpr rfl)

/-- With the focus decided when the ids were minted, the insert needs the
decision to be still right when there is no focus left to keep. -/
theorem createWorkspaceInsert_focusCoherent (h : Coherent d ∅ ∅)
    (hfocus : FocusCoherent d) {hasFocusTarget : Bool}
    (hdecided : hasFocusTarget = false → d.focusedWorkspaceId ≠ none)
    (hfreshWorkspace : ids.workspaceId ∉ d.workspaces)
    (hfreshTab : ids.tabId ∉ d.tabs) (shell : String) (cwd : Path) (label : String) :
    FocusCoherent
      (createWorkspaceInsert shell d ids cwd label hasFocusTarget) := by
  cases hasFocusTarget with
  | true => exact insertTab_setFocus_focusCoherent label cwd "Shell" none [shell]
  | false =>
    obtain ⟨w, hw⟩ := Option.ne_none_iff_exists'.mp (hdecided rfl)
    exact insertTab_focusCoherent h hfocus hw hfreshWorkspace hfreshTab label cwd
      "Shell" none [shell]

theorem createWorkspaceInsertEmpty_focusCoherent (hfocus : FocusCoherent d)
    {w : String} (hfresh : w ∉ d.workspaces) (cwd : Path) (label : String)
    (focus : Bool) :
    FocusCoherent (createWorkspaceInsertEmpty d w cwd label focus) := by
  unfold createWorkspaceInsertEmpty
  simp only
  split
  · exact .of_some rfl (Finmap.lookup_insert _) (fun t ht => by cases ht)
      (fun _ => rfl) (fun p hp => by cases hp) (fun _ t tab ht => by cases ht)
  · next hkept =>
      have hsome : d.focusedWorkspaceId ≠ none := by
        intro hnone
        simp [insertWorkspace, hnone] at hkept
      refine hfocus.of_keeps rfl rfl rfl (fun hnone => absurd hnone hsome) ?_
        fun t _ => rfl
      intro v workspace _ hlookup
      have hne : v ≠ w := fun heq =>
        hfresh (heq ▸ Finmap.mem_of_lookup_eq_some hlookup)
      exact ⟨workspace, by simpa [insertWorkspace, hne] using hlookup,
        List.Subset.refl _, fun _ => rfl⟩

theorem createTabInsert_focusCoherent (h : Coherent d ∅ ∅)
    (hfocus : FocusCoherent d) (hfresh : ids.tabId ∉ d.tabs) {shell : String}
    {cwd : Path} {label : Option String} {focus : Bool} {d' : BuiltinData}
    (hinsert : createTabInsert shell d ids cwd label focus = .ok d') :
    FocusCoherent d' := by
  unfold createTabInsert at hinsert
  split at hinsert
  · cases hinsert
  · next workspace hw =>
      obtain rfl := Except.ok.inj hinsert
      split
      · exact .of_tab rfl rfl rfl (lookup_modify_eq_some.mpr ⟨workspace, hw, rfl⟩)
          (by simp) (Finmap.lookup_insert _) (List.mem_singleton.mpr rfl)
      · next hkept =>
          simp only [Bool.or_eq_true, not_or, Option.isNone_iff_eq_none] at hkept
          obtain ⟨⟨⟨_, hsome⟩, htabSome⟩, _⟩ := hkept
          refine hfocus.of_keeps rfl rfl rfl (fun hnone => absurd hnone hsome) ?_ ?_
          · intro v workspace' _ hlookup
            refine ⟨_, lookup_modify_eq_some.mpr ⟨workspace', hlookup, rfl⟩, ?_,
              fun hnone => absurd hnone htabSome⟩
            split
            · exact List.subset_append_left _ _
            · exact List.Subset.refl _
          · intro t ht
            have hne : t ≠ ids.tabId := fun heq =>
              hfresh (heq ▸ focused_tab_mem h hfocus ht)
            simp [insertTerminalTab, hne]

theorem modifyWorkspace_focusCoherent (hfocus : FocusCoherent d) (w : String)
    {f : WorkspaceRecord → WorkspaceRecord} (hf : ∀ r, (f r).tabIds = r.tabIds) :
    FocusCoherent { d with workspaces := Table.modify d.workspaces w f } := by
  refine hfocus.of_keeps rfl rfl rfl ?_ ?_ fun t _ => rfl
  · intro hnone v hv
    exact FocusCoherent.not_of_unfocused hnone (mem_modify.mp hv) hfocus
  · intro v workspace _ hlookup
    have hsame : (if v = w then f workspace else workspace).tabIds =
        workspace.tabIds := by
      split
      · exact hf workspace
      · rfl
    exact ⟨_, lookup_modify_eq_some.mpr ⟨workspace, hlookup, rfl⟩,
      hsame ▸ List.Subset.refl _, fun _ => hsame⟩

theorem modifyTab_focusCoherent (hfocus : FocusCoherent d) (t : String)
    {f : TabRecord → TabRecord} (hf : ∀ r, (f r).paneIds = r.paneIds) :
    FocusCoherent { d with tabs := Table.modify d.tabs t f } := by
  refine hfocus.of_keeps rfl rfl rfl ?_
    (fun v workspace _ hlookup => ⟨workspace, hlookup, List.Subset.refl _, fun _ => rfl⟩) ?_
  · intro hnone v hv
    exact FocusCoherent.not_of_unfocused hnone hv hfocus
  · intro u _
    rw [lookup_modify, Option.map_map]
    congr 1
    funext tab
    rw [Function.comp_apply]
    split
    · exact hf tab
    · rfl

theorem setFocus_first_focusCoherent {w : String}
    (hw : w ∈ d.workspaces) :
    FocusCoherent (setFocus d (some w)
      ((d.workspaces.lookup w).bind (·.tabIds.head?))
      ((((d.workspaces.lookup w).bind (·.tabIds.head?)).bind
        fun id => d.tabs.lookup id).bind (·.paneIds.head?))) := by
  obtain ⟨workspace, hlookup⟩ := Finmap.mem_iff.mp hw
  rw [hlookup, Option.bind_some]
  refine .of_some rfl hlookup ?_ ?_ ?_ ?_
  · exact fun t ht => List.mem_of_head? ht
  · exact fun ht => List.head?_eq_none_iff.mp ht
  · intro p hp
    obtain ⟨tab, htab, hhead⟩ := Option.bind_eq_some_iff.mp hp
    obtain ⟨t, ht, hlookup'⟩ := Option.bind_eq_some_iff.mp htab
    exact ⟨t, tab, ht, hlookup', List.mem_of_head? hhead⟩
  · intro hp t tab ht htab
    change workspace.tabIds.head? = some t at ht
    change d.tabs.lookup t = some tab at htab
    change (workspace.tabIds.head?.bind fun id => d.tabs.lookup id).bind
      (·.paneIds.head?) = none at hp
    rw [ht, Option.bind_some, htab, Option.bind_some] at hp
    exact List.head?_eq_none_iff.mp hp

theorem worktreeOpenExisting_focusCoherent {w : String} (hw : w ∈ d.workspaces)
    (label : Option String) : FocusCoherent (worktreeOpenExisting d w label) := by
  cases label with
  | none => exact setFocus_first_focusCoherent hw
  | some label => exact setFocus_first_focusCoherent (mem_modify.mpr hw)

end Inserts

section CriticalSections

variable {d d' : BuiltinData} {phase phase' : Phase}

/-- The critical section inserts a workspace on a decision not to take the
focus that was made while there was a focus, and now there is none. -/
def staleFocus (d : BuiltinData) : Phase → Action → Bool
  | .createWorkspaceInsert _ _ _ _ true false, .proceed env =>
    env.spawn.isOk && d.focusedWorkspaceId.isNone
  | _, _ => false

theorem answer_focusCoherent (hfocus : FocusCoherent d)
    {result : Except String BuiltinData}
    (hok : ∀ d', result = .ok d' → FocusCoherent d') :
    FocusCoherent (answer d result).1 := by
  cases result with
  | error message => exact hfocus
  | ok d' => exact hok d' rfl

theorem mintAll_focusCoherent (hfocus : FocusCoherent d) :
    FocusCoherent (mintAll d).2 :=
  ⟨hfocus.1, hfocus.2, hfocus.3, hfocus.4, hfocus.5, hfocus.6⟩

theorem closeWorkspace_focusCoherent (h : Coherent d ∅ ∅) (hminted : AllMinted d)
    {order : IterationOrder} {w : String}
    (hclose : closeWorkspace order d w = .ok d') : FocusCoherent d' := by
  obtain ⟨hcoherent, hshrinks⟩ := closeWorkspace_keeps h hclose
  unfold closeWorkspace at hclose
  split at hclose
  · cases hclose
  · obtain rfl := Except.ok.inj hclose
    exact normalizeFocus_settles hcoherent (hshrinks.allMinted hminted)

theorem closeTab_focusCoherent (h : Coherent d ∅ ∅) (hminted : AllMinted d)
    {order : IterationOrder} {t : String}
    (hclose : closeTab order d t = .ok d') : FocusCoherent d' := by
  obtain ⟨hcoherent, hshrinks⟩ := closeTab_keeps h hclose
  unfold closeTab at hclose
  split at hclose
  · cases hclose
  · obtain rfl := Except.ok.inj hclose
    exact normalizeFocus_settles hcoherent (hshrinks.allMinted hminted)

theorem closePane_focusCoherent (h : Coherent d ∅ ∅) (hminted : AllMinted d)
    {order : IterationOrder} {p : String}
    (hclose : closePane order d p = .ok d') : FocusCoherent d' := by
  obtain ⟨hcoherent, hshrinks⟩ := closePane_keeps h hclose
  unfold closePane at hclose
  split at hclose
  · cases hclose
  · obtain rfl := Except.ok.inj hclose
    exact normalizeFocus_settles hcoherent (hshrinks.allMinted hminted)

theorem promoteTabCommit_focusCoherent (h : Coherent d' ∅ ∅)
    (hminted : AllMinted d') {env : Environment} {t p : String} {live : Path}
    {reply : Reply} (hcommit : promoteTabCommit env d t p live = .ok (d', reply)) :
    FocusCoherent d' := by
  unfold promoteTabCommit at hcommit
  split at hcommit
  · cases hcommit
  · simp only at hcommit
    split at hcommit
    · cases hcommit
    · obtain rfl := (Prod.mk.inj (Except.ok.inj hcommit)).1
      exact normalizeFocus_settles h hminted

theorem renameWorkspace_focusCoherent (hfocus : FocusCoherent d) {w label : String}
    (hrename : renameWorkspace d w label = .ok d') : FocusCoherent d' := by
  unfold renameWorkspace at hrename
  split at hrename
  · cases hrename
  · obtain rfl := Except.ok.inj hrename
    exact modifyWorkspace_focusCoherent hfocus w fun _ => rfl

theorem renameTab_focusCoherent (hfocus : FocusCoherent d) {t label : String}
    (hrename : renameTab d t label = .ok d') : FocusCoherent d' := by
  unfold renameTab at hrename
  split at hrename
  · cases hrename
  · obtain rfl := Except.ok.inj hrename
    exact modifyTab_focusCoherent hfocus t fun _ => rfl

theorem receive_focusCoherent (h : Coherent d ∅ ∅) (hminted : AllMinted d)
    (hfocus : FocusCoherent d) (env : Environment) (request : Request) :
    FocusCoherent (receive env d request).1 := by
  cases request with
  | workspaceCreate cwd label openTerminal => exact hfocus
  | workspaceRename w label =>
    exact answer_focusCoherent hfocus fun _ hok =>
      renameWorkspace_focusCoherent hfocus hok
  | workspaceClose w =>
    exact answer_focusCoherent hfocus fun _ hok =>
      closeWorkspace_focusCoherent h hminted hok
  | tabCreate w label focus =>
    simp only [receive]
    split
    · exact hfocus
    · split <;> exact hfocus
  | tabRename t label =>
    exact answer_focusCoherent hfocus fun _ hok =>
      renameTab_focusCoherent hfocus hok
  | tabClose t =>
    exact answer_focusCoherent hfocus fun _ hok =>
      closeTab_focusCoherent h hminted hok
  | tabPromote t =>
    simp only [receive]
    split
    · exact hfocus
    · split
      · exact hfocus
      · split <;> exact hfocus
  | paneClose p =>
    exact answer_focusCoherent hfocus fun _ hok =>
      closePane_focusCoherent h hminted hok
  | agentStart name argv cwd => exact mintAll_focusCoherent hfocus
  | worktreeOpen path cwd label openTerminal =>
    simp only [receive]
    split
    · exact hfocus
    · split
      · next existing hhead =>
          have hvalue := List.mem_of_mem_filter (List.mem_of_head? hhead)
          obtain ⟨w, hw⟩ := mem_workspaceValues.mp hvalue
          obtain rfl := h.workspace_key w existing hw
          exact worktreeOpenExisting_focusCoherent
            (Finmap.mem_of_lookup_eq_some hw) label
      · exact hfocus
  | worktreeRemove w path repoRoot cwd =>
    simp only [receive]
    split
    · exact hfocus
    · split
      · exact hfocus
      · split <;> exact hfocus

theorem proceed_focusCoherent (h : Coherent d ∅ ∅) (hminted : AllMinted d)
    (hunused : ReservedUnused d phase) (hfocus : FocusCoherent d)
    {shell : String} {env : Environment} (hok : staleFocus d phase (.proceed env) = false)
    (hstep : proceed shell env d phase = some (d', phase')) :
    FocusCoherent d' := by
  obtain ⟨hcoherent', haccounts⟩ := proceed_keeps h hminted hunused hstep
  have hminted' := haccounts.allMinted hminted hunused
  cases proceed_cases hstep with
  | received => exact receive_focusCoherent h hminted hfocus env _
  | fails | replies | probes | scans => exact hfocus
  | mintsWorkspace => exact mintAll_focusCoherent hfocus
  | @insertsTerminal ids cwd label focus hasFocusTarget hspawn =>
    have hfresh := fun kind => (hunused kind _ rfl).2
    refine createWorkspaceInsert_focusCoherent h hfocus ?_ (hfresh .workspace)
      (hfresh .tab) shell cwd label
    rintro rfl hnone
    simp [staleFocus, hspawn, hnone, Except.isOk, Except.toBool] at hok
  | insertsEmpty =>
    have hfresh := fun kind => (hunused kind _ rfl).2
    exact createWorkspaceInsertEmpty_focusCoherent hfocus (hfresh .workspace) _ _ _
  | mintsTab => exact ⟨hfocus.1, hfocus.2, hfocus.3, hfocus.4, hfocus.5, hfocus.6⟩
  | insertsTab hinsert =>
    exact createTabInsert_focusCoherent h hfocus (hunused .tab _ rfl).2 hinsert
  | @insertsAgent ids name argv cwd =>
    exact insertTab_setFocus_focusCoherent name cwd name (some name) argv
  | commits hcommit => exact promoteTabCommit_focusCoherent hcoherent' hminted' hcommit
  | removes => exact normalizeFocus_settles hcoherent' hminted'

theorem requestStep_focusCoherent (h : Coherent d ∅ ∅) (hminted : AllMinted d)
    (hunused : ReservedUnused d phase) (hfocus : FocusCoherent d)
    {shell : String} {a : Action} (hok : staleFocus d phase a = false)
    (hstep : requestStep shell a d phase = some (d', phase')) :
    FocusCoherent d' := by
  cases a with
  | submit request =>
    rcases requestStep_cases hstep with ⟨_, _, rfl, _⟩ | ⟨env, ha, _⟩
    · exact hfocus
    · cases ha
  | proceed env => exact proceed_focusCoherent h hminted hunused hfocus hok hstep

/-- The condition is exact: an insert on a stale decision leaves a workspace
and no focus. -/
theorem staleFocus_breaks {shell : String} {a : Action}
    (hstale : staleFocus d phase a = true)
    (hstep : requestStep shell a d phase = some (d', phase')) :
    ¬ FocusCoherent d' := by
  unfold staleFocus at hstale
  split at hstale
  · next ids cwd label focus env =>
      obtain ⟨hspawn, hnone⟩ := Bool.and_eq_true_iff.mp hstale
      cases hresult : env.spawn with
      | error message =>
        simp [hresult, Except.isOk, Except.toBool] at hspawn
      | ok _ =>
        simp only [requestStep, proceed, hresult, if_true] at hstep
        obtain rfl := (Prod.mk.inj (Option.some.inj hstep)).1
        exact FocusCoherent.not_of_unfocused (w := ids.workspaceId)
          (Option.isNone_iff_eq_none.mp hnone) (Finmap.mem_insert.mpr (.inl rfl))
  · cases hstale

end CriticalSections

/-- Every insert of a workspace with a terminal still finds the focus it
decided to leave alone. -/
def FocusStillThere (c : Pool BuiltinData Phase) (act : Nat × Action) : Prop :=
  staleFocus c.shared (c.threads act.1) act.2 = false

instance (c : Pool BuiltinData Phase) (act : Nat × Action) :
    Decidable (FocusStillThere c act) :=
  inferInstanceAs (Decidable (_ = false))

theorem backend_focusCoherent (shell : String) (c : Pool BuiltinData Phase)
    (h : (backend shell).system.ReachVia FocusStillThere c) :
    FocusCoherent c.shared := by
  refine Program.shared_of_reachVia ?_ ?_ h
  · rintro _ rfl
    exact .new
  · intro c i a d' phase' hreach hfocus hok hstep
    have hc := backend_holds hreach.reachable
    exact requestStep_focusCoherent hc.shared.1 hc.shared.2 (hc.thread i) hfocus
      hok hstep

/-- The workspace of thread 0 has the focus when thread 1 mints the ids of its
own; it is closed before thread 1 inserts. -/
def closeWhileSpawning : List (Nat × Action) :=
  [(0, .submit (.workspaceCreate (some "/a") none none)),
    (0, .proceed plainEnvironment),
    (0, .proceed plainEnvironment),
    (0, .proceed plainEnvironment),
    (0, .proceed plainEnvironment),
    (1, .submit (.workspaceCreate (some "/b") none none)),
    (1, .proceed plainEnvironment),
    (1, .proceed plainEnvironment),
    (0, .submit (.workspaceClose "ws_1")),
    (0, .proceed plainEnvironment),
    (1, .proceed plainEnvironment)]

theorem closeWhileSpawning_unfocused :
    ∃ c, (backend "sh").system.Reachable c ∧
      c.shared.workspaces.keys = {"ws_5"} ∧ c.shared.focusedWorkspaceId = none ∧
      ¬ FocusCoherent c.shared := by
  have hrun : ((backend "sh").system.run ((backend "sh").start .new)
      closeWhileSpawning).isSome := by decide +kernel
  refine ⟨_, System.reachable_get (Program.system_init _ rfl) hrun,
    by decide +kernel +revert, by decide +kernel +revert, ?_⟩
  exact FocusCoherent.not_of_unfocused (w := "ws_5") (by decide +kernel +revert)
    (by decide +kernel +revert)

/-- Without the late insert the same requests leave the focus coherent. -/
theorem closeBeforeInsert_focusCoherent :
    ∃ c, (backend "sh").system.runVia FocusStillThere ((backend "sh").start .new)
        (closeWhileSpawning.take 10) = some c ∧ FocusCoherent c.shared := by
  have hrun : ((backend "sh").system.runVia FocusStillThere
      ((backend "sh").start .new) (closeWhileSpawning.take 10)).isSome := by
    decide +kernel
  refine ⟨_, (Option.some_get hrun).symm, ?_⟩
  exact backend_focusCoherent "sh" _
    (System.reachVia_get (Program.system_init _ rfl) hrun)

end HerdrWebui.Builtin
