import HerdrWebui.Builtin.Requests

/-!
Coherence of the registry: the links between its four maps. A close cascade
takes a row out first and the rows below it one by one, so in the middle some
tabs have lost their workspace and some panes their tab. `Coherent d T P` allows
exactly for that: the tabs in `T` and the panes in `P` are still to be closed.
Each helper that runs under the lock gets one lemma, and the cascades follow by
induction on the lists they walk.
-/

namespace HerdrWebui.Builtin

open Table

/-- The links between the four maps, except that the tabs in `T` may have lost
their workspace and the panes in `P` their tab. -/
structure Coherent (d : BuiltinData) (T P : Set String) : Prop where
  workspace_key : ∀ w r, d.workspaces.lookup w = some r → r.workspaceId = w
  tab_key : ∀ t r, d.tabs.lookup t = some r → r.tabId = t
  pane_key : ∀ p r, d.panes.lookup p = some r → r.paneId = p
  tabs_nodup : ∀ w r, d.workspaces.lookup w = some r → r.tabIds.Nodup
  panes_nodup : ∀ t r, d.tabs.lookup t = some r → r.paneIds.Nodup
  tab_listed : ∀ t r, d.tabs.lookup t = some r → t ∉ T →
    ∃ w, d.workspaces.lookup r.workspaceId = some w ∧ t ∈ w.tabIds
  listed_tab : ∀ w r t, d.workspaces.lookup w = some r → t ∈ r.tabIds →
    ∃ tab, d.tabs.lookup t = some tab ∧ tab.workspaceId = w
  pane_listed : ∀ p r, d.panes.lookup p = some r → p ∉ P →
    ∃ tab, d.tabs.lookup r.tabId = some tab ∧ p ∈ tab.paneIds ∧
      r.workspaceId = tab.workspaceId
  listed_pane : ∀ t r p, d.tabs.lookup t = some r → p ∈ r.paneIds →
    ∃ pane, d.panes.lookup p = some pane ∧ pane.tabId = t
  pane_terminal : ∀ p r, d.panes.lookup p = some r →
    ∃ terminal, d.terminals.lookup r.terminalId = some terminal
  terminal_pane : ∀ x terminal, d.terminals.lookup x = some terminal →
    ∃ p r, d.panes.lookup p = some r ∧ r.terminalId = x
  terminal_unique : ∀ p q r r', d.panes.lookup p = some r →
    d.panes.lookup q = some r' → r.terminalId = r'.terminalId → p = q
  orphan_tab : ∀ t r, t ∈ T → d.tabs.lookup t = some r →
    d.workspaces.lookup r.workspaceId = none
  orphan_pane : ∀ p r, p ∈ P → d.panes.lookup p = some r →
    d.tabs.lookup r.tabId = none

namespace Coherent

variable {d d' : BuiltinData} {T P : Set String}

theorem new : Coherent .new ∅ ∅ := by
  constructor <;> simp [BuiltinData.new]

theorem of_maps (h : Coherent d T P) (hw : d'.workspaces = d.workspaces)
    (ht : d'.tabs = d.tabs) (hp : d'.panes = d.panes)
    (hx : d'.terminals = d.terminals) : Coherent d' T P := by
  obtain ⟨_, workspaces, tabs, panes, terminals, _, _, _⟩ := d
  obtain ⟨_, workspaces', tabs', panes', terminals', _, _, _⟩ := d'
  obtain rfl : workspaces' = workspaces := hw
  obtain rfl : tabs' = tabs := ht
  obtain rfl : panes' = panes := hp
  obtain rfl : terminals' = terminals := hx
  exact ⟨h.1, h.2, h.3, h.4, h.5, h.6, h.7, h.8, h.9, h.10, h.11, h.12,
    h.13, h.14⟩

theorem normalizeFocus (h : Coherent d T P) (order : IterationOrder) :
    Coherent (normalizeFocus order d) T P :=
  h.of_maps (by simp) (by simp) (by simp) (by simp)

theorem setFocus (h : Coherent d T P) (w t p : Option String) :
    Coherent (setFocus d w t p) T P :=
  h.of_maps rfl rfl rfl rfl

/-- The tabs, one pane taken out of the list of its own. -/
private abbrev unlistPane (tabs : Table String TabRecord) (owner p : String) :
    Table String TabRecord :=
  Table.modify tabs owner fun tab =>
    { tab with paneIds := tab.paneIds.filter (· ≠ p) }

private theorem unlistPane_of_lookup {tabs : Table String TabRecord} {t : String}
    {tab : TabRecord} (htab : tabs.lookup t = some tab) (owner p : String) :
    ∃ tab', (unlistPane tabs owner p).lookup t = some tab' ∧
      tab'.workspaceId = tab.workspaceId ∧
      ∀ q, q ≠ p → q ∈ tab.paneIds → q ∈ tab'.paneIds := by
  refine ⟨_, lookup_modify_eq_some.mpr ⟨tab, htab, rfl⟩, ?_, fun q hne hq => ?_⟩
  · split <;> rfl
  · split
    · exact List.mem_filter.mpr ⟨hq, by simpa using hne⟩
    · exact hq

private theorem lookup_of_unlistPane {tabs : Table String TabRecord} {owner p t : String}
    {r : TabRecord} (ht : (unlistPane tabs owner p).lookup t = some r) :
    ∃ r', tabs.lookup t = some r' ∧ r.workspaceId = r'.workspaceId ∧
      ∀ q ∈ r.paneIds, q ∈ r'.paneIds ∧ (t = owner → q ≠ p) := by
  obtain ⟨r', hr', rfl⟩ := lookup_modify_eq_some.mp ht
  refine ⟨r', hr', by split <;> rfl, fun q hq => ?_⟩
  split at hq
  · exact ⟨List.mem_of_mem_filter hq, fun _ => by simpa using (List.mem_filter.mp hq).2⟩
  · next hne => exact ⟨hq, fun heq => absurd heq hne⟩

theorem closePaneLocked (h : Coherent d T P) (p : String) :
    Coherent (closePaneLocked d p) T (P \ {p}) := by
  unfold Builtin.closePaneLocked
  split
  · next hnone =>
      refine { h with pane_listed := fun q r hq hP => ?_, orphan_pane := ?_ }
      · refine h.pane_listed q r hq fun hmem => hP ⟨hmem, ?_⟩
        rintro rfl
        rw [hnone] at hq
        cases hq
      · exact fun q r hq => h.orphan_pane q r hq.1
  · next pane hpane =>
      have hkept {q : String} {r : PaneRecord} (hq : d.panes.lookup q = some r)
          (hne : q ≠ p) : r.terminalId ≠ pane.terminalId :=
        fun heq => hne (h.terminal_unique q p r pane hq hpane heq)
      constructor
      case workspace_key => exact h.workspace_key
      case tab_key => exact forall_lookup_modify h.tab_key fun _ hkey => hkey
      case pane_key => exact forall_lookup_erase h.pane_key
      case tabs_nodup => exact h.tabs_nodup
      case panes_nodup =>
        exact forall_lookup_modify h.panes_nodup fun _ hnodup => hnodup.filter _
      case tab_listed =>
        intro t r ht hT
        obtain ⟨r', hr', hws, _⟩ := lookup_of_unlistPane ht
        rw [hws]
        exact h.tab_listed t r' hr' hT
      case listed_tab =>
        intro w r t hw ht
        obtain ⟨tab, htab, rfl⟩ := h.listed_tab w r t hw ht
        obtain ⟨tab', htab', hws, _⟩ := unlistPane_of_lookup htab pane.tabId p
        exact ⟨tab', htab', hws⟩
      case pane_listed =>
        intro q r hq hP
        obtain ⟨hne, hq⟩ := lookup_erase_eq_some.mp hq
        obtain ⟨tab, htab, hmem, hws⟩ :=
          h.pane_listed q r hq (by simpa [hne] using hP)
        obtain ⟨tab', htab', hws', hmem'⟩ := unlistPane_of_lookup htab pane.tabId p
        exact ⟨tab', htab', hmem' q hne hmem, hws.trans hws'.symm⟩
      case listed_pane =>
        intro t r q ht hq
        obtain ⟨r', hr', _, hpanes⟩ := lookup_of_unlistPane ht
        obtain ⟨hold, hhome⟩ := hpanes q hq
        obtain ⟨pane', hpane', rfl⟩ := h.listed_pane t r' q hr' hold
        refine ⟨pane', lookup_erase_eq_some.mpr ⟨?_, hpane'⟩, rfl⟩
        rintro rfl
        obtain rfl : pane' = pane := by simpa [hpane'] using hpane
        exact hhome rfl rfl
      case pane_terminal =>
        intro q r hq
        obtain ⟨hne, hq⟩ := lookup_erase_eq_some.mp hq
        obtain ⟨terminal, hterm⟩ := h.pane_terminal q r hq
        exact ⟨terminal, lookup_erase_eq_some.mpr ⟨hkept hq hne, hterm⟩⟩
      case terminal_pane =>
        intro x terminal hx
        obtain ⟨hne, hx⟩ := lookup_erase_eq_some.mp hx
        obtain ⟨q, r, hq, rfl⟩ := h.terminal_pane x terminal hx
        refine ⟨q, r, lookup_erase_eq_some.mpr ⟨?_, hq⟩, rfl⟩
        rintro rfl
        obtain rfl : r = pane := by simpa [hq] using hpane
        exact hne rfl
      case terminal_unique =>
        intro q q' r r' hq hq'
        exact h.terminal_unique q q' r r' (lookup_erase_eq_some.mp hq).2
          (lookup_erase_eq_some.mp hq').2
      case orphan_tab =>
        intro t r hT ht
        obtain ⟨r', hr', hws, _⟩ := lookup_of_unlistPane ht
        rw [hws]
        exact h.orphan_tab t r' hT hr'
      case orphan_pane =>
        intro q r hP hq
        rw [lookup_modify_eq_none]
        exact h.orphan_pane q r hP.1 (lookup_erase_eq_some.mp hq).2

theorem closePanes (h : Coherent d T P) (panes : List String) :
    Coherent (panes.foldl Builtin.closePaneLocked d) T (P \ {p | p ∈ panes}) := by
  induction panes generalizing d P with
  | nil => simpa using h
  | cons p panes ih =>
    have hrest := ih (h.closePaneLocked p)
    have hset : (P \ {p}) \ {q | q ∈ panes} = P \ {q | q ∈ p :: panes} := by
      ext q
      simp only [Set.mem_sdiff, Set.mem_singleton_iff, Set.mem_ofPred_eq,
        List.mem_cons, not_or, and_assoc]
    rw [hset] at hrest
    exact hrest

end Coherent

/-- A tab taken out of its map and of its workspace's list, its panes still
in place. -/
def unlistTab (d : BuiltinData) (tabId workspaceId : String) : BuiltinData :=
  { d with
    tabs := d.tabs.erase tabId
    workspaces := Table.modify d.workspaces workspaceId fun workspace =>
      { workspace with tabIds := workspace.tabIds.filter (· ≠ tabId) } }

theorem closePaneLocked_workspaces (d : BuiltinData) (p : String)
    (workspaces : Table String WorkspaceRecord) :
    closePaneLocked { d with workspaces := workspaces } p =
      { closePaneLocked d p with workspaces := workspaces } := by
  unfold closePaneLocked
  split <;> simp_all

theorem closePanes_workspaces (d : BuiltinData) (panes : List String)
    (workspaces : Table String WorkspaceRecord) :
    panes.foldl closePaneLocked { d with workspaces := workspaces } =
      { panes.foldl closePaneLocked d with workspaces := workspaces } := by
  induction panes generalizing d with
  | nil => rfl
  | cons p panes ih =>
    simp only [List.foldl_cons, closePaneLocked_workspaces, ih]

theorem closePanes_keeps_workspaces (d : BuiltinData) (panes : List String) :
    (panes.foldl closePaneLocked d).workspaces = d.workspaces := by
  have h := congrArg BuiltinData.workspaces
    (closePanes_workspaces d panes d.workspaces)
  exact h

theorem closeTabLocked_eq {d : BuiltinData} {t : String} {tab : TabRecord}
    (htab : d.tabs.lookup t = some tab) :
    closeTabLocked d t =
      tab.paneIds.foldl closePaneLocked (unlistTab d t tab.workspaceId) := by
  unfold closeTabLocked unlistTab
  rw [htab]
  simp only
  rw [closePanes_keeps_workspaces]
  exact (closePanes_workspaces { d with tabs := d.tabs.erase t } tab.paneIds _).symm

namespace Coherent

variable {d : BuiltinData} {T P : Set String}

theorem unlistTab (h : Coherent d T ∅) {t : String} {tab : TabRecord}
    (htab : d.tabs.lookup t = some tab) :
    Coherent (unlistTab d t tab.workspaceId) (T \ {t}) {p | p ∈ tab.paneIds} := by
  have hpane {p : String} {r : PaneRecord} (hp : d.panes.lookup p = some r)
      (hmem : p ∈ tab.paneIds) : r.tabId = t := by
    obtain ⟨pane, hpane, rfl⟩ := h.listed_pane t tab p htab hmem
    rw [hp, Option.some.injEq] at hpane
    rw [hpane]
  constructor
  case workspace_key => exact forall_lookup_modify h.workspace_key fun _ hkey => hkey
  case tab_key => exact forall_lookup_erase h.tab_key
  case pane_key => exact h.pane_key
  case tabs_nodup =>
    exact forall_lookup_modify h.tabs_nodup fun _ hnodup => hnodup.filter _
  case panes_nodup => exact forall_lookup_erase h.panes_nodup
  case tab_listed =>
    intro u r hu hT
    obtain ⟨hne, hu⟩ := lookup_erase_eq_some.mp hu
    obtain ⟨w, hw, hmem⟩ := h.tab_listed u r hu (by simpa [hne] using hT)
    refine ⟨_, lookup_modify_eq_some.mpr ⟨w, hw, rfl⟩, ?_⟩
    split
    · exact List.mem_filter.mpr ⟨hmem, by simpa using hne⟩
    · exact hmem
  case listed_tab =>
    intro w r u hw hu
    obtain ⟨w', hw', rfl⟩ := lookup_modify_eq_some.mp hw
    have hmem : u ∈ w'.tabIds := by
      split at hu
      · exact List.mem_of_mem_filter hu
      · exact hu
    obtain ⟨tab', htab', rfl⟩ := h.listed_tab w w' u hw' hmem
    refine ⟨tab', lookup_erase_eq_some.mpr ⟨?_, htab'⟩, rfl⟩
    rintro rfl
    obtain rfl : tab' = tab := by simpa [htab'] using htab
    simp at hu
  case pane_listed =>
    intro p r hp hP
    obtain ⟨tab', htab', hmem, hws⟩ := h.pane_listed p r hp (by simp)
    refine ⟨tab', lookup_erase_eq_some.mpr ⟨?_, htab'⟩, hmem, hws⟩
    intro heq
    rw [heq, htab, Option.some.injEq] at htab'
    exact hP (htab' ▸ hmem)
  case listed_pane =>
    intro u r p hu hmem
    exact h.listed_pane u r p (lookup_erase_eq_some.mp hu).2 hmem
  case pane_terminal => exact h.pane_terminal
  case terminal_pane => exact h.terminal_pane
  case terminal_unique => exact h.terminal_unique
  case orphan_tab =>
    intro u r hT hu
    exact lookup_modify_eq_none.mpr
      (h.orphan_tab u r hT.1 (lookup_erase_eq_some.mp hu).2)
  case orphan_pane =>
    intro p r hmem hp
    have hhome := hpane hp hmem
    change Finmap.lookup r.tabId (d.tabs.erase t) = none
    rw [lookup_erase_eq, if_pos hhome]

theorem closeTabLocked (h : Coherent d T ∅) (t : String) :
    Coherent (closeTabLocked d t) (T \ {t}) ∅ := by
  cases htab : d.tabs.lookup t with
  | none =>
    have hsame : Builtin.closeTabLocked d t = d := by
      unfold Builtin.closeTabLocked
      rw [htab]
    rw [hsame]
    refine { h with tab_listed := fun u r hu hT => ?_, orphan_tab := ?_ }
    · refine h.tab_listed u r hu fun hmem => hT ⟨hmem, ?_⟩
      rintro rfl
      rw [htab] at hu
      cases hu
    · exact fun u r hu => h.orphan_tab u r hu.1
  | some tab =>
    rw [closeTabLocked_eq htab]
    simpa using (h.unlistTab htab).closePanes tab.paneIds

theorem closeTabs (h : Coherent d T ∅) (tabs : List String) :
    Coherent (tabs.foldl Builtin.closeTabLocked d) (T \ {t | t ∈ tabs}) ∅ := by
  induction tabs generalizing d T with
  | nil => simpa using h
  | cons t tabs ih =>
    have hrest := ih (h.closeTabLocked t)
    have hset : (T \ {t}) \ {u | u ∈ tabs} = T \ {u | u ∈ t :: tabs} := by
      ext u
      simp only [Set.mem_sdiff, Set.mem_singleton_iff, Set.mem_ofPred_eq,
        List.mem_cons, not_or, and_assoc]
    rw [hset] at hrest
    exact hrest

theorem eraseWorkspace (h : Coherent d ∅ ∅) {w : String}
    {workspace : WorkspaceRecord} (hw : d.workspaces.lookup w = some workspace) :
    Coherent { d with workspaces := d.workspaces.erase w }
      {t | t ∈ workspace.tabIds} ∅ where
  workspace_key := forall_lookup_erase h.workspace_key
  tab_key := h.tab_key
  pane_key := h.pane_key
  tabs_nodup := forall_lookup_erase h.tabs_nodup
  panes_nodup := h.panes_nodup
  tab_listed := by
    intro t r ht hT
    obtain ⟨w', hw', hmem⟩ := h.tab_listed t r ht (by simp)
    refine ⟨w', lookup_erase_eq_some.mpr ⟨?_, hw'⟩, hmem⟩
    intro heq
    rw [heq, hw, Option.some.injEq] at hw'
    exact hT (hw' ▸ hmem)
  listed_tab := fun v r t hv => h.listed_tab v r t (lookup_erase_eq_some.mp hv).2
  pane_listed := h.pane_listed
  listed_pane := h.listed_pane
  pane_terminal := h.pane_terminal
  terminal_pane := h.terminal_pane
  terminal_unique := h.terminal_unique
  orphan_tab := by
    intro t r hmem ht
    obtain ⟨tab, htab, rfl⟩ := h.listed_tab w workspace t hw hmem
    obtain rfl : tab = r := by simpa [htab] using ht
    exact Finmap.lookup_erase _ _
  orphan_pane := h.orphan_pane

theorem dropWorkspace (h : Coherent d ∅ ∅) {w : String} {d' : BuiltinData}
    (hdrop : dropWorkspace d w = some d') : Coherent d' ∅ ∅ := by
  obtain ⟨workspace, hw, rfl⟩ := Option.map_eq_some_iff.mp hdrop
  simpa using (h.eraseWorkspace hw).closeTabs workspace.tabIds

theorem eraseEmptyWorkspace (h : Coherent d ∅ ∅) {w : String}
    {workspace : WorkspaceRecord} (hw : d.workspaces.lookup w = some workspace)
    (hempty : workspace.tabIds = []) :
    Coherent { d with workspaces := d.workspaces.erase w } ∅ ∅ := by
  have herased := h.eraseWorkspace hw
  simpa [hempty] using herased

end Coherent

/-- A tab appended to the list of a workspace. -/
def listTab (d : BuiltinData) (workspaceId tabId : String) : BuiltinData :=
  { d with
    workspaces := Table.modify d.workspaces workspaceId fun workspace =>
      { workspace with tabIds := workspace.tabIds ++ [tabId] } }

namespace Coherent

variable {d : BuiltinData}

theorem insertWorkspace (h : Coherent d ∅ ∅) {w : String}
    (hfresh : w ∉ d.workspaces) (label : String) (cwd : Path) :
    Coherent (insertWorkspace d w label cwd []) ∅ ∅ := by
  have hnone : d.workspaces.lookup w = none := Finmap.lookup_eq_none.mpr hfresh
  constructor
  case workspace_key => exact forall_lookup_insert h.workspace_key rfl
  case tab_key => exact h.tab_key
  case pane_key => exact h.pane_key
  case tabs_nodup => exact forall_lookup_insert h.tabs_nodup List.nodup_nil
  case panes_nodup => exact h.panes_nodup
  case tab_listed =>
    intro t r ht hT
    obtain ⟨w', hw', hmem⟩ := h.tab_listed t r ht hT
    refine ⟨w', lookup_insert_eq_some.mpr (.inr ⟨?_, hw'⟩), hmem⟩
    intro heq
    rw [heq, hnone] at hw'
    cases hw'
  case listed_tab =>
    intro v r t hv hmem
    rcases lookup_insert_eq_some.mp hv with ⟨rfl, rfl⟩ | ⟨_, hold⟩
    · exact absurd hmem List.not_mem_nil
    · exact h.listed_tab v r t hold hmem
  case pane_listed => exact h.pane_listed
  case listed_pane => exact h.listed_pane
  case pane_terminal => exact h.pane_terminal
  case terminal_pane => exact h.terminal_pane
  case terminal_unique => exact h.terminal_unique
  case orphan_tab => simp
  case orphan_pane => exact h.orphan_pane

theorem insertTab (h : Coherent d ∅ ∅) {ids : FreshIds}
    (hw : ids.workspaceId ∈ d.workspaces) (ht : ids.tabId ∉ d.tabs)
    (hp : ids.paneId ∉ d.panes) (hx : ids.terminalId ∉ d.terminals)
    (cwd : Path) (tabLabel : String) (paneLabel : Option String)
    (argv : List String) :
    Coherent (listTab (insertTerminalTab d ids cwd tabLabel paneLabel argv)
      ids.workspaceId ids.tabId) ∅ ∅ := by
  obtain ⟨workspace, hw⟩ := Finmap.mem_iff.mp hw
  rw [← Finmap.lookup_eq_none] at ht hp hx
  have hforeign {p : String} {r : PaneRecord} (hr : d.panes.lookup p = some r) :
      r.terminalId ≠ ids.terminalId := by
    intro heq
    obtain ⟨terminal, hterm⟩ := h.pane_terminal p r hr
    rw [heq, hx] at hterm
    cases hterm
  constructor
  case workspace_key => exact forall_lookup_modify h.workspace_key fun _ hkey => hkey
  case tab_key => exact forall_lookup_insert h.tab_key rfl
  case pane_key => exact forall_lookup_insert h.pane_key rfl
  case tabs_nodup =>
    intro w r hr
    obtain ⟨r', hr', rfl⟩ := lookup_modify_eq_some.mp hr
    have hnodup := h.tabs_nodup w r' hr'
    have hunlisted : ids.tabId ∉ r'.tabIds := by
      intro hmem
      obtain ⟨tab, htab, _⟩ := h.listed_tab w r' _ hr' hmem
      simp [ht] at htab
    split
    · exact hnodup.append (List.nodup_singleton _) (by simpa using hunlisted)
    · exact hnodup
  case panes_nodup => exact forall_lookup_insert h.panes_nodup (List.nodup_singleton _)
  case tab_listed =>
    intro t r hr _
    rcases lookup_insert_eq_some.mp hr with ⟨rfl, rfl⟩ | ⟨_, hr⟩
    · exact ⟨_, lookup_modify_eq_some.mpr ⟨workspace, hw, rfl⟩, by simp⟩
    · obtain ⟨w, hw', hmem⟩ := h.tab_listed t r hr (by simp)
      refine ⟨_, lookup_modify_eq_some.mpr ⟨w, hw', rfl⟩, ?_⟩
      split <;> simp [hmem]
  case listed_tab =>
    intro w r t hr hmem
    obtain ⟨r', hr', rfl⟩ := lookup_modify_eq_some.mp hr
    by_cases heq : t = ids.tabId
    · subst heq
      have hwid : w = ids.workspaceId := by
        by_contra hne
        rw [if_neg hne] at hmem
        obtain ⟨tab, htab, _⟩ := h.listed_tab w r' _ hr' hmem
        simp [ht] at htab
      exact ⟨_, Finmap.lookup_insert _, hwid.symm⟩
    · have hold : t ∈ r'.tabIds := by
        split at hmem
        · simpa [heq] using hmem
        · exact hmem
      obtain ⟨tab, htab, rfl⟩ := h.listed_tab w r' t hr' hold
      exact ⟨tab, lookup_insert_eq_some.mpr (.inr ⟨heq, htab⟩), rfl⟩
  case pane_listed =>
    intro p r hr _
    rcases lookup_insert_eq_some.mp hr with ⟨rfl, rfl⟩ | ⟨_, hr⟩
    · exact ⟨_, Finmap.lookup_insert _, by simp, rfl⟩
    · obtain ⟨tab, htab, hmem, hws⟩ := h.pane_listed p r hr (by simp)
      refine ⟨tab, lookup_insert_eq_some.mpr (.inr ⟨?_, htab⟩), hmem, hws⟩
      intro heq
      rw [heq, ht] at htab
      cases htab
  case listed_pane =>
    intro t r p hr hmem
    rcases lookup_insert_eq_some.mp hr with ⟨rfl, rfl⟩ | ⟨_, hr⟩
    · obtain rfl : p = ids.paneId := by simpa using hmem
      exact ⟨_, Finmap.lookup_insert _, rfl⟩
    · obtain ⟨pane, hpane, rfl⟩ := h.listed_pane t r p hr hmem
      refine ⟨pane, lookup_insert_eq_some.mpr (.inr ⟨?_, hpane⟩), rfl⟩
      intro heq
      rw [heq, hp] at hpane
      cases hpane
  case pane_terminal =>
    intro p r hr
    rcases lookup_insert_eq_some.mp hr with ⟨rfl, rfl⟩ | ⟨_, hr⟩
    · exact ⟨_, Finmap.lookup_insert _⟩
    · obtain ⟨terminal, hterm⟩ := h.pane_terminal p r hr
      exact ⟨terminal, lookup_insert_eq_some.mpr (.inr ⟨hforeign hr, hterm⟩)⟩
  case terminal_pane =>
    intro x terminal hterm
    rcases lookup_insert_eq_some.mp hterm with ⟨rfl, rfl⟩ | ⟨_, hterm⟩
    · exact ⟨ids.paneId, _, Finmap.lookup_insert _, rfl⟩
    · obtain ⟨p, r, hr, rfl⟩ := h.terminal_pane x terminal hterm
      refine ⟨p, r, lookup_insert_eq_some.mpr (.inr ⟨?_, hr⟩), rfl⟩
      intro heq
      rw [heq, hp] at hr
      cases hr
  case terminal_unique =>
    intro p q r r' hr hr' heq
    rcases lookup_insert_eq_some.mp hr with ⟨rfl, rfl⟩ | ⟨_, hr⟩ <;>
      rcases lookup_insert_eq_some.mp hr' with ⟨rfl, rfl⟩ | ⟨_, hr'⟩
    · rfl
    · exact absurd heq.symm (hforeign hr')
    · exact absurd heq (hforeign hr)
    · exact h.terminal_unique p q r r' hr hr' heq
  case orphan_tab => simp
  case orphan_pane => simp

theorem modifyWorkspace (h : Coherent d ∅ ∅) (w : String)
    {f : WorkspaceRecord → WorkspaceRecord}
    (hf : ∀ r, (f r).workspaceId = r.workspaceId ∧ (f r).tabIds = r.tabIds) :
    Coherent { d with workspaces := Table.modify d.workspaces w f } ∅ ∅ := by
  constructor
  case workspace_key =>
    exact forall_lookup_modify h.workspace_key fun r hkey => (hf r).1.trans hkey
  case tab_key => exact h.tab_key
  case pane_key => exact h.pane_key
  case tabs_nodup =>
    apply forall_lookup_modify h.tabs_nodup
    intro r hnodup
    rw [(hf r).2]
    exact hnodup
  case panes_nodup => exact h.panes_nodup
  case tab_listed =>
    intro t r ht hT
    obtain ⟨w', hw', hmem⟩ := h.tab_listed t r ht hT
    refine ⟨_, lookup_modify_eq_some.mpr ⟨w', hw', rfl⟩, ?_⟩
    split
    · rwa [(hf w').2]
    · exact hmem
  case listed_tab =>
    intro v r t hv hmem
    obtain ⟨r', hr', rfl⟩ := lookup_modify_eq_some.mp hv
    apply h.listed_tab v r' t hr'
    split at hmem
    · rwa [(hf r').2] at hmem
    · exact hmem
  case pane_listed => exact h.pane_listed
  case listed_pane => exact h.listed_pane
  case pane_terminal => exact h.pane_terminal
  case terminal_pane => exact h.terminal_pane
  case terminal_unique => exact h.terminal_unique
  case orphan_tab => simp
  case orphan_pane => exact h.orphan_pane

theorem modifyTab (h : Coherent d ∅ ∅) (t : String)
    {f : TabRecord → TabRecord}
    (hf : ∀ r, (f r).tabId = r.tabId ∧ (f r).workspaceId = r.workspaceId ∧
      (f r).paneIds = r.paneIds) :
    Coherent { d with tabs := Table.modify d.tabs t f } ∅ ∅ := by
  have hsame (u : String) (r : TabRecord) :
      (if u = t then f r else r).workspaceId = r.workspaceId ∧
        (if u = t then f r else r).paneIds = r.paneIds := by
    split
    · exact (hf r).2
    · exact ⟨rfl, rfl⟩
  have hnow {u : String} {r : TabRecord} (hr : d.tabs.lookup u = some r) :
      ∃ r', (Table.modify d.tabs t f).lookup u = some r' ∧
        r'.workspaceId = r.workspaceId ∧ r'.paneIds = r.paneIds :=
    ⟨_, lookup_modify_eq_some.mpr ⟨r, hr, rfl⟩, hsame u r⟩
  have hwas {u : String} {r : TabRecord}
      (hr : (Table.modify d.tabs t f).lookup u = some r) :
      ∃ r', d.tabs.lookup u = some r' ∧
        r.workspaceId = r'.workspaceId ∧ r.paneIds = r'.paneIds := by
    obtain ⟨r', hr', rfl⟩ := lookup_modify_eq_some.mp hr
    exact ⟨r', hr', hsame u r'⟩
  constructor
  case workspace_key => exact h.workspace_key
  case tab_key =>
    exact forall_lookup_modify h.tab_key fun r hkey => (hf r).1.trans hkey
  case pane_key => exact h.pane_key
  case tabs_nodup => exact h.tabs_nodup
  case panes_nodup =>
    apply forall_lookup_modify h.panes_nodup
    intro r hnodup
    rw [(hf r).2.2]
    exact hnodup
  case tab_listed =>
    intro u r hu hT
    obtain ⟨r', hr', hws, _⟩ := hwas hu
    rw [hws]
    exact h.tab_listed u r' hr' hT
  case listed_tab =>
    intro w r u hw hu
    obtain ⟨tab, htab, rfl⟩ := h.listed_tab w r u hw hu
    obtain ⟨tab', htab', hws, _⟩ := hnow htab
    exact ⟨tab', htab', hws⟩
  case pane_listed =>
    intro p r hp hP
    obtain ⟨tab, htab, hmem, hws⟩ := h.pane_listed p r hp hP
    obtain ⟨tab', htab', hws', hpanes⟩ := hnow htab
    exact ⟨tab', htab', hpanes ▸ hmem, hws.trans hws'.symm⟩
  case listed_pane =>
    intro u r p hu hmem
    obtain ⟨r', hr', _, hpanes⟩ := hwas hu
    exact h.listed_pane u r' p hr' (hpanes ▸ hmem)
  case pane_terminal => exact h.pane_terminal
  case terminal_pane => exact h.terminal_pane
  case terminal_unique => exact h.terminal_unique
  case orphan_tab => simp
  case orphan_pane => simp

section Move

variable {t w : String} {tab : TabRecord} {live : Path}

theorem lookup_panes_moveTab {p : String} {r : PaneRecord} :
    (moveTab d t tab w live).panes.lookup p = some r ↔
      ∃ r', d.panes.lookup p = some r' ∧
        r = if p ∈ tab.paneIds then
          { r' with workspaceId := w, cwd := live } else r' :=
  lookup_foldl_modify_eq_some
    (fun r : PaneRecord => { r with workspaceId := w, cwd := live })
    (fun _ => rfl) tab.paneIds

theorem lookup_tabs_moveTab_of_ne {u : String} {r : TabRecord}
    (hr : d.tabs.lookup u = some r) (hu : u ≠ t) :
    (moveTab d t tab w live).tabs.lookup u = some r :=
  lookup_modify_eq_some.mpr ⟨r, hr, (if_neg hu).symm⟩

theorem lookup_tabs_moveTab_self (htab : d.tabs.lookup t = some tab) (w : String)
    (live : Path) :
    ∃ r, (moveTab d t tab w live).tabs.lookup t = some r ∧ r.workspaceId = w ∧
      r.paneIds = tab.paneIds :=
  ⟨_, lookup_modify_eq_some.mpr ⟨tab, htab, (if_pos rfl).symm⟩, rfl, rfl⟩

/-- Each workspace lists the tabs it listed, except that the moved tab is listed
by the target alone. -/
theorem moveTab_lists (h : Coherent d ∅ ∅) (htab : d.tabs.lookup t = some tab)
    {v : String} {r' : WorkspaceRecord}
    (hr' : (moveTab d t tab w live).workspaces.lookup v = some r') :
    ∃ r, d.workspaces.lookup v = some r ∧ r'.workspaceId = r.workspaceId ∧
      r'.tabIds.Nodup ∧
      ∀ u, u ∈ r'.tabIds ↔ if u = t then v = w else u ∈ r.tabIds := by
  obtain ⟨r₁, hr₁, rfl⟩ := lookup_modify_eq_some.mp hr'
  obtain ⟨r, hr, rfl⟩ := lookup_modify_eq_some.mp hr₁
  have hhome (hmem : t ∈ r.tabIds) : v = tab.workspaceId := by
    obtain ⟨tab', htab', rfl⟩ := h.listed_tab v r t hr hmem
    rw [htab, Option.some.injEq] at htab'
    rw [htab']
  have hgone : t ∉ (if v = tab.workspaceId then
      { r with tabIds := r.tabIds.filter (· ≠ t) } else r).tabIds := by
    split
    · simp
    · next hne => exact fun hmem => hne (hhome hmem)
  have hfiltered : (if v = tab.workspaceId then
      { r with tabIds := r.tabIds.filter (· ≠ t) } else r).tabIds.Nodup := by
    have hnodup := h.tabs_nodup v r hr
    split
    · exact hnodup.filter _
    · exact hnodup
  have hkept (u : String) (hu : u ≠ t) : u ∈ (if v = tab.workspaceId then
      { r with tabIds := r.tabIds.filter (· ≠ t) } else r).tabIds ↔ u ∈ r.tabIds := by
    split
    · simp [hu]
    · rfl
  refine ⟨r, hr, ?_, ?_, fun u => ?_⟩
  · split <;> split <;> rfl
  · split
    · exact hfiltered.append (List.nodup_singleton _) (by simpa using hgone)
    · exact hfiltered
  · by_cases hu : u = t
    · subst hu
      rw [if_pos rfl]
      split
      · next hv => exact iff_of_true (List.mem_append_right _ List.mem_cons_self) hv
      · next hv => exact iff_of_false hgone hv
    · rw [if_neg hu, ← hkept u hu]
      split
      · simp only [List.mem_append, List.mem_singleton, hu, or_false]
      · rfl

theorem lookup_workspaces_moveTab {v : String} {r : WorkspaceRecord}
    (hr : d.workspaces.lookup v = some r) :
    ∃ r', (moveTab d t tab w live).workspaces.lookup v = some r' :=
  ⟨_, lookup_modify_eq_some.mpr ⟨_, lookup_modify_eq_some.mpr ⟨r, hr, rfl⟩, rfl⟩⟩

theorem moveTab (h : Coherent d ∅ ∅) (htab : d.tabs.lookup t = some tab)
    (hw : w ∈ d.workspaces) (live : Path) :
    Coherent (moveTab d t tab w live) ∅ ∅ := by
  obtain ⟨target, hw⟩ := Finmap.mem_iff.mp hw
  constructor
  case workspace_key =>
    intro v r' hr'
    obtain ⟨r, hr, hid, _⟩ := h.moveTab_lists htab hr'
    rw [hid]
    exact h.workspace_key v r hr
  case tab_key => exact forall_lookup_modify h.tab_key fun _ hkey => hkey
  case pane_key =>
    intro p r hr
    obtain ⟨r', hr', rfl⟩ := lookup_panes_moveTab.mp hr
    rw [← h.pane_key p r' hr']
    split <;> rfl
  case tabs_nodup =>
    intro v r' hr'
    obtain ⟨r, hr, _, hnodup, _⟩ := h.moveTab_lists htab hr'
    exact hnodup
  case panes_nodup => exact forall_lookup_modify h.panes_nodup fun _ hnodup => hnodup
  case tab_listed =>
    intro u r hr _
    by_cases hu : u = t
    · subst hu
      obtain ⟨r', hr', hws, _⟩ := lookup_tabs_moveTab_self htab w live
      obtain rfl : r' = r := by simpa [hr'] using hr
      obtain ⟨target', htarget⟩ := lookup_workspaces_moveTab hw
      obtain ⟨_, _, _, _, hmem⟩ := h.moveTab_lists htab htarget
      exact ⟨target', by rw [hws, htarget], by simp [hmem]⟩
    · obtain ⟨r', hr', rfl⟩ := lookup_modify_eq_some.mp hr
      rw [if_neg hu]
      obtain ⟨v, hv, hold⟩ := h.tab_listed u r' hr' (by simp)
      obtain ⟨v', hv'⟩ := lookup_workspaces_moveTab hv
      obtain ⟨v₀, hv₀, _, _, hmem⟩ := h.moveTab_lists htab hv'
      obtain rfl : v₀ = v := by simpa [hv₀] using hv
      exact ⟨v', hv', (hmem u).mpr (by simpa [hu] using hold)⟩
  case listed_tab =>
    intro v r' u hr' hmem
    obtain ⟨r, hr, _, _, hlists⟩ := h.moveTab_lists htab hr'
    have hold := (hlists u).mp hmem
    by_cases hu : u = t
    · subst hu
      obtain ⟨moved, hmoved, hws, _⟩ := lookup_tabs_moveTab_self htab w live
      rw [if_pos rfl] at hold
      exact ⟨moved, hmoved, hws.trans hold.symm⟩
    · rw [if_neg hu] at hold
      obtain ⟨tab', htab', rfl⟩ := h.listed_tab v r u hr hold
      exact ⟨tab', lookup_tabs_moveTab_of_ne htab' hu, rfl⟩
  case pane_listed =>
    intro p r hr _
    obtain ⟨r', hr', rfl⟩ := lookup_panes_moveTab.mp hr
    obtain ⟨tab', htab', hmem, hws⟩ := h.pane_listed p r' hr' (by simp)
    by_cases hp : p ∈ tab.paneIds
    · obtain ⟨pane, hpane, hpt⟩ := h.listed_pane t tab p htab hp
      obtain rfl : pane = r' := by simpa [hpane] using hr'
      obtain ⟨moved, hmoved, hmovedw, hmovedp⟩ := lookup_tabs_moveTab_self htab w live
      rw [if_pos hp]
      exact ⟨moved, by rw [hpt, hmoved], hmovedp ▸ hp, hmovedw.symm⟩
    · have hne : r'.tabId ≠ t := by
        intro heq
        rw [heq, htab, Option.some.injEq] at htab'
        exact hp (htab' ▸ hmem)
      rw [if_neg hp]
      exact ⟨tab', lookup_tabs_moveTab_of_ne htab' hne, hmem, hws⟩
  case listed_pane =>
    intro u r p hr hmem
    obtain ⟨r', hr', rfl⟩ := lookup_modify_eq_some.mp hr
    have hold : p ∈ r'.paneIds := by
      split at hmem <;> exact hmem
    obtain ⟨pane, hpane, rfl⟩ := h.listed_pane u r' p hr' hold
    exact ⟨_, lookup_panes_moveTab.mpr ⟨pane, hpane, rfl⟩, by split <;> rfl⟩
  case pane_terminal =>
    intro p r hr
    obtain ⟨r', hr', rfl⟩ := lookup_panes_moveTab.mp hr
    obtain ⟨terminal, hterm⟩ := h.pane_terminal p r' hr'
    refine ⟨terminal, ?_⟩
    rw [← hterm]
    congr 1
    split <;> rfl
  case terminal_pane =>
    intro x terminal hterm
    obtain ⟨p, r, hr, rfl⟩ := h.terminal_pane x terminal hterm
    exact ⟨p, _, lookup_panes_moveTab.mpr ⟨r, hr, rfl⟩, by split <;> rfl⟩
  case terminal_unique =>
    intro p q r r' hr hr' heq
    obtain ⟨s, hs, rfl⟩ := lookup_panes_moveTab.mp hr
    obtain ⟨s', hs', rfl⟩ := lookup_panes_moveTab.mp hr'
    have hsame (p : String) (r : PaneRecord) : (if p ∈ tab.paneIds then
        { r with workspaceId := w, cwd := live } else r).terminalId = r.terminalId := by
      split <;> rfl
    exact h.terminal_unique p q s s' hs hs' (by rwa [hsame, hsame] at heq)
  case orphan_tab => simp
  case orphan_pane => simp

end Move

theorem dropEmptied (h : Coherent d ∅ ∅) (w : String) :
    Coherent (dropEmptied d w).1 ∅ ∅ := by
  unfold Builtin.dropEmptied
  split
  · exact h
  · next workspace hw =>
      split
      · next hempty =>
          exact h.eraseEmptyWorkspace hw (List.isEmpty_iff.mp hempty)
      · exact h

end Coherent

end HerdrWebui.Builtin
