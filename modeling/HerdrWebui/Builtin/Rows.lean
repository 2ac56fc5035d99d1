import HerdrWebui.Builtin.Integrity

/-!
Where the rows of the registry come from, critical section by critical section: a
workspace keeps the path it was inserted with, and a pane keeps its terminal, its
tab and its workspace, unless a `tab.promote` moves it.
-/

namespace HerdrWebui.Builtin

open Table

/-- What a pane's row says about its place. -/
def PaneRecord.place (pane : PaneRecord) : String × String × String :=
  (pane.terminalId, pane.tabId, pane.workspaceId)

/-- Nothing was inserted and nothing moved. -/
structure Settled (d d' : BuiltinData) : Prop where
  cwds : RowsFrom WorkspaceRecord.cwd none d.workspaces d'.workspaces
  places : RowsFrom PaneRecord.place none d.panes d'.panes

namespace Settled

variable {d d' d'' : BuiltinData}

theorem refl (d : BuiltinData) : Settled d d := ⟨.refl _ _, .refl _ _⟩

theorem trans (h : Settled d d') (h' : Settled d' d'') : Settled d d'' :=
  ⟨h.cwds.trans h'.cwds, h.places.trans h'.places⟩

theorem of_eq (hw : d'.workspaces = d.workspaces) (hp : d'.panes = d.panes) :
    Settled d d' := by
  refine ⟨?_, ?_⟩
  · rw [hw]
    exact .refl _ _
  · rw [hp]
    exact .refl _ _

theorem foldl {β : Type*} {f : BuiltinData → β → BuiltinData}
    (hf : ∀ d x, Settled d (f d x)) (xs : List β) (d : BuiltinData) :
    Settled d (xs.foldl f d) := by
  induction xs generalizing d with
  | nil => exact refl d
  | cons x xs ih => exact (hf d x).trans (ih _)

theorem normalizeFocus (order : IterationOrder) (d : BuiltinData) :
    Settled d (normalizeFocus order d) :=
  of_eq (by simp) (by simp)

theorem modifyWorkspace {f : WorkspaceRecord → WorkspaceRecord}
    (hf : ∀ r, (f r).cwd = r.cwd) (d : BuiltinData) (w : String) :
    Settled d { d with workspaces := Table.modify d.workspaces w f } :=
  ⟨.modify hf _ _, .refl _ _⟩

theorem closePaneLocked (d : BuiltinData) (p : String) :
    Settled d (closePaneLocked d p) := by
  unfold Builtin.closePaneLocked
  split
  · exact refl d
  · exact ⟨.refl _ _, .erase _ _ _⟩

theorem closeTabLocked (d : BuiltinData) (t : String) :
    Settled d (closeTabLocked d t) := by
  unfold Builtin.closeTabLocked
  split
  · exact refl d
  · next tab _ =>
      have herased : Settled d { d with tabs := d.tabs.erase t } := of_eq rfl rfl
      have hclosed := herased.trans (foldl closePaneLocked tab.paneIds _)
      refine hclosed.trans (modifyWorkspace ?_ _ _)
      exact fun _ => rfl

theorem dropWorkspace {w : String} (h : dropWorkspace d w = some d') : Settled d d' := by
  obtain ⟨workspace, _, rfl⟩ := Option.map_eq_some_iff.mp h
  have herased : Settled d { d with workspaces := d.workspaces.erase w } :=
    ⟨.erase _ _ _, .refl _ _⟩
  exact herased.trans (foldl closeTabLocked workspace.tabIds _)

theorem closeWorkspace {order : IterationOrder} {w : String}
    (h : closeWorkspace order d w = .ok d') : Settled d d' := by
  unfold Builtin.closeWorkspace at h
  split at h
  · cases h
  · next dropped hdrop =>
      obtain rfl := Except.ok.inj h
      exact (dropWorkspace hdrop).trans (.normalizeFocus order dropped)

theorem closeTab {order : IterationOrder} {t : String}
    (h : closeTab order d t = .ok d') : Settled d d' := by
  unfold Builtin.closeTab at h
  split at h
  · cases h
  · obtain rfl := Except.ok.inj h
    exact (closeTabLocked d t).trans (.normalizeFocus order _)

theorem closePane {order : IterationOrder} {p : String}
    (h : closePane order d p = .ok d') : Settled d d' := by
  unfold Builtin.closePane at h
  split at h
  · cases h
  · next pane _ =>
      obtain rfl := Except.ok.inj h
      have hpane := closePaneLocked d p
      split
      · have htab := hpane.trans (closeTabLocked _ pane.tabId)
        exact (htab.trans (.normalizeFocus order _)).trans (.normalizeFocus order _)
      · exact hpane.trans (.normalizeFocus order _)

theorem renameWorkspace {w label : String} (h : renameWorkspace d w label = .ok d') :
    Settled d d' := by
  unfold Builtin.renameWorkspace at h
  split at h
  · cases h
  · obtain rfl := Except.ok.inj h
    refine modifyWorkspace ?_ d w
    exact fun _ => rfl

theorem renameTab {t label : String} (h : renameTab d t label = .ok d') :
    Settled d d' := by
  unfold Builtin.renameTab at h
  split at h
  · cases h
  · obtain rfl := Except.ok.inj h
    exact of_eq rfl rfl

theorem worktreeOpenExisting (d : BuiltinData) (w : String) (label : Option String) :
    Settled d (worktreeOpenExisting d w label) := by
  unfold Builtin.worktreeOpenExisting
  cases label with
  | none => exact of_eq rfl rfl
  | some label =>
    have hrenamed := modifyWorkspace
      (f := fun workspace => { workspace with label := label }) (fun _ => rfl) d w
    exact hrenamed.trans (of_eq rfl rfl)

theorem removeMatching (matching : List String) (acc : BuiltinData × List String) :
    Settled acc.1 (matching.foldl removeMatching acc).1 := by
  induction matching generalizing acc with
  | nil => exact refl _
  | cons w matching ih =>
    obtain ⟨d, dropped⟩ := acc
    rw [List.foldl_cons]
    refine trans ?_ (ih _)
    unfold Builtin.removeMatching
    dsimp only
    split
    · exact refl d
    · next hdrop => exact dropWorkspace hdrop

theorem answer {result : Except String BuiltinData}
    (hok : ∀ d', result = .ok d' → Settled d d') : Settled d (answer d result).1 := by
  cases result with
  | error message => exact refl d
  | ok d' => exact hok d' rfl

theorem receive (env : Environment) (d : BuiltinData) (request : Request) :
    Settled d (receive env d request).1 := by
  cases request with
  | workspaceCreate cwd label openTerminal => exact refl d
  | workspaceRename w label => exact answer fun _ hok => renameWorkspace hok
  | workspaceClose w => exact answer fun _ hok => closeWorkspace hok
  | tabCreate w label focus =>
    simp only [Builtin.receive]
    split
    · exact refl d
    · split <;> exact refl d
  | tabRename t label => exact answer fun _ hok => renameTab hok
  | tabClose t => exact answer fun _ hok => closeTab hok
  | tabPromote t =>
    simp only [Builtin.receive]
    split
    · exact refl d
    · split
      · exact refl d
      · split <;> exact refl d
  | paneClose p => exact answer fun _ hok => closePane hok
  | agentStart name argv cwd => exact of_eq rfl rfl
  | worktreeOpen path cwd label openTerminal =>
    simp only [Builtin.receive]
    split
    · exact refl d
    · split
      · exact worktreeOpenExisting d _ label
      · exact refl d
  | worktreeRemove w path repoRoot cwd =>
    simp only [Builtin.receive]
    split
    · exact refl d
    · split
      · exact refl d
      · split <;> exact refl d

end Settled

/-- The workspace a critical section inserted, with its path. -/
def insertsWorkspace : Phase → Phase → Option (String × Path)
  | .createWorkspaceInsert ids cwd _ _ _ _, .createWorkspaceReply _ =>
    some (ids.workspaceId, cwd)
  | .startAgentInsert ids _ _ cwd, .finished (.ok _) => some (ids.workspaceId, cwd)
  | .promoteTabCommit _ _ canonicalLive, .finished (.ok (.promoted w _ _ true _)) =>
    some (w, canonicalLive)
  | _, _ => none

/-- The ids of the terminal a critical section spawned. -/
def spawns : Phase → Phase → Option FreshIds
  | .createWorkspaceInsert ids _ _ _ true _, .createWorkspaceReply _ => some ids
  | .createTabInsert ids _ _ _, .finished (.ok _) => some ids
  | .startAgentInsert ids _ _ _, .finished (.ok _) => some ids
  | _, _ => none

/-- The tab a critical section moved, and where to. -/
def moves : Phase → Phase → Option (String × String)
  | .promoteTabCommit t _ _, .finished (.ok (.promoted w _ _ _ _)) => some (t, w)
  | _, _ => none

theorem insertsWorkspace_fails (phase : Phase) (message : String) :
    insertsWorkspace phase (.finished (.error message)) = none := by
  cases phase <;> rfl

theorem spawns_fails (phase : Phase) (message : String) :
    spawns phase (.finished (.error message)) = none := by
  cases phase with
  | createWorkspaceInsert ids cwd label focus openTerminal => cases openTerminal <;> rfl
  | _ => rfl

theorem moves_fails (phase : Phase) (message : String) :
    moves phase (.finished (.error message)) = none := by
  cases phase <;> rfl

/-- The row of the pane a terminal was spawned for. -/
def FreshIds.row (ids : FreshIds) : String × String × String × String :=
  (ids.paneId, ids.terminalId, ids.tabId, ids.workspaceId)

/-- A critical section that runs as foreseen, as far as rows go. -/
structure RowsKept (d : BuiltinData) (phase : Phase) (d' : BuiltinData)
    (phase' : Phase) : Prop where
  cwds : RowsFrom WorkspaceRecord.cwd (insertsWorkspace phase phase') d.workspaces
    d'.workspaces
  places : moves phase phase' = none →
    RowsFrom PaneRecord.place ((spawns phase phase').map FreshIds.row) d.panes d'.panes

section Steps

variable {d d' : BuiltinData} {phase phase' : Phase}

theorem Settled.kept (h : Settled d d') (hw : insertsWorkspace phase phase' = none)
    (hp : spawns phase phase' = none) : RowsKept d phase d' phase' where
  cwds := by
    rw [hw]
    exact h.cwds
  places _ := by
    rw [hp]
    exact h.places

theorem insertWorkspace_cwds (d : BuiltinData) (w label : String) (cwd : Path)
    (tabIds : List String) :
    RowsFrom WorkspaceRecord.cwd (some (w, cwd)) d.workspaces
      (insertWorkspace d w label cwd tabIds).workspaces :=
  .insert WorkspaceRecord.cwd d.workspaces w ⟨w, label, cwd, tabIds⟩

theorem insertTerminalTab_places (d : BuiltinData) (ids : FreshIds) (cwd : Path)
    (tabLabel : String) (paneLabel : Option String) (argv : List String) :
    RowsFrom PaneRecord.place (some ids.row) d.panes
      (insertTerminalTab d ids cwd tabLabel paneLabel argv).panes :=
  .insert PaneRecord.place d.panes ids.paneId
    ⟨ids.paneId, ids.terminalId, ids.workspaceId, ids.tabId, cwd, paneLabel, argv⟩

theorem createTabInsert_rows {shell : String} {ids : FreshIds} {cwd : Path}
    {label : Option String} {focus : Bool}
    (h : createTabInsert shell d ids cwd label focus = .ok d') :
    RowsFrom WorkspaceRecord.cwd none d.workspaces d'.workspaces ∧
      RowsFrom PaneRecord.place (some ids.row) d.panes d'.panes := by
  unfold createTabInsert at h
  split at h
  · cases h
  · obtain rfl := Except.ok.inj h
    have hcwds := RowsFrom.modify (f := WorkspaceRecord.cwd)
      (g := fun workspace : WorkspaceRecord =>
        { workspace with tabIds := workspace.tabIds ++ [ids.tabId] })
      (fun _ => rfl) d.workspaces ids.workspaceId
    have hplaces := insertTerminalTab_places d ids cwd (label.getD "Shell") none [shell]
    split
    · exact ⟨hcwds, hplaces⟩
    · exact ⟨hcwds, hplaces⟩

theorem moveTab_cwds (d : BuiltinData) (t : String) (tab : TabRecord) (w : String)
    (live : Path) :
    RowsFrom WorkspaceRecord.cwd none d.workspaces (moveTab d t tab w live).workspaces := by
  unfold moveTab
  dsimp only
  refine RowsFrom.trans (.modify ?_ _ _) (.modify ?_ _ _)
  · exact fun _ => rfl
  · exact fun _ => rfl

theorem dropEmptied_cwds (d : BuiltinData) (w : String) :
    RowsFrom WorkspaceRecord.cwd none d.workspaces (dropEmptied d w).1.workspaces := by
  unfold dropEmptied
  split
  · exact .refl _ _
  · split
    · exact .erase _ _ _
    · exact .refl _ _

theorem dropEmptied_panes (d : BuiltinData) (w : String) :
    (dropEmptied d w).1.panes = d.panes := by
  unfold dropEmptied
  split
  · rfl
  · split <;> rfl

theorem promotionTarget_rows (env : Environment) (d : BuiltinData) (live : Path) :
    (promotionTarget env d live).2.2.panes = d.panes ∧
      RowsFrom WorkspaceRecord.cwd
        (if (promotionTarget env d live).2.1 then
          some ((promotionTarget env d live).1, live) else none)
        d.workspaces (promotionTarget env d live).2.2.workspaces ∧
      ((promotionTarget env d live).2.1 = true → workspacesAt env d live = []) := by
  unfold promotionTarget
  split
  · exact ⟨rfl, .refl _ _, nofun⟩
  · next hnone =>
      refine ⟨rfl, insertWorkspace_cwds _ _ _ _ _, fun _ => ?_⟩
      exact List.head?_eq_none_iff.mp hnone

/-- What `promote_tab` commits: the workspace it may have inserted, and the panes of
the tab on their new place. -/
theorem promoteTabCommit_rows {env : Environment} {t p : String} {live : Path}
    {reply : Reply} (h : promoteTabCommit env d t p live = .ok (d', reply)) :
    ∃ tab w created dropped, d.tabs.lookup t = some tab ∧
      reply = .promoted w t p created dropped ∧
      d'.panes = (moveTab d t tab w live).panes ∧
      RowsFrom WorkspaceRecord.cwd (if created then some (w, live) else none)
        d.workspaces d'.workspaces ∧
      (created = true → workspacesAt env d live = []) := by
  unfold promoteTabCommit at h
  split at h
  · cases h
  · next tab htab =>
      simp only at h
      split at h
      · cases h
      · obtain ⟨rfl, rfl⟩ := Prod.mk.inj (Except.ok.inj h)
        obtain ⟨hpanes, hcwds, hnone⟩ := promotionTarget_rows env d live
        have hmoved := moveTab_cwds (promotionTarget env d live).2.2 t tab
          (promotionTarget env d live).1 live
        refine ⟨tab, _, _, _, htab, rfl, ?_, ?_, hnone⟩
        · rw [normalizeFocus_panes]
          change (dropEmptied _ _).1.panes = _
          rw [dropEmptied_panes]
          change tab.paneIds.foldl _ (promotionTarget env d live).2.2.panes = _
          rw [hpanes]
          rfl
        · rw [normalizeFocus_workspaces]
          exact (hcwds.trans hmoved).trans (dropEmptied_cwds _ _)

theorem CriticalSection.moves {shell : String} {env : Environment} {t w : String}
    (h : CriticalSection shell env d phase d' phase')
    (hmoves : moves phase phase' = some (t, w)) :
    ∃ p live reply, phase = .promoteTabCommit t p live ∧ phase' = .finished (.ok reply) ∧
      promoteTabCommit env d t p live = .ok (d', reply) := by
  cases h with
  | @commits t' p live _ reply hcommit =>
    obtain ⟨tab, w', created, dropped, _, rfl, _⟩ := promoteTabCommit_rows hcommit
    obtain ⟨rfl, rfl⟩ := Prod.mk.inj (Option.some.inj hmoves)
    exact ⟨p, live, _, rfl, rfl, hcommit⟩
  | fails =>
    rw [moves_fails] at hmoves
    cases hmoves
  | _ => cases hmoves

theorem proceed_rows {shell : String} {env : Environment}
    (hstep : proceed shell env d phase = some (d', phase')) :
    RowsKept d phase d' phase' := by
  cases proceed_cases hstep with
  | @received request => exact (Settled.receive env d request).kept rfl rfl
  | fails =>
    exact (Settled.refl d).kept (insertsWorkspace_fails phase _) (spawns_fails phase _)
  | mintsWorkspace | mintsTab =>
    refine Settled.kept (.of_eq ?_ ?_) ?_ ?_ <;> rfl
  | replies | probes | scans => exact (Settled.refl d).kept rfl rfl
  | @insertsTerminal ids cwd label _ hasFocusTarget =>
    have hcwds := insertWorkspace_cwds d ids.workspaceId label cwd [ids.tabId]
    have hplaces := insertTerminalTab_places
      (insertWorkspace d ids.workspaceId label cwd [ids.tabId]) ids cwd "Shell"
      none [shell]
    refine ⟨?_, fun _ => ?_⟩
    · cases hasFocusTarget <;> exact hcwds
    · cases hasFocusTarget <;> exact hplaces
  | @insertsEmpty ids cwd label =>
    have hcwds := insertWorkspace_cwds d ids.workspaceId label cwd []
    unfold createWorkspaceInsertEmpty
    dsimp only
    split
    · exact ⟨hcwds, fun _ => .refl _ _⟩
    · exact ⟨hcwds, fun _ => .refl _ _⟩
  | insertsTab hinsert =>
    obtain ⟨hcwds, hplaces⟩ := createTabInsert_rows hinsert
    exact ⟨hcwds, fun _ => hplaces⟩
  | @insertsAgent ids name argv cwd =>
    have hcwds := insertWorkspace_cwds d ids.workspaceId name cwd [ids.tabId]
    have hplaces := insertTerminalTab_places
      (insertWorkspace d ids.workspaceId name cwd [ids.tabId]) ids cwd name
      (some name) argv
    exact ⟨hcwds, fun _ => hplaces⟩
  | commits hcommit =>
    obtain ⟨tab, w, created, dropped, _, rfl, _, hcwds, _⟩ :=
      promoteTabCommit_rows hcommit
    refine ⟨?_, nofun⟩
    cases created <;> exact hcwds
  | @removes matching =>
    have hremoved := Settled.removeMatching matching (d, [])
    exact (hremoved.trans (.normalizeFocus env.order _)).kept rfl rfl

theorem requestStep_rows {shell : String} {a : Action}
    (hstep : requestStep shell a d phase = some (d', phase')) :
    RowsKept d phase d' phase' := by
  cases a with
  | submit request =>
    rcases requestStep_cases hstep with ⟨_, _, rfl, rfl, hidle⟩ | ⟨env, ha, _⟩
    · rcases hidle with rfl | ⟨result, rfl⟩
      · exact (Settled.refl d').kept rfl rfl
      · exact (Settled.refl d').kept rfl rfl
    · cases ha
  | proceed env => exact proceed_rows hstep

end Steps

end HerdrWebui.Builtin
