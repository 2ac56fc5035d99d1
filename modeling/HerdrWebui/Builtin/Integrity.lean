import HerdrWebui.Builtin.Coherence
import HerdrWebui.Builtin.Minting

/-!
Referential integrity of the registry over all runs of the backend. Every
critical section keeps the maps coherent and stays within the ids its request
may use; the non-interference rule lifts this to every interleaving.
-/

namespace HerdrWebui.Builtin

open Concurrency

/-- What is proved of one critical section. -/
structure Keeps (d : BuiltinData) (phase : Phase) (d' : BuiltinData)
    (phase' : Phase) : Prop where
  coherent : Coherent d' ∅ ∅
  accounts : Accounts d phase d' phase'

namespace Accounts

variable {d d' d'' : BuiltinData} {phase phase' : Phase}

theorem of_shrinks (h : Shrinks d d')
    (hnone : ∀ kind, phase'.reserved kind = none) :
    Accounts d phase d' phase' where
  counter := h.counter.ge
  uses kind id huse := .inl (h.uses kind id huse)
  reserves kind id hres := by simp [hnone kind] at hres

theorem shrink (h : Accounts d phase d' phase') (h' : Shrinks d' d'') :
    Accounts d phase d'' phase' where
  counter := h'.counter ▸ h.counter
  uses kind id huse := h'.counter ▸ h.uses kind id (h'.uses kind id huse)
  reserves kind id hres :=
    ⟨h'.counter ▸ (h.reserves kind id hres).1,
      fun huse => (h.reserves kind id hres).2 (h'.uses kind id huse)⟩

end Accounts

section Minting

theorem mintAll_nextId (d : BuiltinData) :
    (mintAll d).2.nextId = d.nextId + 4 := rfl

theorem mintTab_nextId (d : BuiltinData) (workspaceId : String) :
    (mintTab d workspaceId).2.nextId = d.nextId + 3 := rfl

theorem mintAll_accounts (d : BuiltinData) (phase phase' : Phase)
    (hres : ∀ kind, phase'.reserved kind = some ((mintAll d).1.id kind)) :
    Accounts d phase (mintAll d).2 phase' where
  counter := Nat.le_add_right d.nextId 4
  uses kind id huse := .inl (by cases kind <;> exact huse)
  reserves kind id hid := by
    rw [hres kind, Option.some.injEq] at hid
    subst hid
    rw [mintAll_nextId]
    refine ⟨?_, by cases kind <;> exact fun huse => huse⟩
    cases kind with
    | workspace => exact ⟨d.nextId, by omega, by omega, rfl⟩
    | tab => exact ⟨d.nextId + 1, by omega, by omega, rfl⟩
    | pane => exact ⟨d.nextId + 2, by omega, by omega, rfl⟩
    | terminal => exact ⟨d.nextId + 3, by omega, by omega, rfl⟩

theorem mintTab_accounts (d : BuiltinData) (workspaceId : String)
    (phase : Phase) (cwd : Path) (label : Option String) (focus : Bool) :
    Accounts d phase (mintTab d workspaceId).2
      (.createTabInsert (mintTab d workspaceId).1 cwd label focus) where
  counter := Nat.le_add_right d.nextId 3
  uses kind id huse := .inl (by cases kind <;> exact huse)
  reserves kind id hid := by
    rw [mintTab_nextId]
    refine ⟨?_, by cases kind <;> exact fun huse => huse⟩
    cases kind with
    | workspace => cases hid
    | tab =>
      obtain rfl := Option.some.inj hid
      exact ⟨d.nextId, by omega, by omega, rfl⟩
    | pane =>
      obtain rfl := Option.some.inj hid
      exact ⟨d.nextId + 1, by omega, by omega, rfl⟩
    | terminal =>
      obtain rfl := Option.some.inj hid
      exact ⟨d.nextId + 2, by omega, by omega, rfl⟩

end Minting

section Inserting

variable {d : BuiltinData} {ids : FreshIds}

/-- A workspace inserted with its first tab is an empty one the tab is then
appended to. -/
theorem insertWorkspaceTab_eq (d : BuiltinData) (ids : FreshIds)
    (label : String) (cwd : Path) (tabLabel : String)
    (paneLabel : Option String) (argv : List String) :
    insertTerminalTab (insertWorkspace d ids.workspaceId label cwd [ids.tabId])
        ids cwd tabLabel paneLabel argv =
      listTab (insertTerminalTab (insertWorkspace d ids.workspaceId label cwd [])
        ids cwd tabLabel paneLabel argv) ids.workspaceId ids.tabId := by
  simp [insertTerminalTab, insertWorkspace, listTab, Table.modify_insert_self]

theorem insertWorkspaceTab_coherent (h : Coherent d ∅ ∅)
    (hunused : ∀ kind, ¬ d.Uses kind (ids.id kind)) (label : String) (cwd : Path)
    (tabLabel : String) (paneLabel : Option String) (argv : List String) :
    Coherent (insertTerminalTab
      (insertWorkspace d ids.workspaceId label cwd [ids.tabId])
      ids cwd tabLabel paneLabel argv) ∅ ∅ := by
  rw [insertWorkspaceTab_eq]
  exact (h.insertWorkspace (hunused .workspace) label cwd).insertTab
    (Finmap.mem_insert.mpr (.inl rfl)) (hunused .tab) (hunused .pane)
    (hunused .terminal) cwd tabLabel paneLabel argv

theorem insertWorkspaceTab_accounts {phase phase' : Phase}
    (hres : ∀ kind, phase.reserved kind = some (ids.id kind))
    (hnone : ∀ kind, phase'.reserved kind = none) (d : BuiltinData)
    (label : String) (cwd : Path) (tabLabel : String)
    (paneLabel : Option String) (argv : List String) :
    Accounts d phase (insertTerminalTab
      (insertWorkspace d ids.workspaceId label cwd [ids.tabId])
      ids cwd tabLabel paneLabel argv) phase' where
  counter := le_rfl
  uses kind id huse := by
    have hcases : id = ids.id kind ∨ d.Uses kind id := by
      cases kind <;> exact Finmap.mem_insert.mp huse
    rcases hcases with rfl | hold
    · exact .inr (.inl (hres kind))
    · exact .inl hold
  reserves kind id hid := by simp [hnone kind] at hid

theorem createTabInsert_keeps {d' : BuiltinData} (h : Coherent d ∅ ∅)
    {shell : String} {cwd : Path} {label : Option String} {focus : Bool}
    (hunused : ReservedUnused d (.createTabInsert ids cwd label focus))
    {phase' : Phase} (hnone : ∀ kind, phase'.reserved kind = none)
    (hinsert : createTabInsert shell d ids cwd label focus = .ok d') :
    Keeps d (.createTabInsert ids cwd label focus) d' phase' := by
  unfold createTabInsert at hinsert
  split at hinsert
  · cases hinsert
  · next workspace hw =>
      obtain rfl := Except.ok.inj hinsert
      have hlisted := h.insertTab (Finmap.mem_of_lookup_eq_some hw)
        (hunused .tab _ rfl).2 (hunused .pane _ rfl).2 (hunused .terminal _ rfl).2
        cwd (label.getD "Shell") none [shell]
      have haccounts : Accounts d (.createTabInsert ids cwd label focus)
          (listTab (insertTerminalTab d ids cwd (label.getD "Shell") none [shell])
            ids.workspaceId ids.tabId) phase' :=
        { counter := le_rfl
          uses := by
            intro kind id huse
            cases kind with
            | workspace => exact .inl (Table.mem_modify.mp huse)
            | tab =>
              rcases Finmap.mem_insert.mp huse with rfl | hold
              · exact .inr (.inl rfl)
              · exact .inl hold
            | pane =>
              rcases Finmap.mem_insert.mp huse with rfl | hold
              · exact .inr (.inl rfl)
              · exact .inl hold
            | terminal =>
              rcases Finmap.mem_insert.mp huse with rfl | hold
              · exact .inr (.inl rfl)
              · exact .inl hold
          reserves := by
            intro kind id hid
            simp [hnone kind] at hid }
      split
      · exact ⟨hlisted.setFocus _ _ _, haccounts.shrink (.setFocus _ _ _ _)⟩
      · exact ⟨hlisted, haccounts⟩

theorem createWorkspaceInsert_keeps (h : Coherent d ∅ ∅) {phase phase' : Phase}
    (hres : ∀ kind, phase.reserved kind = some (ids.id kind))
    (hunused : ReservedUnused d phase)
    (hnone : ∀ kind, phase'.reserved kind = none) (shell : String) (cwd : Path)
    (label : String) (hasFocusTarget : Bool) :
    Keeps d phase (createWorkspaceInsert shell d ids cwd label hasFocusTarget)
      phase' := by
  have hinserted := insertWorkspaceTab_coherent h
    (fun kind => (hunused kind _ (hres kind)).2) label cwd "Shell" none [shell]
  have haccounts := insertWorkspaceTab_accounts (d := d) hres hnone label cwd
    "Shell" none [shell]
  unfold createWorkspaceInsert
  cases hasFocusTarget with
  | false => exact ⟨hinserted, haccounts⟩
  | true => exact ⟨hinserted.setFocus _ _ _, haccounts.shrink (.setFocus _ _ _ _)⟩

theorem createWorkspaceInsertEmpty_keeps (h : Coherent d ∅ ∅)
    {phase phase' : Phase}
    (hres : ∀ kind, phase.reserved kind = some (ids.id kind))
    (hunused : ReservedUnused d phase)
    (hnone : ∀ kind, phase'.reserved kind = none) (cwd : Path)
    (label : String) (focus : Bool) :
    Keeps d phase (createWorkspaceInsertEmpty d ids.workspaceId cwd label focus)
      phase' := by
  have hinserted := h.insertWorkspace (hunused .workspace _ (hres .workspace)).2
    label cwd
  have haccounts :
      Accounts d phase (insertWorkspace d ids.workspaceId label cwd []) phase' :=
    { counter := le_rfl
      uses := by
        intro kind id huse
        cases kind with
        | workspace =>
          rcases Finmap.mem_insert.mp huse with rfl | hold
          · exact .inr (.inl (hres .workspace))
          · exact .inl hold
        | tab => exact .inl huse
        | pane => exact .inl huse
        | terminal => exact .inl huse
      reserves := by
        intro kind id hid
        simp [hnone kind] at hid }
  unfold createWorkspaceInsertEmpty
  simp only
  split
  · exact ⟨hinserted.setFocus _ _ _, haccounts.shrink (.setFocus _ _ _ _)⟩
  · exact ⟨hinserted, haccounts⟩

theorem startAgentInsert_keeps (h : Coherent d ∅ ∅) {phase phase' : Phase}
    (hres : ∀ kind, phase.reserved kind = some (ids.id kind))
    (hunused : ReservedUnused d phase)
    (hnone : ∀ kind, phase'.reserved kind = none) (name : String)
    (argv : List String) (cwd : Path) :
    Keeps d phase (startAgentInsert d ids name argv cwd) phase' := by
  have hinserted := insertWorkspaceTab_coherent h
    (fun kind => (hunused kind _ (hres kind)).2) name cwd name (some name) argv
  have haccounts := insertWorkspaceTab_accounts (d := d) hres hnone name cwd
    name (some name) argv
  exact ⟨hinserted.setFocus _ _ _, haccounts.shrink (.setFocus _ _ _ _)⟩

end Inserting

section Closing

variable {d d' : BuiltinData} {phase phase' : Phase}

theorem Keeps.refl (h : Coherent d ∅ ∅) (hnone : ∀ kind, phase'.reserved kind = none) :
    Keeps d phase d phase' :=
  ⟨h, .of_shrinks (.refl d) hnone⟩

theorem closeWorkspace_keeps (h : Coherent d ∅ ∅) {order : IterationOrder}
    {w : String} (hclose : closeWorkspace order d w = .ok d') :
    Coherent d' ∅ ∅ ∧ Shrinks d d' := by
  unfold closeWorkspace at hclose
  split at hclose
  · cases hclose
  · next dropped hdrop =>
      obtain rfl := Except.ok.inj hclose
      exact ⟨(h.dropWorkspace hdrop).normalizeFocus order,
        (Shrinks.dropWorkspace hdrop).trans (.normalizeFocus order dropped)⟩

theorem closeTab_keeps (h : Coherent d ∅ ∅) {order : IterationOrder}
    {t : String} (hclose : closeTab order d t = .ok d') :
    Coherent d' ∅ ∅ ∧ Shrinks d d' := by
  unfold closeTab at hclose
  split at hclose
  · cases hclose
  · obtain rfl := Except.ok.inj hclose
    have hclosed : Coherent (closeTabLocked d t) ∅ ∅ := by
      simpa using h.closeTabLocked t
    exact ⟨hclosed.normalizeFocus order,
      (Shrinks.closeTabLocked d t).trans (.normalizeFocus order _)⟩

theorem closePane_keeps (h : Coherent d ∅ ∅) {order : IterationOrder}
    {p : String} (hclose : closePane order d p = .ok d') :
    Coherent d' ∅ ∅ ∧ Shrinks d d' := by
  unfold closePane at hclose
  split at hclose
  · cases hclose
  · next pane _ =>
      obtain rfl := Except.ok.inj hclose
      have hpane : Coherent (closePaneLocked d p) ∅ ∅ := by
        simpa using h.closePaneLocked p
      have htab : Coherent (closeTabLocked (closePaneLocked d p) pane.tabId) ∅ ∅ := by
        simpa using hpane.closeTabLocked pane.tabId
      have hshrinks := Shrinks.closePaneLocked d p
      split
      · exact ⟨(htab.normalizeFocus order).normalizeFocus order,
          ((hshrinks.trans (.closeTabLocked _ _)).trans
            (.normalizeFocus order _)).trans (.normalizeFocus order _)⟩
      · exact ⟨hpane.normalizeFocus order, hshrinks.trans (.normalizeFocus order _)⟩

theorem renameWorkspace_keeps (h : Coherent d ∅ ∅) {w label : String}
    (hrename : renameWorkspace d w label = .ok d') :
    Coherent d' ∅ ∅ ∧ Shrinks d d' := by
  unfold renameWorkspace at hrename
  split at hrename
  · cases hrename
  · obtain rfl := Except.ok.inj hrename
    exact ⟨h.modifyWorkspace w fun _ => ⟨rfl, rfl⟩, .modifyWorkspace d w _⟩

theorem renameTab_keeps (h : Coherent d ∅ ∅) {t label : String}
    (hrename : renameTab d t label = .ok d') :
    Coherent d' ∅ ∅ ∧ Shrinks d d' := by
  unfold renameTab at hrename
  split at hrename
  · cases hrename
  · obtain rfl := Except.ok.inj hrename
    exact ⟨h.modifyTab t fun _ => ⟨rfl, rfl, rfl⟩, .modifyTab d t _⟩

theorem worktreeOpenExisting_keeps (h : Coherent d ∅ ∅) (w : String)
    (label : Option String) :
    Coherent (worktreeOpenExisting d w label) ∅ ∅ ∧
      Shrinks d (worktreeOpenExisting d w label) := by
  unfold worktreeOpenExisting
  cases label with
  | none => exact ⟨h.setFocus _ _ _, .setFocus d _ _ _⟩
  | some label =>
    have hrenamed := h.modifyWorkspace w
      (f := fun workspace => { workspace with label := label })
      fun _ => ⟨rfl, rfl⟩
    exact ⟨hrenamed.setFocus _ _ _,
      (Shrinks.modifyWorkspace d w _).trans (.setFocus _ _ _ _)⟩

theorem removeMatching_keeps (matching : List String)
    (acc : BuiltinData × List String) (h : Coherent acc.1 ∅ ∅) :
    Coherent (matching.foldl removeMatching acc).1 ∅ ∅ ∧
      Shrinks acc.1 (matching.foldl removeMatching acc).1 := by
  induction matching generalizing acc with
  | nil => exact ⟨h, .refl _⟩
  | cons w matching ih =>
    obtain ⟨d, dropped⟩ := acc
    rw [List.foldl_cons]
    cases hdrop : dropWorkspace d w with
    | none =>
      have hsame : removeMatching (d, dropped) w = (d, dropped) := by
        simp [removeMatching, hdrop]
      rw [hsame]
      exact ih (d, dropped) h
    | some d' =>
      have hnext : removeMatching (d, dropped) w = (d', dropped ++ [w]) := by
        simp [removeMatching, hdrop]
      rw [hnext]
      obtain ⟨hcoherent, hshrinks⟩ :=
        ih (d', dropped ++ [w]) (h.dropWorkspace hdrop)
      exact ⟨hcoherent, (Shrinks.dropWorkspace hdrop).trans hshrinks⟩

theorem promotionTarget_keeps (phase : Phase) (h : Coherent d ∅ ∅) (hminted : AllMinted d)
    (hnone : ∀ kind, phase'.reserved kind = none) (env : Environment) (live : Path) :
    Keeps d phase (promotionTarget env d live).2.2 phase' ∧
      (promotionTarget env d live).1 ∈ (promotionTarget env d live).2.2.workspaces ∧
      (promotionTarget env d live).2.2.tabs = d.tabs := by
  unfold promotionTarget
  split
  · next existing hhead =>
      have hvalue := List.mem_of_mem_filter (List.mem_of_head? hhead)
      obtain ⟨w, hw⟩ := mem_workspaceValues.mp hvalue
      obtain rfl := h.workspace_key w existing hw
      exact ⟨.refl h hnone, Finmap.mem_of_lookup_eq_some hw, rfl⟩
  · have hnew : MintedIn d.nextId (d.nextId + 1) .workspace (idText "ws" d.nextId) :=
      ⟨d.nextId, le_rfl, Nat.lt_succ_self _, rfl⟩
    have hfresh : idText "ws" d.nextId ∉ d.workspaces :=
      fun huse => hnew.disjoint (hminted .workspace _ huse)
    have hcounted : Coherent { d with nextId := d.nextId + 1 } ∅ ∅ :=
      h.of_maps rfl rfl rfl rfl
    refine ⟨⟨hcounted.insertWorkspace hfresh _ live, ?_⟩,
      Finmap.mem_insert.mpr (.inl rfl), rfl⟩
    exact
      { counter := Nat.le_succ _
        uses := by
          intro kind id huse
          cases kind with
          | workspace =>
            rcases Finmap.mem_insert.mp huse with rfl | hold
            · exact .inr (.inr hnew)
            · exact .inl hold
          | tab => exact .inl huse
          | pane => exact .inl huse
          | terminal => exact .inl huse
        reserves := by
          intro kind id hid
          simp [hnone kind] at hid }

theorem promoteTabCommit_keeps (h : Coherent d ∅ ∅) (hminted : AllMinted d)
    (hnone : ∀ kind, phase'.reserved kind = none) {env : Environment}
    {t p : String} {live : Path} {reply : Reply}
    (hcommit : promoteTabCommit env d t p live = .ok (d', reply)) :
    Keeps d phase d' phase' := by
  unfold promoteTabCommit at hcommit
  split at hcommit
  · cases hcommit
  · next tab htab =>
      simp only at hcommit
      split at hcommit
      · cases hcommit
      · obtain rfl := (Prod.mk.inj (Except.ok.inj hcommit)).1
        obtain ⟨htarget, hmem, htabs⟩ :=
          promotionTarget_keeps phase h hminted hnone env live
        have hmoved := htarget.coherent.moveTab (htabs ▸ htab) hmem live
        have hdropped := hmoved.dropEmptied tab.workspaceId
        exact ⟨(hdropped.setFocus _ _ _).normalizeFocus env.order,
          (((htarget.accounts.shrink (.moveTab _ _ _ _ _)).shrink
            (.dropEmptied _ _)).shrink (.setFocus _ _ _ _)).shrink
            (.normalizeFocus env.order _)⟩

end Closing

section CriticalSections

variable {d d' : BuiltinData} {phase phase' : Phase}

theorem answer_keeps (h : Coherent d ∅ ∅) {result : Except String BuiltinData}
    (hok : ∀ d', result = .ok d' → Coherent d' ∅ ∅ ∧ Shrinks d d') :
    Keeps d phase (answer d result).1 (answer d result).2 := by
  cases result with
  | error message => exact .refl h fun _ => rfl
  | ok d' =>
    obtain ⟨hcoherent, hshrinks⟩ := hok d' rfl
    exact ⟨hcoherent, .of_shrinks hshrinks fun _ => rfl⟩

theorem receive_keeps (h : Coherent d ∅ ∅) (env : Environment)
    (request : Request) :
    Keeps d phase (receive env d request).1 (receive env d request).2 := by
  cases request with
  | workspaceCreate cwd label openTerminal => exact .refl h fun _ => rfl
  | workspaceRename w label =>
    exact answer_keeps h fun _ hok => renameWorkspace_keeps h hok
  | workspaceClose w =>
    exact answer_keeps h fun _ hok => closeWorkspace_keeps h hok
  | tabCreate w label focus =>
    simp only [receive]
    split
    · exact .refl h fun _ => rfl
    · split <;> exact .refl h fun _ => rfl
  | tabRename t label => exact answer_keeps h fun _ hok => renameTab_keeps h hok
  | tabClose t => exact answer_keeps h fun _ hok => closeTab_keeps h hok
  | tabPromote t =>
    simp only [receive]
    split
    · exact .refl h fun _ => rfl
    · split
      · exact .refl h fun _ => rfl
      · split <;> exact .refl h fun _ => rfl
  | paneClose p => exact answer_keeps h fun _ hok => closePane_keeps h hok
  | agentStart name argv cwd =>
    exact ⟨h.of_maps rfl rfl rfl rfl, mintAll_accounts d _ _ fun _ => rfl⟩
  | worktreeOpen path cwd label openTerminal =>
    simp only [receive]
    split
    · exact .refl h fun _ => rfl
    · split
      · next existing _ =>
          obtain ⟨hcoherent, hshrinks⟩ :=
            worktreeOpenExisting_keeps h existing.workspaceId label
          exact ⟨hcoherent, .of_shrinks hshrinks fun _ => rfl⟩
      · exact .refl h fun _ => rfl
  | worktreeRemove w path repoRoot cwd =>
    simp only [receive]
    split
    · exact .refl h fun _ => rfl
    · split
      · exact .refl h fun _ => rfl
      · split <;> exact .refl h fun _ => rfl

theorem proceed_keeps (h : Coherent d ∅ ∅) (hminted : AllMinted d)
    (hunused : ReservedUnused d phase) {shell : String} {env : Environment}
    (hstep : proceed shell env d phase = some (d', phase')) :
    Keeps d phase d' phase' := by
  cases proceed_cases hstep with
  | received => exact receive_keeps h env _
  | fails | replies | probes | scans => exact .refl h fun _ => rfl
  | mintsWorkspace =>
    exact ⟨h.of_maps rfl rfl rfl rfl, mintAll_accounts d _ _ fun _ => rfl⟩
  | insertsTerminal =>
    exact createWorkspaceInsert_keeps h (fun _ => rfl) hunused (fun _ => rfl) shell _ _ _
  | insertsEmpty =>
    exact createWorkspaceInsertEmpty_keeps h (fun _ => rfl) hunused (fun _ => rfl) _ _ _
  | @mintsTab w cwd label focus =>
    exact ⟨h.of_maps rfl rfl rfl rfl, mintTab_accounts d w _ cwd label focus⟩
  | insertsTab hinsert => exact createTabInsert_keeps h hunused (fun _ => rfl) hinsert
  | insertsAgent =>
    exact startAgentInsert_keeps h (fun _ => rfl) hunused (fun _ => rfl) _ _ _
  | commits hcommit => exact promoteTabCommit_keeps h hminted (fun _ => rfl) hcommit
  | @removes matching =>
    obtain ⟨hcoherent, hshrinks⟩ := removeMatching_keeps matching (d, []) h
    exact ⟨hcoherent.normalizeFocus env.order,
      .of_shrinks (hshrinks.trans (.normalizeFocus env.order _)) fun _ => rfl⟩

theorem requestStep_keeps (h : Coherent d ∅ ∅) (hminted : AllMinted d)
    (hunused : ReservedUnused d phase) {shell : String} {a : Action}
    (hstep : requestStep shell a d phase = some (d', phase')) :
    Keeps d phase d' phase' := by
  cases a with
  | submit request =>
    rcases requestStep_cases hstep with ⟨_, _, rfl, rfl, _⟩ | ⟨env, ha, _⟩
    · exact .refl h fun _ => rfl
    · cases ha
  | proceed env => exact proceed_keeps h hminted hunused hstep

end CriticalSections

/-- A critical section among those of other requests: the registry stays coherent,
and every request keeps what it reserved. -/
theorem Keeps.interleaved {d d' : BuiltinData} {phase phase' : Phase}
    (h : Keeps d phase d' phase') (hminted : AllMinted d)
    (hunused : ReservedUnused d phase) :
    (Coherent d' ∅ ∅ ∧ AllMinted d') ∧ ReservedUnused d' phase' ∧
      ∀ other, ReservedUnused d other → ReservedApart phase other →
        ReservedUnused d' other ∧ ReservedApart phase' other :=
  ⟨⟨h.coherent, h.accounts.allMinted hminted hunused⟩,
    h.accounts.reservedUnused hminted,
    fun _ hother hapart => ⟨h.accounts.other_reservedUnused hother hapart,
      h.accounts.other_apart hother⟩⟩

theorem ReservedApart.symm {phase other : Phase} (h : ReservedApart phase other) :
    ReservedApart other phase :=
  fun kind id hres hres' => h kind id hres' hres

theorem AllMinted.new : AllMinted .new := by
  rintro (_ | _ | _ | _) id huse <;> exact absurd huse Finmap.notMem_empty

/-- Every reachable registry is coherent and holds minted ids only, and the
ids under way are unused and distinct. -/
theorem backend_holds {shell : String} {c : Pool BuiltinData Phase}
    (h : (backend shell).system.Reachable c) :
    Program.Holds (fun d => Coherent d ∅ ∅ ∧ AllMinted d) ReservedUnused
      ReservedApart c := by
  refine Program.Holds.of_reachVia ?_ ?_ ?_ ?_ h
  · rintro _ rfl
    refine ⟨⟨.new, .new⟩, ?_⟩
    intro kind id hres
    cases hres
  · intro kind id hres
    cases hres
  · exact fun _ _ hapart => hapart.symm
  · intro c i a d' phase' hc _ hstep
    obtain ⟨hcoherent, hminted⟩ := hc.shared
    have hkeeps := requestStep_keeps hcoherent hminted (hc.thread i) hstep
    exact hkeeps.interleaved hminted (hc.thread i)

/-- Every reference of the registry is to an existing record, and every record
below a workspace is referred to exactly once. -/
structure ReferentialIntegrity (d : BuiltinData) : Prop where
  tab_listed : ∀ t tab, d.tabs.lookup t = some tab →
    ∃ workspace, d.workspaces.lookup tab.workspaceId = some workspace ∧
      workspace.tabIds.count t = 1
  tab_elsewhere : ∀ t tab w workspace, d.tabs.lookup t = some tab →
    d.workspaces.lookup w = some workspace → w ≠ tab.workspaceId →
    workspace.tabIds.count t = 0
  listed_tab : ∀ w workspace t, d.workspaces.lookup w = some workspace →
    t ∈ workspace.tabIds → t ∈ d.tabs
  pane_listed : ∀ p pane, d.panes.lookup p = some pane →
    ∃ tab, d.tabs.lookup pane.tabId = some tab ∧ tab.paneIds.count p = 1 ∧
      pane.workspaceId = tab.workspaceId
  pane_terminal : ∀ p pane, d.panes.lookup p = some pane →
    pane.terminalId ∈ d.terminals
  terminal_pane : ∀ x, x ∈ d.terminals →
    ∃! p, ∃ pane, d.panes.lookup p = some pane ∧ pane.terminalId = x

theorem Coherent.referentialIntegrity {d : BuiltinData} (h : Coherent d ∅ ∅) :
    ReferentialIntegrity d where
  tab_listed t tab ht := by
    obtain ⟨workspace, hw, hmem⟩ := h.tab_listed t tab ht (by simp)
    exact ⟨workspace, hw,
      List.count_eq_one_of_mem (h.tabs_nodup _ _ hw) hmem⟩
  tab_elsewhere t tab w workspace ht hw hne := by
    refine List.count_eq_zero.mpr fun hmem => hne ?_
    obtain ⟨tab', ht', rfl⟩ := h.listed_tab w workspace t hw hmem
    rw [ht, Option.some.injEq] at ht'
    rw [ht']
  listed_tab w workspace t hw hmem := by
    obtain ⟨tab, ht, _⟩ := h.listed_tab w workspace t hw hmem
    exact Finmap.mem_of_lookup_eq_some ht
  pane_listed p pane hp := by
    obtain ⟨tab, ht, hmem, hws⟩ := h.pane_listed p pane hp (by simp)
    exact ⟨tab, ht, List.count_eq_one_of_mem (h.panes_nodup _ _ ht) hmem, hws⟩
  pane_terminal p pane hp := by
    obtain ⟨terminal, hx⟩ := h.pane_terminal p pane hp
    exact Finmap.mem_of_lookup_eq_some hx
  terminal_pane x hx := by
    obtain ⟨terminal, hx⟩ := Finmap.mem_iff.mp hx
    obtain ⟨p, pane, hp, rfl⟩ := h.terminal_pane x terminal hx
    refine ⟨p, ⟨pane, hp, rfl⟩, ?_⟩
    rintro q ⟨other, hq, heq⟩
    exact h.terminal_unique q p other pane hq hp heq

/-- Referential integrity holds in every state of every run, whatever the
number of requests and the order of their critical sections. -/
theorem backend_referentialIntegrity (shell : String)
    (c : Pool BuiltinData Phase) (h : (backend shell).system.Reachable c) :
    ReferentialIntegrity c.shared :=
  (backend_holds h).shared.1.referentialIntegrity

/-- A machine on which every path is its own canonical path and nothing
fails. -/
def plainEnvironment : Environment where
  currentDir := "/work"
  spawn := .ok ()
  canonicalize := some
  canonicalizeCwd := some
  liveCwd := none
  isDir _ := true
  git := .ok ()
  order := .ascending

/-- The machine finds the shell of a pane in another directory. -/
def movedEnvironment : Environment := { plainEnvironment with liveCwd := some "/other" }

/-- A workspace and an agent created at the same time: both requests hold
minted ids before either inserts them. -/
def overlappingCreates : List (Nat × Action) :=
  [(0, .submit (.workspaceCreate (some "/work") none none)),
    (0, .proceed plainEnvironment),
    (0, .proceed plainEnvironment),
    (1, .submit (.agentStart "agent" [] none)),
    (1, .proceed plainEnvironment),
    (0, .proceed plainEnvironment),
    (1, .proceed plainEnvironment)]

theorem overlappingCreates_referentialIntegrity :
    ∃ c, (backend "sh").system.run ((backend "sh").start .new)
        overlappingCreates = some c ∧
      c.shared.tabs.keys = {"tab_2", "tab_6"} ∧ ReferentialIntegrity c.shared := by
  have hrun : ((backend "sh").system.run ((backend "sh").start .new)
      overlappingCreates).isSome := by decide
  refine ⟨_, (Option.some_get hrun).symm, by decide +revert, ?_⟩
  exact backend_referentialIntegrity "sh" _
    (System.reachable_get (Program.system_init _ rfl) hrun)

end HerdrWebui.Builtin
