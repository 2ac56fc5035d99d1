import HerdrWebui.Builtin.Rows

/-!
The place a pane event names. A terminal runtime is given its event context when it
is spawned and publishes with it ever after; `tab.promote` rewrites the rows of the
registry later on. The runtimes publish at any time, also after their pane is gone.
-/

namespace HerdrWebui.Builtin

open Concurrency Table

inductive PaneEventKind where
  | agentStatusChanged
  | exited
  deriving DecidableEq

structure PaneEvent where
  kind : PaneEventKind
  context : PaneEventContext
  /-- The registry at the time of publishing. -/
  registry : BuiltinData
  /-- The workspace the tab had last been moved to by then. -/
  movedTo : Option String

structure PublishingBackend where
  data : BuiltinData
  /-- The event contexts of the terminals spawned. -/
  contexts : List PaneEventContext
  /-- Where each tab was moved to last, since it was created. -/
  movedTo : Table String String
  events : List PaneEvent

def PublishingBackend.start : PublishingBackend := ⟨.new, [], ∅, []⟩

def FreshIds.context (ids : FreshIds) : PaneEventContext :=
  ⟨ids.workspaceId, ids.tabId, ids.paneId, ids.terminalId⟩

def movedAfter (movedTo : Table String String) (phase phase' : Phase) :
    Table String String :=
  match spawns phase phase', moves phase phase' with
  | some ids, _ => movedTo.erase ids.tabId
  | none, some (t, w) => movedTo.insert t w
  | none, none => movedTo

inductive PublishingAction where
  | request (action : Action)
  | publish (n : Nat) (kind : PaneEventKind)

def publishingStep (shell : String) (a : PublishingAction) (s : PublishingBackend)
    (phase : Phase) : Option (PublishingBackend × Phase) :=
  match a with
  | .request action =>
    (requestStep shell action s.data phase).map fun next =>
      ({ s with
          data := next.1
          contexts := s.contexts ++ (spawns phase next.2).toList.map (·.context)
          movedTo := movedAfter s.movedTo phase next.2 }, next.2)
  | .publish n kind =>
    s.contexts[n]?.map fun context =>
      ({ s with
          events := s.events ++
            [⟨kind, context, s.data, s.movedTo.lookup context.tabId⟩] }, phase)

/-- The backend with its terminals publishing. -/
def publishingBackend (shell : String) :
    Program PublishingBackend Phase PublishingAction where
  init s := s = .start
  idle := .idle
  step := publishingStep shell

/-- The pane of the terminal that publishes is registered. -/
def PaneEvent.Registered (e : PaneEvent) : Prop :=
  ∃ p pane, e.registry.panes.lookup p = some pane ∧
    pane.terminalId = e.context.terminalId

/-- The event names the place its pane is registered under. -/
def PaneEvent.NamesPlace (e : PaneEvent) : Prop :=
  ∀ p pane, e.registry.panes.lookup p = some pane →
    pane.terminalId = e.context.terminalId →
    e.context.workspaceId = pane.workspaceId ∧ e.context.tabId = pane.tabId ∧
      e.context.paneId = p

/-- The tab was not moved since its terminal was spawned, or moved back. -/
def PaneEvent.InPlace (e : PaneEvent) : Prop :=
  ∀ w, e.movedTo = some w → w = e.context.workspaceId

/-- A registered pane is where its terminal was spawned for, or in the workspace its
tab was moved to. -/
def Placed (d : BuiltinData) (contexts : List PaneEventContext)
    (movedTo : Table String String) : Prop :=
  ∀ p pane, d.panes.lookup p = some pane → ∀ context ∈ contexts,
    context.terminalId = pane.terminalId →
    context.paneId = p ∧ context.tabId = pane.tabId ∧
      pane.workspaceId = (movedTo.lookup pane.tabId).getD context.workspaceId

/-- No terminal was spawned yet for the id that a request reserves. -/
def TerminalUnspawned (contexts : List PaneEventContext) (phase : Phase) : Prop :=
  ∀ id, phase.reserved .terminal = some id →
    ∀ context ∈ contexts, context.terminalId ≠ id

section Steps

variable {d d' : BuiltinData} {contexts : List PaneEventContext}
  {movedTo : Table String String} {phase phase' : Phase}

theorem spawns_reserved {ids : FreshIds} (h : spawns phase phase' = some ids) :
    phase.reserved .tab = some ids.tabId ∧
      phase.reserved .terminal = some ids.terminalId := by
  unfold spawns at h
  split at h
  · cases h
    exact ⟨rfl, rfl⟩
  · cases h
    exact ⟨rfl, rfl⟩
  · cases h
    exact ⟨rfl, rfl⟩
  · cases h

theorem spawns_moves (h : spawns phase phase' ≠ none) : moves phase phase' = none := by
  unfold moves
  split
  · exact absurd rfl h
  · rfl

theorem Placed.settled (h : Placed d contexts movedTo)
    (hrows : RowsFrom PaneRecord.place none d.panes d'.panes) :
    Placed d' contexts movedTo := by
  intro p pane' hpane' context hcontext hterminal
  obtain ⟨pane, hpane, hplace⟩ := hrows.old hpane'
  obtain ⟨hx, hrest⟩ := Prod.mk.inj hplace
  obtain ⟨ht, hw⟩ := Prod.mk.inj hrest
  rw [← hx] at hterminal
  rw [← ht, ← hw]
  exact h p pane hpane context hcontext hterminal

theorem Placed.spawned (h : Placed d contexts movedTo) (hcoherent : Coherent d ∅ ∅)
    {ids : FreshIds} (htab : ids.tabId ∉ d.tabs) (hterminal : ids.terminalId ∉ d.terminals)
    (hunspawned : ∀ context ∈ contexts, context.terminalId ≠ ids.terminalId)
    (hrows : RowsFrom PaneRecord.place (some ids.row) d.panes d'.panes) :
    Placed d' (contexts ++ [ids.context]) (movedTo.erase ids.tabId) := by
  intro p pane' hpane' context hcontext hsame
  rw [List.mem_append, List.mem_singleton] at hcontext
  rcases hrows p pane' hpane' with hnew | ⟨_, pane, hpane, hplace⟩
  · obtain ⟨rfl, hplace⟩ := Prod.mk.inj (Option.some.inj hnew)
    obtain ⟨hx, hrest⟩ := Prod.mk.inj hplace
    obtain ⟨ht, hw⟩ := Prod.mk.inj hrest
    rcases hcontext with hold | rfl
    · exact absurd (hsame.trans hx.symm) (hunspawned context hold)
    · refine ⟨rfl, ht, ?_⟩
      rw [← ht, lookup_erase_eq, if_pos rfl]
      exact hw.symm
  · obtain ⟨hx, hrest⟩ := Prod.mk.inj hplace
    obtain ⟨ht, hw⟩ := Prod.mk.inj hrest
    rw [← hx] at hsame
    rw [← ht, ← hw]
    rcases hcontext with hold | rfl
    · have hother : pane.tabId ≠ ids.tabId := by
        intro heq
        obtain ⟨tab, hlisted, _⟩ := hcoherent.pane_listed p pane hpane (by simp)
        rw [heq] at hlisted
        exact htab (Finmap.mem_of_lookup_eq_some hlisted)
      rw [lookup_erase_eq, if_neg hother]
      exact h p pane hpane context hold hsame
    · obtain ⟨terminal, hlisted⟩ := hcoherent.pane_terminal p pane hpane
      rw [← hsame] at hlisted
      exact absurd (Finmap.mem_of_lookup_eq_some hlisted) hterminal

theorem Placed.moved (h : Placed d contexts movedTo) (hcoherent : Coherent d ∅ ∅)
    {t w : String} {tab : TabRecord} {live : Path} (htab : d.tabs.lookup t = some tab)
    (hpanes : d'.panes = (moveTab d t tab w live).panes) :
    Placed d' contexts (movedTo.insert t w) := by
  intro p pane' hpane' context hcontext hsame
  rw [hpanes] at hpane'
  obtain ⟨pane, hpane, rfl⟩ := Coherent.lookup_panes_moveTab.mp hpane'
  by_cases hmem : p ∈ tab.paneIds
  · rw [if_pos hmem] at hsame ⊢
    obtain ⟨pane₀, hpane₀, hhome⟩ := hcoherent.listed_pane t tab p htab hmem
    obtain rfl := Option.some.inj (hpane₀.symm.trans hpane)
    obtain ⟨hp, ht, _⟩ := h p _ hpane context hcontext hsame
    refine ⟨hp, ht, ?_⟩
    dsimp only
    rw [hhome, lookup_insert_eq, if_pos rfl]
    rfl
  · rw [if_neg hmem] at hsame ⊢
    have hother : pane.tabId ≠ t := by
      intro heq
      obtain ⟨tab', htab', hlisted, _⟩ := hcoherent.pane_listed p pane hpane (by simp)
      rw [heq, htab] at htab'
      obtain rfl := Option.some.inj htab'
      exact hmem hlisted
    rw [lookup_insert_eq, if_neg hother]
    exact h p pane hpane context hcontext hsame

theorem moves_panes {shell : String} {a : Action}
    (hstep : requestStep shell a d phase = some (d', phase')) {t w : String}
    (hmoves : moves phase phase' = some (t, w)) :
    ∃ tab live, d.tabs.lookup t = some tab ∧ d'.panes = (moveTab d t tab w live).panes := by
  rcases requestStep_cases hstep with ⟨_, _, _, rfl, hidle⟩ | ⟨env, _, hsection⟩
  · rcases hidle with rfl | ⟨result, rfl⟩ <;> cases hmoves
  · obtain ⟨p, live, reply, hphase, hphase', hcommit⟩ := hsection.moves hmoves
    rw [hphase, hphase'] at hmoves
    obtain ⟨tab, w', created, dropped, htab, rfl, hpanes, _⟩ := promoteTabCommit_rows hcommit
    obtain ⟨_, rfl⟩ := Prod.mk.inj (Option.some.inj hmoves)
    exact ⟨tab, live, htab, hpanes⟩

theorem Placed.step (h : Placed d contexts movedTo) (hcoherent : Coherent d ∅ ∅)
    (hunused : ReservedUnused d phase) (hunspawned : TerminalUnspawned contexts phase)
    {shell : String} {a : Action}
    (hstep : requestStep shell a d phase = some (d', phase')) :
    Placed d' (contexts ++ (spawns phase phase').toList.map (·.context))
      (movedAfter movedTo phase phase') := by
  have hplaces := (requestStep_rows hstep).places
  unfold movedAfter
  cases hspawns : spawns phase phase' with
  | some ids =>
    obtain ⟨htab, hterminal⟩ := spawns_reserved hspawns
    rw [hspawns] at hplaces
    refine h.spawned hcoherent (hunused .tab _ htab).2 (hunused .terminal _ hterminal).2
      (hunspawned _ hterminal) (hplaces (spawns_moves ?_))
    rw [hspawns]
    exact Option.some_ne_none ids
  | none =>
    rw [hspawns] at hplaces
    simp only [Option.toList_none, List.map_nil, List.append_nil]
    cases hmoves : moves phase phase' with
    | none => exact h.settled (hplaces hmoves)
    | some move =>
      obtain ⟨tab, live, htab, hpanes⟩ := moves_panes hstep hmoves
      exact h.moved hcoherent htab hpanes

theorem TerminalUnspawned.step (hminted : ∀ context ∈ contexts,
      MintedIn 0 d.nextId .terminal context.terminalId)
    (haccounts : Accounts d phase d' phase') : TerminalUnspawned contexts phase' := by
  intro id hres context hcontext heq
  have hold := hminted context hcontext
  rw [heq] at hold
  exact (haccounts.reserves .terminal id hres).1.disjoint hold

theorem mem_contextsAfter {context : PaneEventContext}
    (h : context ∈ contexts ++ (spawns phase phase').toList.map (·.context)) :
    context ∈ contexts ∨ phase.reserved .terminal = some context.terminalId := by
  rcases List.mem_append.mp h with hold | hnew
  · exact .inl hold
  · right
    obtain ⟨ids, hids, rfl⟩ := List.mem_map.mp hnew
    exact (spawns_reserved (Option.mem_toList.mp hids)).2

end Steps

/-- What the event says and what the registry says differ by the last move at most. -/
def PaneEvent.Sound (e : PaneEvent) : Prop :=
  ∀ p pane, e.registry.panes.lookup p = some pane →
    pane.terminalId = e.context.terminalId →
    e.context.paneId = p ∧ e.context.tabId = pane.tabId ∧
      pane.workspaceId = e.movedTo.getD e.context.workspaceId

structure PublishingInvariant (s : PublishingBackend) : Prop where
  coherent : Coherent s.data ∅ ∅
  allMinted : AllMinted s.data
  minted : ∀ context ∈ s.contexts, MintedIn 0 s.data.nextId .terminal context.terminalId
  placed : Placed s.data s.contexts s.movedTo
  events : ∀ e ∈ s.events, e.Sound

theorem publishingBackend_holds {shell : String} {c : Pool PublishingBackend Phase}
    (h : (publishingBackend shell).system.Reachable c) :
    Program.Holds PublishingInvariant
      (fun s phase => ReservedUnused s.data phase ∧ TerminalUnspawned s.contexts phase)
      ReservedApart c := by
  refine Program.Holds.of_reachVia ?_ ?_ ?_ ?_ h
  · rintro _ rfl
    refine ⟨⟨.new, .new, nofun, nofun, nofun⟩, ?_, ?_⟩
    · intro kind id hres
      cases hres
    · intro id hres
      cases hres
  · intro kind id hres
    cases hres
  · exact fun _ _ hapart => hapart.symm
  · intro c i a s' phase' hc _ hstep
    have hinv := hc.shared
    obtain ⟨hunused, hunspawned⟩ := hc.thread i
    cases a with
    | request action =>
      obtain ⟨⟨d', next⟩, hrequest, hpair⟩ := Option.map_eq_some_iff.mp hstep
      obtain ⟨rfl, rfl⟩ := Prod.mk.inj hpair
      have hkeeps := requestStep_keeps hinv.coherent hinv.allMinted hunused hrequest
      obtain ⟨⟨hcoherent, hminted⟩, hself, hothers⟩ :=
        hkeeps.interleaved hinv.allMinted hunused
      have hcontexts (context : PaneEventContext) (hcontext : context ∈ c.shared.contexts ++
          (spawns (c.threads i) next).toList.map (·.context)) :
          MintedIn 0 c.shared.data.nextId .terminal context.terminalId := by
        rcases mem_contextsAfter hcontext with hold | hreserved
        · exact hinv.minted context hold
        · exact (hunused .terminal _ hreserved).1
      refine ⟨?_, ⟨hself, .step hcontexts hkeeps.accounts⟩, ?_⟩
      · exact
          { coherent := hcoherent
            allMinted := hminted
            minted := fun context hcontext =>
              (hcontexts context hcontext).mono le_rfl hkeeps.accounts.counter
            placed := hinv.placed.step hinv.coherent hunused hunspawned hrequest
            events := hinv.events }
      · intro other hother hapart
        obtain ⟨hother', hapart'⟩ := hothers other hother.1 hapart
        refine ⟨⟨hother', ?_⟩, hapart'⟩
        intro id hres context hcontext heq
        rcases mem_contextsAfter hcontext with hold | hreserved
        · exact hother.2 id hres context hold heq
        · rw [heq] at hreserved
          exact hapart .terminal id hreserved hres
    | publish n kind =>
      obtain ⟨context, hcontext, hpair⟩ := Option.map_eq_some_iff.mp hstep
      obtain ⟨rfl, rfl⟩ := Prod.mk.inj hpair
      refine ⟨{ hinv with events := ?_ }, ⟨hunused, hunspawned⟩, ?_⟩
      · intro e he
        rcases List.mem_append.mp he with hold | hnew
        · exact hinv.events e hold
        · obtain rfl := List.mem_singleton.mp hnew
          intro p pane hpane hterminal
          obtain ⟨hp, ht, hw⟩ := hinv.placed p pane hpane context
            (List.mem_of_getElem? hcontext) hterminal.symm
          refine ⟨hp, ht, ?_⟩
          dsimp only
          rwa [ht]
      · exact fun other hother hapart => ⟨hother, hapart⟩

/-- A pane event published in any run names the place its pane is registered under
exactly if the pane is no longer registered, or its tab was not moved since the
terminal was spawned, or was moved back last. -/
theorem paneEvents_namePlace_iff {shell : String} {c : Pool PublishingBackend Phase}
    (h : (publishingBackend shell).system.Reachable c) :
    ∀ e ∈ c.shared.events, e.NamesPlace ↔ (e.Registered → e.InPlace) := by
  intro e he
  have hsound := (publishingBackend_holds h).shared.events e he
  constructor
  · rintro hnames ⟨p, pane, hpane, hterminal⟩ w hw
    obtain ⟨hworkspace, _⟩ := hnames p pane hpane hterminal
    obtain ⟨_, _, hmoved⟩ := hsound p pane hpane hterminal
    rw [hw, Option.getD_some] at hmoved
    exact hmoved.symm.trans hworkspace.symm
  · intro hplace p pane hpane hterminal
    obtain ⟨hp, ht, hmoved⟩ := hsound p pane hpane hterminal
    refine ⟨?_, ht, hp⟩
    have hin := hplace ⟨p, pane, hpane, hterminal⟩
    cases hlast : e.movedTo with
    | none =>
      rw [hlast] at hmoved
      exact hmoved.symm
    | some w =>
      rw [hlast, Option.getD_some] at hmoved
      exact (hmoved.trans (hin w hlast)).symm

/-- A workspace with a terminal; its tab is promoted, or not; the terminal reports. -/
def reports (promoted : Bool) : List (Nat × PublishingAction) :=
  let requests : List Action :=
    [.submit (.workspaceCreate (some "/work") none none), .proceed plainEnvironment,
      .proceed plainEnvironment, .proceed plainEnvironment, .proceed plainEnvironment] ++
    if promoted then
      [.submit (.tabPromote "tab_2"), .proceed movedEnvironment,
        .proceed movedEnvironment, .proceed movedEnvironment]
    else []
  requests.map (fun action => (0, .request action)) ++
    [(1, .publish 0 .agentStatusChanged)]

/-- The place an event names, where its tab was moved to, and the place of a pane. -/
def PaneEvent.seen (p : String) (e : PaneEvent) :
    (PaneEventContext × Option String) × Option (String × String × String) :=
  ((e.context, e.movedTo), (e.registry.panes.lookup p).map PaneRecord.place)

theorem reportInPlace_namesPlace :
    ∃ c e, (publishingBackend "sh").system.run ((publishingBackend "sh").start .start)
        (reports false) = some c ∧
      c.shared.events.head? = some e ∧ e.context.workspaceId = "ws_1" ∧
      e.Registered ∧ e.NamesPlace := by
  have hrun : ((publishingBackend "sh").system.run ((publishingBackend "sh").start .start)
      (reports false)).isSome := by
    decide +kernel
  have hseen : (((publishingBackend "sh").system.run
      ((publishingBackend "sh").start .start) (reports false)).get
      hrun).shared.events.head?.map (PaneEvent.seen "pane_3") =
        some ((⟨"ws_1", "tab_2", "pane_3", "term_4"⟩, none),
          some ("term_4", "tab_2", "ws_1")) := by
    decide +kernel +revert
  obtain ⟨e, he, hplaces⟩ := Option.map_eq_some_iff.mp hseen
  obtain ⟨hevent, hplace⟩ := Prod.mk.inj hplaces
  obtain ⟨hcontext, hmoved⟩ := Prod.mk.inj hevent
  obtain ⟨pane, hpane, hplaced⟩ := Option.map_eq_some_iff.mp hplace
  have hregistered : e.Registered := by
    refine ⟨"pane_3", pane, hpane, ?_⟩
    rw [hcontext]
    exact (Prod.mk.inj hplaced).1
  refine ⟨_, e, (Option.some_get hrun).symm, he, ?_, hregistered, ?_⟩
  · rw [hcontext]
  · refine (paneEvents_namePlace_iff (System.reachable_get
      ((publishingBackend "sh").system_init rfl) hrun) e (List.mem_of_mem_head? he)).mpr ?_
    intro _ w hw
    rw [hmoved] at hw
    cases hw

/-- The tab was promoted before the terminal reported: the event names the workspace
the terminal was spawned for. -/
theorem reportAfterPromote_namesOldPlace :
    ∃ c e, (publishingBackend "sh").system.Reachable c ∧ c.shared.events.head? = some e ∧
      e.context = ⟨"ws_1", "tab_2", "pane_3", "term_4"⟩ ∧
      (e.registry.panes.lookup "pane_3").map PaneRecord.place =
        some ("term_4", "tab_2", "ws_5") ∧
      ¬ e.NamesPlace := by
  have hrun : ((publishingBackend "sh").system.run ((publishingBackend "sh").start .start)
      (reports true)).isSome := by
    decide +kernel
  have hseen : (((publishingBackend "sh").system.run
      ((publishingBackend "sh").start .start) (reports true)).get
      hrun).shared.events.head?.map (PaneEvent.seen "pane_3") =
        some ((⟨"ws_1", "tab_2", "pane_3", "term_4"⟩, some "ws_5"),
          some ("term_4", "tab_2", "ws_5")) := by
    decide +kernel +revert
  obtain ⟨e, he, hplaces⟩ := Option.map_eq_some_iff.mp hseen
  obtain ⟨hevent, hplace⟩ := Prod.mk.inj hplaces
  obtain ⟨hcontext, _⟩ := Prod.mk.inj hevent
  refine ⟨_, e, System.reachable_get ((publishingBackend "sh").system_init rfl) hrun, he,
    hcontext, hplace, ?_⟩
  intro hnames
  obtain ⟨pane, hpane, hplaced⟩ := Option.map_eq_some_iff.mp hplace
  obtain ⟨hterminal, hrow⟩ := Prod.mk.inj hplaced
  obtain ⟨hworkspace, _⟩ := hnames "pane_3" pane hpane (by rw [hcontext]; exact hterminal)
  rw [hcontext, (Prod.mk.inj hrow).2] at hworkspace
  exact absurd hworkspace (by decide)

end HerdrWebui.Builtin
