import HerdrWebui.Builtin.Rows

/-!
Workspaces by checkout. `worktree.open` scans the workspaces for the path it is
asked for in one critical section and inserts a new one in a later one;
`tab.promote` scans and inserts in one. The file system stands still: `canonical`
resolves a path, and what it resolves to resolves to itself.
-/

namespace HerdrWebui.Builtin

open Concurrency Table

/-- The path as `fs::canonicalize` resolves it, itself where that fails. -/
def resolved (canonical : Path → Option Path) (path : Path) : Path :=
  (canonical path).getD path

/-- The registry, with the workspaces that a `worktree.open` or a `tab.promote`
inserted. -/
structure Checkouts where
  data : BuiltinData
  opened : List String

def Action.onFileSystem (canonical : Path → Option Path) : Action → Action
  | .submit request => .submit request
  | .proceed env => .proceed { env with
      canonicalize := canonical, canonicalizeCwd := canonical }

/-- The requests that look for a workspace before they insert one. The insert of a
`worktree.open` takes the focus; the one of a `workspace.create` does not ask for
it. -/
def Phase.looksFirst : Phase → Bool
  | .createWorkspaceInsert _ _ _ focus _ _ => focus
  | .promoteTabCommit _ _ _ => true
  | _ => false

/-- The opened workspaces after a critical section. -/
def openedAfter (opened : List String) (phase phase' : Phase) : List String :=
  match insertsWorkspace phase phase' with
  | some (w, _) => if phase.looksFirst then w :: opened else opened.filter (· ≠ w)
  | none => opened

def checkouts (shell : String) (canonical : Path → Option Path) :
    Program Checkouts Phase Action where
  init s := s = ⟨.new, []⟩
  idle := .idle
  step a s phase :=
    (requestStep shell (a.onFileSystem canonical) s.data phase).map fun next =>
      (⟨next.1, openedAfter s.opened phase next.2⟩, next.2)

/-- A `worktree.open` inserts no workspace where there is one, opened meanwhile by
another request. -/
def opensOnce (canonical : Path → Option Path) (s : Checkouts) : Phase → Action → Bool
  | .createWorkspaceInsert _ cwd _ true openTerminal _, .proceed env =>
    -- A failed spawn inserts nothing.
    (openTerminal && env.spawn.toOption.isNone) ||
      s.opened.all fun w => (s.data.workspaces.lookup w).all fun workspace =>
        resolved canonical workspace.cwd ≠ resolved canonical cwd
  | _, _ => true

/-- Two opened workspaces are at different places. -/
def Checkouts.OnePerPlace (s : Checkouts) (canonical : Path → Option Path) : Prop :=
  ∀ a ∈ s.opened, ∀ b ∈ s.opened, ∀ r r', s.data.workspaces.lookup a = some r →
    s.data.workspaces.lookup b = some r' →
    resolved canonical r.cwd = resolved canonical r'.cwd → a = b

/-- The path a promotion goes to was resolved. -/
def Resolved (canonical : Path → Option Path) : Phase → Prop
  | .promoteTabCommit _ _ live => resolved canonical live = live
  | _ => True

theorem resolved_resolved {canonical : Path → Option Path}
    (hcanonical : ∀ p q, canonical p = some q → canonical q = some q) (path : Path) :
    resolved canonical (resolved canonical path) = resolved canonical path := by
  unfold resolved
  cases hpath : canonical path with
  | none =>
    rw [Option.getD_none, hpath]
    rfl
  | some q =>
    rw [Option.getD_some, hcanonical path q hpath]
    rfl

section Steps

variable {canonical : Path → Option Path} {shell : String} {s : Checkouts}
  {d' : BuiltinData} {phase phase' : Phase}

/-- An opened workspace is the one a critical section inserted, having looked first,
or it was opened before. -/
theorem openedRow {d : BuiltinData} {opened : List String}
    (hrows : RowsKept d phase d' phase') {w : String} {r : WorkspaceRecord}
    (hw : w ∈ openedAfter opened phase phase') (hr : d'.workspaces.lookup w = some r) :
    (insertsWorkspace phase phase' = some (w, r.cwd) ∧ phase.looksFirst = true) ∨
      (w ∈ opened ∧ ∃ r₀, d.workspaces.lookup w = some r₀ ∧ r₀.cwd = r.cwd) := by
  unfold openedAfter at hw
  rcases hrows.cwds w r hr with hinserts | ⟨hother, hold⟩
  · rw [hinserts] at hw
    dsimp only at hw
    split at hw
    · next hlooks => exact .inl ⟨hinserts, hlooks⟩
    · simp at hw
  · right
    refine ⟨?_, hold⟩
    split at hw
    · next v cwd hinserts =>
        have hne : w ≠ v := by
          rintro rfl
          exact hother cwd hinserts
        split at hw
        · exact (List.mem_cons.mp hw).resolve_left hne
        · exact List.mem_of_mem_filter hw
    · exact hw

theorem Checkouts.OnePerPlace.rows (h : s.OnePerPlace canonical)
    (hrows : RowsKept s.data phase d' phase')
    (hfree : ∀ w cwd, insertsWorkspace phase phase' = some (w, cwd) →
      phase.looksFirst = true → ∀ v ∈ s.opened, ∀ r, s.data.workspaces.lookup v = some r →
        resolved canonical r.cwd ≠ resolved canonical cwd) :
    Checkouts.OnePerPlace ⟨d', openedAfter s.opened phase phase'⟩ canonical := by
  intro a ha b hb r r' hr hr' hsame
  rcases openedRow hrows ha hr with ⟨hnew, hlooks⟩ | ⟨ha, r₀, hr₀, hcwd⟩
  · rcases openedRow hrows hb hr' with ⟨hnew', _⟩ | ⟨hb, r₀', hr₀', hcwd'⟩
    · exact congrArg Prod.fst (Option.some.inj (hnew.symm.trans hnew'))
    · rw [← hcwd'] at hsame
      exact absurd hsame.symm (hfree a r.cwd hnew hlooks b hb r₀' hr₀')
  · rcases openedRow hrows hb hr' with ⟨hnew', hlooks⟩ | ⟨hb, r₀', hr₀', hcwd'⟩
    · rw [← hcwd] at hsame
      exact absurd hsame (hfree b r'.cwd hnew' hlooks a ha r₀ hr₀)
    · rw [← hcwd, ← hcwd'] at hsame
      exact h a ha b hb r₀ r₀' hr₀ hr₀' hsame

/-- A promotion that inserts a workspace has looked in the same critical section. -/
theorem promote_free (canonical : Path → Option Path) {env : Environment}
    (henv : env.canonicalizeCwd = canonical)
    {d : BuiltinData} {live : Path}
    (hlive : resolved canonical live = live) (hnone : workspacesAt env d live = [])
    (v : String) (r : WorkspaceRecord) (hr : d.workspaces.lookup v = some r) :
    resolved canonical r.cwd ≠ resolved canonical live := by
  intro hsame
  rw [hlive] at hsame
  have hmem : r ∈ workspacesAt env d live := by
    refine List.mem_filter.mpr ⟨mem_workspaceValues.mpr ⟨v, hr⟩, ?_⟩
    rw [henv]
    simpa [resolved] using hsame
  rw [hnone] at hmem
  cases hmem

/-- The scan of `worktree.open` finds a workspace at the path if there is one, and
the request focuses it. -/
theorem worktreeOpen_focuses (canonical : Path → Option Path) {env : Environment}
    (henv : env.canonicalize = canonical ∧ env.canonicalizeCwd = canonical)
    {d : BuiltinData} (hcoherent : Coherent d ∅ ∅) {path cwd label : Option String}
    {openTerminal : Option Bool} {requested : Path}
    (hpath : (path.orElse fun _ => cwd) = some requested)
    (hthere : ∃ w r, d.workspaces.lookup w = some r ∧
      resolved canonical r.cwd = resolved canonical requested) :
    ∃ w r, d.workspaces.lookup w = some r ∧
      resolved canonical r.cwd = resolved canonical requested ∧
      (receive env d (.worktreeOpen path cwd label openTerminal)).1.focusedWorkspaceId =
        some w ∧
      (receive env d (.worktreeOpen path cwd label openTerminal)).2 =
        .finished (.ok (.workspace (some w))) := by
  have hat (r : WorkspaceRecord) :
      r ∈ workspacesAt env d ((env.canonicalize requested).getD requested) ↔
        ∃ w, d.workspaces.lookup w = some r ∧
          resolved canonical r.cwd = resolved canonical requested := by
    rw [henv.1]
    simp only [workspacesAt, henv.2, List.mem_filter, mem_workspaceValues, beq_iff_eq,
      resolved, exists_and_right]
  obtain ⟨w, r, hr, hsame⟩ := hthere
  have hmem := (hat r).mpr ⟨w, hr, hsame⟩
  cases hhead : (workspacesAt env d ((env.canonicalize requested).getD requested)).head? with
  | none =>
    rw [List.head?_eq_none_iff.mp hhead] at hmem
    cases hmem
  | some existing =>
    obtain ⟨v, hv, hplace⟩ := (hat existing).mp (List.mem_of_head? hhead)
    have hkey := hcoherent.workspace_key v existing hv
    refine ⟨v, existing, hv, hplace, ?_, ?_⟩
    · simp only [receive, hpath, hhead, worktreeOpenExisting, setFocus, hkey]
    · simp only [receive, hpath, hhead, hkey]

theorem free_of_all {cwd : Path}
    (hall : (s.opened.all fun w => (s.data.workspaces.lookup w).all fun workspace =>
      resolved canonical workspace.cwd ≠ resolved canonical cwd) = true)
    {v : String} (hv : v ∈ s.opened) {r : WorkspaceRecord}
    (hr : s.data.workspaces.lookup v = some r) :
    resolved canonical r.cwd ≠ resolved canonical cwd := by
  have hthere := List.all_eq_true.mp hall v hv
  rw [hr] at hthere
  simpa using hthere

theorem insert_free {a : Action} (hlive : Resolved canonical phase)
    (hok : opensOnce canonical s phase a = true)
    (hstep : requestStep shell (a.onFileSystem canonical) s.data phase = some (d', phase'))
    {w : String} {cwd : Path} (hinserts : insertsWorkspace phase phase' = some (w, cwd))
    (hlooks : phase.looksFirst = true) (v : String) (hv : v ∈ s.opened)
    (r : WorkspaceRecord) (hr : s.data.workspaces.lookup v = some r) :
    resolved canonical r.cwd ≠ resolved canonical cwd := by
  rcases requestStep_cases hstep with ⟨_, _, _, _, hidle⟩ | ⟨env, ha, hsection⟩
  · rcases hidle with rfl | ⟨result, rfl⟩ <;> cases hlooks
  · cases a with
    | submit request => cases ha
    | proceed env' =>
      obtain rfl := Action.proceed.inj ha
      cases hsection with
      | fails =>
        rw [insertsWorkspace_fails] at hinserts
        cases hinserts
      | commits hcommit =>
        obtain ⟨tab, v', created, dropped, _, rfl, _, _, hscan⟩ :=
          promoteTabCommit_rows hcommit
        cases created with
        | false => cases hinserts
        | true =>
          obtain ⟨rfl, rfl⟩ := Prod.mk.inj (Option.some.inj hinserts)
          exact promote_free canonical rfl hlive (hscan rfl) v r hr
      | insertsTerminal hspawn =>
        obtain rfl := hlooks
        obtain ⟨rfl, rfl⟩ := Prod.mk.inj (Option.some.inj hinserts)
        have hspawned : env'.spawn = .ok () := hspawn
        simp only [opensOnce, hspawned, Except.toOption, Option.isNone_some,
          Bool.and_false, Bool.false_or] at hok
        exact free_of_all hok hv hr
      | insertsEmpty =>
        obtain rfl := hlooks
        obtain ⟨rfl, rfl⟩ := Prod.mk.inj (Option.some.inj hinserts)
        exact free_of_all hok hv hr
      | _ => cases hlooks

theorem receive_resolved (env : Environment) (d : BuiltinData) (request : Request) :
    Resolved canonical (receive env d request).2 := by
  have hanswer (result : Except String BuiltinData) :
      Resolved canonical (answer d result).2 := by
    cases result <;> trivial
  cases request with
  | workspaceCreate | agentStart => trivial
  | workspaceRename | workspaceClose | tabRename | tabClose | paneClose => exact hanswer _
  | tabCreate w label focus =>
    simp only [receive]
    split
    · trivial
    · split <;> trivial
  | tabPromote t =>
    simp only [receive]
    split
    · trivial
    · split
      · trivial
      · split <;> trivial
  | worktreeOpen path cwd label openTerminal =>
    simp only [receive]
    split
    · trivial
    · split <;> trivial
  | worktreeRemove w path repoRoot cwd =>
    simp only [receive]
    split
    · trivial
    · split
      · trivial
      · split <;> trivial

theorem resolved_step (hcanonical : ∀ p q, canonical p = some q → canonical q = some q)
    {a : Action}
    (hstep : requestStep shell (a.onFileSystem canonical) s.data phase = some (d', phase')) :
    Resolved canonical phase' := by
  rcases requestStep_cases hstep with ⟨_, _, _, rfl, _⟩ | ⟨env, ha, hsection⟩
  · trivial
  · cases hsection with
    | received => exact receive_resolved _ _ _
    | probes =>
      cases a with
      | submit request => cases ha
      | proceed env' =>
        obtain rfl := Action.proceed.inj ha
        exact resolved_resolved hcanonical _
    | _ => trivial

end Steps

theorem checkouts_holds {shell : String} {canonical : Path → Option Path}
    (hcanonical : ∀ p q, canonical p = some q → canonical q = some q)
    {c : Pool Checkouts Phase}
    (h : (checkouts shell canonical).system.ReachVia
      (fun c act => opensOnce canonical c.shared (c.threads act.1) act.2 = true) c) :
    Program.Holds
      (fun s => (Coherent s.data ∅ ∅ ∧ AllMinted s.data) ∧ s.OnePerPlace canonical)
      (fun s phase => ReservedUnused s.data phase ∧ Resolved canonical phase)
      ReservedApart c := by
  refine Program.Holds.of_reachVia ?_ ?_ ?_ ?_ h
  · rintro _ rfl
    refine ⟨⟨⟨.new, .new⟩, nofun⟩, ?_, trivial⟩
    intro kind id hres
    cases hres
  · intro kind id hres
    cases hres
  · exact fun _ _ hapart => hapart.symm
  · intro c i a s' phase' hc hok hstep
    obtain ⟨⟨hcoherent, hminted⟩, hone⟩ := hc.shared
    obtain ⟨hunused, hlive⟩ := hc.thread i
    obtain ⟨⟨d', next⟩, hrequest, hpair⟩ := Option.map_eq_some_iff.mp hstep
    obtain ⟨rfl, rfl⟩ := Prod.mk.inj hpair
    have hkeeps := requestStep_keeps hcoherent hminted hunused hrequest
    obtain ⟨hshared, hself, hothers⟩ := hkeeps.interleaved hminted hunused
    refine ⟨⟨hshared, ?_⟩, ⟨hself, resolved_step hcanonical hrequest⟩, ?_⟩
    · apply hone.rows (requestStep_rows hrequest)
      exact fun w cwd hinserts hlooks v hv r hr =>
        insert_free hlive hok hrequest hinserts hlooks v hv r hr
    · intro other hother hapart
      obtain ⟨hother', hapart'⟩ := hothers other hother.1 hapart
      exact ⟨⟨hother', hother.2⟩, hapart'⟩

/-- In a run in which no `worktree.open` inserts a workspace where another request
has opened one, no two opened workspaces are at the same place. And where there is a
workspace at the path, a `worktree.open` that looks for it focuses it. -/
theorem checkouts_onePerPlace {shell : String} {canonical : Path → Option Path}
    (hcanonical : ∀ p q, canonical p = some q → canonical q = some q)
    {c : Pool Checkouts Phase}
    (h : (checkouts shell canonical).system.ReachVia
      (fun c act => opensOnce canonical c.shared (c.threads act.1) act.2 = true) c) :
    c.shared.OnePerPlace canonical ∧
    ∀ i env c' path cwd label openTerminal requested,
      (checkouts shell canonical).system.step c (i, .proceed env) = some c' →
      c.threads i = .received (.worktreeOpen path cwd label openTerminal) →
      (path.orElse fun _ => cwd) = some requested →
      (∃ w r, c.shared.data.workspaces.lookup w = some r ∧
        resolved canonical r.cwd = resolved canonical requested) →
      ∃ w r, c.shared.data.workspaces.lookup w = some r ∧
        resolved canonical r.cwd = resolved canonical requested ∧
        c'.shared.data.focusedWorkspaceId = some w ∧
        c'.threads i = .finished (.ok (.workspace (some w))) := by
  have hall := checkouts_holds hcanonical h
  refine ⟨hall.shared.2, ?_⟩
  intro i env c' path cwd label openTerminal requested hstep hphase hpath hthere
  obtain ⟨s', phase', hlocal, rfl⟩ := Program.poolStep_cases hstep
  obtain ⟨⟨d', next⟩, hrequest, hpair⟩ := Option.map_eq_some_iff.mp hlocal
  obtain ⟨rfl, rfl⟩ := Prod.mk.inj hpair
  rw [hphase] at hrequest
  obtain ⟨rfl, rfl⟩ := Prod.mk.inj (Option.some.inj hrequest)
  let fixed : Environment :=
    { env with canonicalize := canonical, canonicalizeCwd := canonical }
  have hfixed : fixed.canonicalize = canonical ∧ fixed.canonicalizeCwd = canonical :=
    ⟨rfl, rfl⟩
  obtain ⟨w, r, hr, hplace, hfocus, hreply⟩ :=
    worktreeOpen_focuses canonical hfixed hall.shared.1.1 hpath hthere
  refine ⟨w, r, hr, hplace, hfocus, ?_⟩
  exact (Function.update_self i _ c.threads).trans hreply

/-- Two clients open the same checkout; the second has looked for it before the first
inserts its workspace, or after. -/
def openedTwice (late : Bool) : List (Nat × Action) :=
  let looks (i : Nat) : List (Nat × Action) :=
    [(i, .submit (.worktreeOpen (some "/repo") none none none)),
      (i, .proceed plainEnvironment)]
  let inserts (i : Nat) : List (Nat × Action) :=
    [(i, .proceed plainEnvironment), (i, .proceed plainEnvironment)]
  if late then looks 0 ++ inserts 0 ++ looks 1
  else looks 0 ++ looks 1 ++ inserts 0 ++ inserts 1

theorem openedInTurn_onePerPlace :
    ∃ c, (checkouts "sh" some).system.runVia
        (fun c act => opensOnce some c.shared (c.threads act.1) act.2 = true)
        ((checkouts "sh" some).start ⟨.new, []⟩) (openedTwice true) = some c ∧
      c.shared.opened = ["ws_1"] ∧ c.shared.data.focusedWorkspaceId = some "ws_1" ∧
      c.shared.OnePerPlace some := by
  have hrun : ((checkouts "sh" some).system.runVia
      (fun c act => opensOnce some c.shared (c.threads act.1) act.2 = true)
      ((checkouts "sh" some).start ⟨.new, []⟩) (openedTwice true)).isSome := by
    decide +kernel
  refine ⟨_, (Option.some_get hrun).symm, ?_, ?_, ?_⟩
  · decide +kernel +revert
  · decide +kernel +revert
  · have hall := checkouts_onePerPlace (fun _ _ _ => rfl)
      (System.reachVia_get ((checkouts "sh" some).system_init rfl) hrun)
    exact hall.1

/-- Both requests looked before either inserted: two workspaces at one path. -/
theorem openedAtOnce_twoWorkspaces :
    ∃ c, (checkouts "sh" some).system.Reachable c ∧
      c.shared.opened = ["ws_5", "ws_1"] ∧
      (c.shared.data.workspaces.lookup "ws_1").map (·.cwd) = some "/repo" ∧
      (c.shared.data.workspaces.lookup "ws_5").map (·.cwd) = some "/repo" ∧
      ¬ c.shared.OnePerPlace some := by
  have hrun : ((checkouts "sh" some).system.run
      ((checkouts "sh" some).start ⟨.new, []⟩) (openedTwice false)).isSome := by
    decide +kernel
  have hopened : (((checkouts "sh" some).system.run
      ((checkouts "sh" some).start ⟨.new, []⟩) (openedTwice false)).get
      hrun).shared.opened = ["ws_5", "ws_1"] := by
    decide +kernel +revert
  have hfirst : ((((checkouts "sh" some).system.run
      ((checkouts "sh" some).start ⟨.new, []⟩) (openedTwice false)).get
      hrun).shared.data.workspaces.lookup "ws_1").map (·.cwd) = some "/repo" := by
    decide +kernel +revert
  have hsecond : ((((checkouts "sh" some).system.run
      ((checkouts "sh" some).start ⟨.new, []⟩) (openedTwice false)).get
      hrun).shared.data.workspaces.lookup "ws_5").map (·.cwd) = some "/repo" := by
    decide +kernel +revert
  refine ⟨_, System.reachable_get ((checkouts "sh" some).system_init rfl) hrun, hopened,
    hfirst, hsecond, ?_⟩
  intro hone
  obtain ⟨r, hr, hcwd⟩ := Option.map_eq_some_iff.mp hfirst
  obtain ⟨r', hr', hcwd'⟩ := Option.map_eq_some_iff.mp hsecond
  have hsame := hone "ws_1" (by rw [hopened]; decide) "ws_5" (by rw [hopened]; decide)
    r r' hr hr' (by simp [resolved, hcwd, hcwd'])
  exact absurd hsame (by decide)

end HerdrWebui.Builtin
