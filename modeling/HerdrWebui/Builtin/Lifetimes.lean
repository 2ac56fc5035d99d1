import HerdrWebui.Builtin.PaneEvents

/-!
What an id stands for while requests come and go. An id that is gone does not come back, and a
pane and its terminal belong together for good.
-/

namespace HerdrWebui.Builtin

open Concurrency Table

/-- An id that was minted and that no request is about to insert. -/
def Spent (kind : IdKind) (id : String) (c : Pool BuiltinData Phase) : Prop :=
  MintedIn 0 c.shared.nextId kind id ∧ ∀ i, (c.threads i).reserved kind ≠ some id

section Runs

variable {shell : String} {c c' c'' : Pool BuiltinData Phase} {kind : IdKind} {id : String}

theorem Spent.of_uses (hc : (backend shell).system.Reachable c) (huse : c.shared.Uses kind id) :
    Spent kind id c :=
  ⟨(backend_holds hc).shared.2 kind id huse,
    fun i hres => ((backend_holds hc).thread i kind id hres).2 huse⟩

theorem Spent.step (h : Spent kind id c) (hc : (backend shell).system.Reachable c)
    {act : Nat × Action} (hstep : (backend shell).system.step c act = some c') :
    Spent kind id c' ∧ (c'.shared.Uses kind id → c.shared.Uses kind id) := by
  obtain ⟨d', phase', hlocal, rfl⟩ := Program.poolStep_cases hstep
  have hholds := backend_holds hc
  have haccounts := (requestStep_keeps hholds.shared.1 hholds.shared.2 (hholds.thread act.1)
    hlocal).accounts
  refine ⟨⟨h.1.mono le_rfl haccounts.counter, fun i hres => ?_⟩, fun huse => ?_⟩
  · rcases eq_or_ne i act.1 with rfl | hi
    · exact (haccounts.reserves kind id (by simpa using hres)).1.disjoint h.1
    · exact h.2 i (by simpa [hi] using hres)
  · rcases haccounts.uses kind id huse with hold | hres | hnew
    · exact hold
    · exact absurd hres (h.2 act.1)
    · exact absurd h.1 hnew.disjoint

/-- An id that is gone does not come back, whatever other requests had minted and whatever they
insert. -/
theorem backend_idsNeverReturn (kind : IdKind) (id : String)
    (hc : (backend shell).system.Reachable c) (huse : c.shared.Uses kind id)
    {schedule later : List (Nat × Action)} (hrun : (backend shell).system.run c schedule = some c')
    (hgone : ¬c'.shared.Uses kind id) (hlater : (backend shell).system.run c' later = some c'') :
    ¬c''.shared.Uses kind id := by
  have hspent : Spent kind id c' := hc.run_invariant (.of_uses hc huse)
    (fun _ _ _ hreach h hstep => (h.step hreach hstep).1) hrun
  have hreach' : (backend shell).system.Reachable c' := hc.runVia hrun
  refine (hreach'.run_invariant (I := fun c => Spent kind id c ∧ ¬c.shared.Uses kind id)
    ⟨hspent, hgone⟩ (fun s act s' hreach h hstep => ?_) hlater).2
  obtain ⟨hnext, hback⟩ := h.1.step hreach hstep
  exact ⟨hnext, h.2 ∘ hback⟩

/-- The terminal of a pane. -/
def terminalOf (d : BuiltinData) (p : String) : Option String :=
  (d.panes.lookup p).map PaneRecord.terminalId

theorem requestStep_terminalOf {d d' : BuiltinData} {phase phase' : Phase} {a : Action}
    (hstep : requestStep shell a d phase = some (d', phase')) {p x : String}
    (h : terminalOf d' p = some x) :
    (phase.reserved .pane = some p ∧ phase.reserved .terminal = some x) ∨
      terminalOf d p = some x := by
  obtain ⟨pane', hpane', rfl⟩ := Option.map_eq_some_iff.mp h
  rw [terminalOf, Option.map_eq_some_iff]
  cases hmoves : moves phase phase' with
  | none =>
    rcases (requestStep_rows hstep).places hmoves p pane' hpane' with
      hnew | ⟨-, pane, hpane, hplace⟩
    · obtain ⟨ids, hids, hrow⟩ := Option.map_eq_some_iff.mp hnew
      obtain ⟨rfl, hplace⟩ := Prod.mk.inj hrow
      rw [← (Prod.mk.inj hplace).1]
      refine .inl ⟨?_, (spawns_reserved hids).2⟩
      unfold spawns at hids
      split at hids <;> cases hids <;> rfl
    · exact .inr ⟨pane, hpane, congrArg Prod.fst hplace⟩
  | some moved =>
    obtain ⟨tab, live, -, hpanes⟩ := moves_panes hstep hmoves
    rw [hpanes] at hpane'
    obtain ⟨pane, hpane, rfl⟩ := Coherent.lookup_panes_moveTab.mp hpane'
    exact .inr ⟨pane, hpane, by split <;> rfl⟩

/-- A pane and its terminal belong together for good, wherever the pane is moved. -/
theorem backend_paneTerminal_iff (hc : (backend shell).system.Reachable c) {p q x y : String}
    (hx : terminalOf c.shared p = some x) {schedule : List (Nat × Action)}
    (hrun : (backend shell).system.run c schedule = some c')
    (hy : terminalOf c'.shared q = some y) : q = p ↔ y = x := by
  have hcoherent := (backend_holds hc).shared.1
  obtain ⟨pane, hpane, rfl⟩ := Option.map_eq_some_iff.mp hx
  refine (hc.run_invariant (I := fun c => Spent .pane p c ∧ Spent .terminal pane.terminalId c ∧
      ∀ q y, terminalOf c.shared q = some y → (q = p ↔ y = pane.terminalId))
    ⟨.of_uses hc (Finmap.mem_of_lookup_eq_some hpane), .of_uses hc ?_, fun q y hy => ?_⟩
    (fun s act s' hreach h hstep => ?_) hrun).2.2 q y hy
  · obtain ⟨terminal, hterminal⟩ := hcoherent.pane_terminal p pane hpane
    exact Finmap.mem_of_lookup_eq_some hterminal
  · obtain ⟨pane', hpane', rfl⟩ := Option.map_eq_some_iff.mp hy
    constructor
    · rintro rfl
      rw [Option.some.inj (hpane'.symm.trans hpane)]
    · exact hcoherent.terminal_unique q p pane' pane hpane' hpane
  · refine ⟨(h.1.step hreach hstep).1, (h.2.1.step hreach hstep).1, fun q y hy => ?_⟩
    obtain ⟨d', phase', hlocal, rfl⟩ := Program.poolStep_cases hstep
    rcases requestStep_terminalOf hlocal hy with ⟨hp, hx⟩ | hold
    · have hp' : q ≠ p := fun heq => h.1.2 act.1 (heq ▸ hp)
      have hx' : y ≠ pane.terminalId := fun heq => h.2.1.2 act.1 (heq ▸ hx)
      simp [hp', hx']
    · exact h.2.2 q y hold

end Runs

/-- The workspace is closed before its create has finished. -/
def closesFirst : List (Nat × Action) :=
  [(1, .submit (.workspaceClose "ws_1")), (1, .proceed plainEnvironment)]

theorem overlappingCreates_runs :
    ((backend "sh").system.run ((backend "sh").start .new) overlappingCreates).isSome := by
  decide

theorem closesFirst_runs :
    ((backend "sh").system.run (Option.get _ overlappingCreates_runs) closesFirst).isSome := by
  decide

theorem backend_idsNeverReturn_closed :
    ∃ c, (backend "sh").system.run (Option.get _ closesFirst_runs) (overlappingCreates.drop 3) =
      some c ∧ "ws_1" ∉ c.shared.workspaces := by
  have hlater : ((backend "sh").system.run (Option.get _ closesFirst_runs)
    (overlappingCreates.drop 3)).isSome := by decide
  refine ⟨_, (Option.some_get hlater).symm, ?_⟩
  exact backend_idsNeverReturn .workspace "ws_1"
    (System.reachable_get (Program.system_init _ rfl) overlappingCreates_runs)
    (show "ws_1" ∈ (Option.get _ overlappingCreates_runs).shared.workspaces by decide)
    (Option.some_get closesFirst_runs).symm
    (show "ws_1" ∉ (Option.get _ closesFirst_runs).shared.workspaces by decide)
    (Option.some_get hlater).symm

theorem backend_paneTerminal_iff_closed :
    terminalOf (Option.get _ closesFirst_runs).shared "pane_7" = some "term_8" ∧
      ("pane_7" = "pane_3" ↔ "term_8" = "term_4") := by
  refine ⟨by decide, ?_⟩
  exact backend_paneTerminal_iff
    (System.reachable_get (Program.system_init _ rfl) overlappingCreates_runs) (by decide)
    (Option.some_get closesFirst_runs).symm (by decide)

end HerdrWebui.Builtin
