import HerdrWebui.Hub.TerminalHub

/-!
Who is on an attach that has ended. The end clears the client list once, after it
has set the flag; a client that is registered later than that keeps its slot, and
its channel stays open with nobody left to write to it.
-/

namespace HerdrWebui.Hub

open Concurrency

/-- The flag is set, and the client list is yet to be cleared. -/
def LiveAttach.Clearing (attach : LiveAttach) : Prop :=
  attach.thread.ends = true ∧ attach.thread ≠ .ended

/-- No client is registered on an attach whose client list was cleared. -/
def registersBeforeEnd (c : Pool HubShared Viewer) (act : Nat × HubCall) : Bool :=
  match act.2, c.threads act.1 with
  | .register, .registering _ a => (c.shared.attaches a).thread ≠ .ended
  | _, _ => true

structure LiveAttach.Sound (attach : LiveAttach) : Prop where
  ends : attach.closed = attach.thread.ends
  cleared : attach.thread = .ended → attach.Deserted

namespace LiveAttach.Sound

variable {attach attach' : LiveAttach}

theorem new (key : HubKey) (cap : Nat) : (LiveAttach.new key cap).Sound where
  ends := rfl
  cleared h := by cases h

theorem moves (h : attach.Sound) (hmoves : AttachMoves attach attach') :
    attach'.Sound where
  ends := hmoves.ends h.ends
  cleared := hmoves.cleared h.cleared

theorem registers (h : attach.Sound) (hopen : attach.thread ≠ .ended)
    (hregisters : Registers attach attach') : attach'.Sound where
  ends := by rw [hregisters.closed, hregisters.thread, h.ends]
  cleared hended := absurd (hregisters.thread.symm.trans hended) hopen

end LiveAttach.Sound

theorem hubCallStep_sound {call : HubCall} {s s' : HubShared} {viewer viewer' : Viewer}
    (hstep : hubCallStep call s viewer = some (s', viewer'))
    (hopen : ∀ key a, call = .register → viewer = .registering key a →
      (s.attaches a).thread ≠ .ended)
    (h : ∀ a, (s.attaches a).Sound) (a : Nat) : (s'.attaches a).Sound := by
  rcases (hubCallStep_effect hstep).attaches a with
    hmoves | ⟨hcall, ⟨key, hviewer⟩, hregisters⟩ | ⟨_, key, cap, hnew⟩
  · exact (h a).moves hmoves
  · exact (h a).registers (hopen key a hcall hviewer) hregisters
  · rw [hnew]
    exact .new key cap

theorem register_afterEnd_strands {s s' : HubShared} {a : Nat}
    (hended : (s.attaches a).thread = .ended) (h : s.register a = some s') :
    (s'.attaches a).thread = .ended ∧ ∃ client, some client ∈ (s'.attaches a).clients := by
  obtain ⟨attach, hattach, rfl⟩ := Option.map_eq_some_iff.mp h
  obtain ⟨hub, hhub, rfl⟩ := LiveAttach.onHub_frame hattach
  obtain ⟨snapshot, _, rfl⟩ := Option.map_eq_some_iff.mp hhub
  rw [HubShared.setAttach_same]
  refine ⟨hended, .joined snapshot, ?_⟩
  exact List.mem_append_right _ (List.mem_singleton.mpr rfl)

/-- In a run that registers no client on an attach whose list was cleared, a closed
attach has no clients, or its list is about to be cleared; and whoever has a slot is
on an attach whose thread still runs. -/
theorem hub_noStrandedViewer {c : Pool HubShared Viewer}
    (h : terminalHub.system.ReachVia (fun c act => registersBeforeEnd c act = true) c)
    (a : Nat) :
    ((c.shared.attaches a).closed = true →
      (c.shared.attaches a).Deserted ∨ (c.shared.attaches a).Clearing) ∧
    (∀ client, some client ∈ (c.shared.attaches a).clients →
      (c.shared.attaches a).thread ≠ .ended) := by
  have hsound : (c.shared.attaches a).Sound := by
    refine Program.shared_of_reachVia (I := fun s => ∀ a, (s.attaches a).Sound) ?_ ?_ h a
    · rintro _ rfl a
      exact .new _ _
    · intro c i call s' viewer' _ hall hok hstep
      refine hubCallStep_sound hstep ?_ hall
      intro key a hcall hviewer
      simpa [registersBeforeEnd, hcall, hviewer] using hok
  constructor
  · intro hclosed
    by_cases hended : (c.shared.attaches a).thread = .ended
    · exact .inl (hsound.cleared hended)
    · exact .inr ⟨hsound.ends.symm.trans hclosed, hended⟩
  · intro client hclient hended
    cases hsound.cleared hended (some client) hclient

/-- Two viewers of one terminal; the stream ends when the second has looked the
attach up. It registers at the point `late`. -/
def secondViewer (ending : List (Nat × HubCall)) (late : Bool) : List (Nat × HubCall) :=
  [(0, .join ("s", "t")), (0, .liveAttach), (0, .startAttach 64), (0, .snapshot),
    (0, .register), (0, .attach 0 .connects), (1, .join ("s", "t")), (1, .liveAttach)] ++
  (if late then ending ++ [(1, .snapshot), (1, .register)]
    else [(1, .snapshot), (1, .register)] ++ ending)

def streamEnds : List (Nat × HubCall) :=
  [(2, .attach 0 .streamEnds), (2, .attach 0 .clear)]

theorem secondViewer_notStranded :
    ∃ c, terminalHub.system.runVia (fun c act => registersBeforeEnd c act = true)
        (terminalHub.start .start) (secondViewer streamEnds false) = some c ∧
      c.threads 1 = .watching ("s", "t") ∧
      ((c.shared.attaches 0).Deserted ∨ (c.shared.attaches 0).Clearing) := by
  have hrun : (terminalHub.system.runVia (fun c act => registersBeforeEnd c act = true)
      (terminalHub.start .start) (secondViewer streamEnds false)).isSome := by
    decide +kernel
  refine ⟨_, (Option.some_get hrun).symm, ?_, ?_⟩
  · decide +kernel +revert
  · apply (hub_noStrandedViewer (System.reachVia_get (terminalHub.system_init rfl) hrun) 0).1
    decide +kernel +revert

/-- The second viewer is registered after the list was cleared: it has a slot, its
channel is open, and the attach is over. -/
theorem joinAcrossEnd_stranded :
    ∃ c, terminalHub.system.Reachable c ∧ c.threads 1 = .watching ("s", "t") ∧
      (c.shared.attaches 0).closed = true ∧ (c.shared.attaches 0).thread = .ended ∧
      (c.shared.attaches 0).clients = [some (.joined [])] := by
  have hrun : (terminalHub.system.run (terminalHub.start .start)
      (secondViewer streamEnds true)).isSome := by
    decide +kernel
  refine ⟨_, System.reachable_get (terminalHub.system_init rfl) hrun, ?_, ?_, ?_, ?_⟩
  all_goals decide +kernel +revert

end HerdrWebui.Hub
