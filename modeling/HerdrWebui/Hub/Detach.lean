import HerdrWebui.Hub.TerminalHub

/-!
The last viewer leaves. A detach that finds no client on the attach schedules the
grace task, which looks again and queues a `Detach` for the backend. The attach
stays in the map while it is live; whoever finds it closed there takes it out.

Nothing but a publish empties the slot of a client that is gone, so the last
detach may well find one.
-/

namespace HerdrWebui.Hub

open Concurrency

/-- A `Detach` was queued for the backend, or there was nobody to queue it for:
the input queue is gone, or the stream has ended. -/
def LiveAttach.Told (attach : LiveAttach) : Prop :=
  .detach ∈ attach.input ∨ attach.inputOpen = false ∨ attach.thread = .ended

/-- The attach is in the map, under its key. -/
def HubShared.Listed (s : HubShared) (a : Nat) : Prop :=
  s.map.lookup (s.attaches a).key = some a

instance (s : HubShared) (a : Nat) : Decidable (s.Listed a) :=
  inferInstanceAs (Decidable (_ = _))

/-- The key whose entry a join or a detach is about to replace or take out, having
found it closed or missing. -/
def takesOut : HubCall → Viewer → Option HubKey
  | .startAttach _, .starting key => some key
  | .reapIfClosed, .reaping key _ => some key
  | _, _ => none

def Viewer.attach : Viewer → Option Nat
  | .entering _ a | .registering _ a | .counting _ a _ => some a
  | _ => none

theorem LiveAttach.Told.moves {attach attach' : LiveAttach} (h : attach.Told)
    (hmoves : AttachMoves attach attach') : attach'.Told := by
  rcases h with hdetach | hgone | hended
  · exact .inl (hmoves.input hdetach)
  · exact .inr (.inl (hmoves.inputOpen hgone))
  · exact .inr (.inr (hmoves.ended hended))

theorem HubShared.sendDetach_told (s : HubShared) (a : Nat) :
    ((s.sendDetach a).attaches a).Told := by
  unfold HubShared.sendDetach
  dsimp only
  split
  · rw [HubShared.setAttach_same]
    exact .inl (List.mem_append_right _ (List.mem_singleton.mpr rfl))
  · next hgone => exact .inr (.inl (Bool.eq_false_iff.mpr hgone))

/-- While nobody registers on its attach the grace task finds nobody, and in the
end the backend was told. -/
structure GraceTask.Sound (task : GraceTask) (attach : LiveAttach) : Prop where
  le : task.joins ≤ attach.joins
  deserted : attach.joins = task.joins → attach.Deserted
  told : task.phase = .over → attach.joins = task.joins → attach.Told

namespace GraceTask.Sound

variable {task : GraceTask} {attach attach' : LiveAttach}

theorem moves (h : task.Sound attach) (hmoves : AttachMoves attach attach') :
    task.Sound attach' where
  le := by
    rw [hmoves.joins]
    exact h.le
  deserted hsame := by
    rw [hmoves.joins] at hsame
    exact hmoves.deserted (h.deserted hsame)
  told hover hsame := by
    rw [hmoves.joins] at hsame
    exact (h.told hover hsame).moves hmoves

theorem registers (h : task.Sound attach) (hregisters : Registers attach attach') :
    task.Sound attach' := by
  have hle := h.le
  have hjoins := hregisters.joins
  have hnew (hsame : attach'.joins = task.joins) : False := by omega
  constructor
  · omega
  · exact fun hsame => (hnew hsame).elim
  · exact fun _ hsame => (hnew hsame).elim

theorem setPhase (h : task.Sound attach) {phase : GracePhase}
    (htold : phase = .over → attach.joins = task.joins → attach.Told) :
    ({ task with phase := phase } : GraceTask).Sound attach where
  le := h.le
  deserted := h.deserted
  told := htold

end GraceTask.Sound

structure DetachInvariant (s : HubShared) : Prop where
  graces : ∀ task ∈ s.graces,
    task.attach < s.started ∧ task.Sound (s.attaches task.attach)
  listed : ∀ key a, s.map.lookup key = some a →
    a < s.started ∧ (s.attaches a).key = key
  kept : ∀ a < s.started, (s.attaches a).closed = false → s.Listed a

namespace DetachInvariant

variable {s s' : HubShared}

theorem start : DetachInvariant .start where
  graces task h := by cases h
  listed key a h := by cases h
  kept a h := absurd h (Nat.not_lt_zero a)

theorem moves (h : DetachInvariant s) (hmap : s'.map = s.map)
    (hstarted : s'.started = s.started) (hgraces : s'.graces = s.graces)
    (hmoves : ∀ b, AttachMoves (s.attaches b) (s'.attaches b)) : DetachInvariant s' where
  graces := by
    intro task htask
    rw [hgraces] at htask
    obtain ⟨hlt, hsound⟩ := h.graces task htask
    rw [hstarted]
    exact ⟨hlt, hsound.moves (hmoves task.attach)⟩
  listed := by
    intro key a hlookup
    rw [hmap] at hlookup
    rw [hstarted, (hmoves a).key]
    exact h.listed key a hlookup
  kept := by
    intro a hlt hopen
    rw [hstarted] at hlt
    have hbefore : (s.attaches a).closed = false := by
      by_contra hclosed
      rw [(hmoves a).closed (Bool.eq_true_of_not_eq_false hclosed)] at hopen
      cases hopen
    unfold HubShared.Listed
    rw [hmap, (hmoves a).key]
    exact h.kept a hlt hbefore

theorem register (h : DetachInvariant s) {a : Nat} (hstep : s.register a = some s') :
    DetachInvariant s' := by
  have hattaches := HubShared.register_attaches hstep
  obtain ⟨attach, _, rfl⟩ := Option.map_eq_some_iff.mp hstep
  have hkey (b : Nat) : ((s.setAttach a { attach with joins := attach.joins + 1 }).attaches b).key =
      (s.attaches b).key := by
    rcases hattaches b with ⟨_, hregisters⟩ | hmoves
    · exact hregisters.key
    · exact hmoves.key
  constructor
  case graces =>
    intro task htask
    obtain ⟨hlt, hsound⟩ := h.graces task htask
    refine ⟨hlt, ?_⟩
    rcases hattaches task.attach with ⟨_, hregisters⟩ | hmoves
    · exact hsound.registers hregisters
    · exact hsound.moves hmoves
  case listed =>
    intro key b hlookup
    rw [hkey]
    exact h.listed key b hlookup
  case kept =>
    intro b hlt hopen
    unfold HubShared.Listed
    rw [hkey]
    apply h.kept b hlt
    rcases hattaches b with ⟨_, hregisters⟩ | hmoves
    · exact hregisters.closed.symm.trans hopen
    · by_contra hclosed
      rw [hmoves.closed (Bool.eq_true_of_not_eq_false hclosed)] at hopen
      cases hopen

theorem startAttach (h : DetachInvariant s) (key : HubKey) (cap : Nat) :
    DetachInvariant (s.startAttach key cap).1 := by
  unfold HubShared.startAttach
  split
  · exact h
  · next hnone =>
      have hother {b : Nat} (hlt : b < s.started) :
          (s.setAttach s.started (.new key cap)).attaches b = s.attaches b :=
        HubShared.setAttach_other s hlt.ne _
      constructor
      case graces =>
        intro task htask
        obtain ⟨hlt, hsound⟩ := h.graces task htask
        refine ⟨Nat.lt_succ_of_lt hlt, ?_⟩
        dsimp only
        rwa [hother hlt]
      case listed =>
        intro key' b hlookup
        rcases Table.lookup_insert_eq_some.mp hlookup with ⟨rfl, rfl⟩ | ⟨_, hold⟩
        · refine ⟨Nat.lt_succ_self _, ?_⟩
          dsimp only
          rw [HubShared.setAttach_same]
          rfl
        · obtain ⟨hlt, hkey⟩ := h.listed key' b hold
          refine ⟨Nat.lt_succ_of_lt hlt, ?_⟩
          dsimp only
          rwa [hother hlt]
      case kept =>
        intro b hlt hopen
        unfold HubShared.Listed
        dsimp only at hopen ⊢
        rcases Nat.lt_succ_iff_lt_or_eq.mp hlt with hold | rfl
        · rw [hother hold] at hopen ⊢
          have hlisted := h.kept b hold hopen
          refine Table.lookup_insert_eq_some.mpr (.inr ⟨?_, hlisted⟩)
          -- Its key would have had a live attach.
          rintro rfl
          unfold HubShared.Listed at hlisted
          simp [HubShared.liveAttach, hlisted, hopen] at hnone
        · rw [HubShared.setAttach_same]
          exact Table.lookup_insert_eq_some.mpr (.inl ⟨rfl, rfl⟩)

theorem reapIfClosed (h : DetachInvariant s) (key : HubKey) :
    DetachInvariant (s.reapIfClosed key) := by
  unfold HubShared.reapIfClosed
  split
  · next a hlookup =>
      split
      · next hclosed =>
          refine ⟨h.graces, ?_, ?_⟩
          · intro key' b hlookup'
            exact h.listed key' b (Table.lookup_erase_eq_some.mp hlookup').2
          · intro b hlt hopen
            have hlisted := h.kept b hlt hopen
            refine Table.lookup_erase_eq_some.mpr ⟨?_, hlisted⟩
            intro hkey
            unfold HubShared.Listed at hlisted
            rw [hkey] at hlisted
            obtain rfl := Option.some.inj (hlookup.symm.trans hlisted)
            exact absurd (hclosed.symm.trans hopen) (by decide)
      · exact h
  · exact h

theorem scheduleGrace (h : DetachInvariant s) {a : Nat} (hlt : a < s.started)
    (hdeserted : (s.attaches a).Deserted) : DetachInvariant (s.scheduleGrace a) := by
  refine ⟨?_, h.listed, h.kept⟩
  intro task htask
  rcases List.mem_append.mp htask with hold | hnew
  · exact h.graces task hold
  · obtain rfl := List.mem_singleton.mp hnew
    exact ⟨hlt, le_rfl, fun _ => hdeserted, nofun⟩

theorem setGrace (h : DetachInvariant s) {n : Nat} {task : GraceTask}
    (htask : s.graces[n]? = some task) {phase : GracePhase}
    (htold : phase = .over → (s.attaches task.attach).joins = task.joins →
      (s.attaches task.attach).Told) : DetachInvariant (s.setGrace n phase) := by
  refine ⟨?_, h.listed, h.kept⟩
  intro other hother
  obtain ⟨i, hi⟩ := List.mem_iff_getElem?.mp hother
  rw [HubShared.setGrace, List.getElem?_modify] at hi
  obtain ⟨before, hbefore, rfl⟩ := Option.map_eq_some_iff.mp hi
  obtain ⟨hlt, hsound⟩ := h.graces before (List.mem_of_getElem? hbefore)
  split
  · next heq =>
      obtain rfl := heq
      obtain rfl := Option.some.inj (htask.symm.trans hbefore)
      exact ⟨hlt, hsound.setPhase htold⟩
  · exact ⟨hlt, hsound⟩

theorem graceStep (h : DetachInvariant s) {n : Nat} {task : GraceTask}
    (htask : s.graces[n]? = some task) {upgraded : Bool}
    (hstep : Hub.graceStep s n task upgraded = some s') : DetachInvariant s' := by
  obtain ⟨_, hsound⟩ := h.graces task (List.mem_of_getElem? htask)
  simp only [Hub.graceStep] at hstep
  split at hstep
  · split at hstep
    · obtain rfl := Option.some.inj hstep
      exact h.setGrace htask fun hover => absurd hover (by decide)
    · split at hstep
      · next hended =>
          obtain rfl := Option.some.inj hstep
          exact h.setGrace htask fun _ _ => .inr (.inr hended.1)
      · cases hstep
  · obtain rfl := Option.some.inj hstep
    have hmoves := s.liveClients_moves task.attach
    have hcounted : DetachInvariant (s.liveClients task.attach).1 :=
      h.moves rfl rfl rfl hmoves
    apply hcounted.setGrace htask
    intro hover hsame
    rw [(hmoves task.attach).joins] at hsame
    -- Nobody has registered, so the task has counted nobody.
    have hnobody := SharedAttach.deserted_liveClients.mp (hsound.deserted hsame)
    split at hover
    · next hsomebody => exact absurd hnobody hsomebody.ne'
    · cases hover
  · obtain rfl := Option.some.inj hstep
    obtain ⟨hmap, hstarted, hgraces⟩ := s.sendDetach_frame task.attach
    have hsent : DetachInvariant (s.sendDetach task.attach) :=
      h.moves hmap hstarted hgraces (s.sendDetach_moves task.attach)
    have htask' : (s.sendDetach task.attach).graces[n]? = some task := by
      rw [hgraces]
      exact htask
    exact hsent.setGrace htask' fun _ _ => s.sendDetach_told task.attach
  · cases hstep

theorem effect (h : DetachInvariant s) {call : HubCall} {viewer : Viewer}
    (hviewer : ∀ a, viewer.attach = some a → a < s.started)
    (heffect : HubEffect s call viewer s') : DetachInvariant s' := by
  cases heffect with
  | moves map started graces attaches => exact h.moves map started graces attaches
  | registers hregister => exact h.register hregister
  | starts key cap => exact h.startAttach key cap
  | reaps key again => exact h.reapIfClosed key
  | @schedules key a again hnobody =>
    have hmoves := s.liveClients_moves a
    have hcounted : DetachInvariant (s.liveClients a).1 := h.moves rfl rfl rfl hmoves
    apply hcounted.scheduleGrace (hviewer a rfl)
    exact (hmoves a).deserted (SharedAttach.deserted_liveClients.mpr hnobody)
  | grace htask hstep => exact h.graceStep htask hstep

theorem liveAttach_lt (h : DetachInvariant s) {key : HubKey} {a : Nat}
    (hlive : s.liveAttach key = some a) : a < s.started := by
  obtain ⟨hlookup, _⟩ := Option.filter_eq_some_iff.mp hlive
  exact (h.listed key a hlookup).1

theorem startAttach_lt (h : DetachInvariant s) (key : HubKey) (cap : Nat) :
    (s.startAttach key cap).2 < (s.startAttach key cap).1.started := by
  unfold HubShared.startAttach
  split
  · next hlive => exact h.liveAttach_lt hlive
  · exact Nat.lt_succ_self _

end DetachInvariant

namespace HubEffect

variable {s s' : HubShared} {call : HubCall} {viewer : Viewer}

theorem started_le (h : HubEffect s call viewer s') : s.started ≤ s'.started := by
  cases h with
  | moves _ started _ _ => exact started.ge
  | registers hregister =>
    obtain ⟨attach, _, rfl⟩ := Option.map_eq_some_iff.mp hregister
    exact le_rfl
  | starts key cap =>
    unfold HubShared.startAttach
    split
    · exact le_rfl
    · exact Nat.le_succ _
  | reaps key again =>
    unfold HubShared.reapIfClosed
    split
    · split <;> exact le_rfl
    · exact le_rfl
  | schedules => exact le_rfl
  | grace _ hstep => exact (graceStep_frame hstep).2.ge

theorem key (h : HubEffect s call viewer s') {a : Nat} (hlt : a < s.started) :
    (s'.attaches a).key = (s.attaches a).key := by
  rcases h.attaches a with hmoves | ⟨_, _, hregisters⟩ | ⟨rfl, _⟩
  · exact hmoves.key
  · exact hregisters.key
  · exact absurd hlt (lt_irrefl _)

theorem unlisted (h : HubEffect s call viewer s') {a : Nat} (hlt : a < s.started)
    (hout : ¬ s.Listed a) : ¬ s'.Listed a := by
  have hkey := h.key hlt
  unfold HubShared.Listed at hout ⊢
  rw [hkey]
  cases h with
  | moves map _ _ _ => rwa [map]
  | registers hregister =>
    obtain ⟨attach, _, rfl⟩ := Option.map_eq_some_iff.mp hregister
    exact hout
  | starts key cap =>
    unfold HubShared.startAttach
    split
    · exact hout
    · intro hlookup
      rcases Table.lookup_insert_eq_some.mp hlookup with ⟨_, rfl⟩ | ⟨_, hold⟩
      · exact lt_irrefl _ hlt
      · exact hout hold
  | reaps key again =>
    unfold HubShared.reapIfClosed
    split
    · split
      · exact fun hlookup => hout (Table.lookup_erase_eq_some.mp hlookup).2
      · exact hout
    · exact hout
  | schedules => exact hout
  | grace _ hstep => rwa [(graceStep_frame hstep).1]

end HubEffect

theorem HubShared.startAttach_open (s : HubShared) (key : HubKey) (cap a : Nat)
    (hlookup : (s.startAttach key cap).1.map.lookup key = some a) :
    ((s.startAttach key cap).1.attaches a).closed = false := by
  unfold HubShared.startAttach at hlookup ⊢
  split at hlookup
  · next b hlive =>
      dsimp only at hlookup ⊢
      obtain ⟨hfound, hopen⟩ := Option.filter_eq_some_iff.mp hlive
      obtain rfl := Option.some.inj (hfound.symm.trans hlookup)
      simpa using hopen
  · next hnone =>
      dsimp only at hlookup ⊢
      rcases Table.lookup_insert_eq_some.mp hlookup with ⟨_, rfl⟩ | ⟨hne, _⟩
      · rw [HubShared.setAttach_same]
        rfl
      · exact absurd rfl hne

theorem HubShared.reapIfClosed_open (s : HubShared) (key : HubKey) (a : Nat)
    (hlookup : (s.reapIfClosed key).map.lookup key = some a) :
    ((s.reapIfClosed key).attaches a).closed = false := by
  rw [HubShared.reapIfClosed_attaches]
  unfold HubShared.reapIfClosed at hlookup
  split at hlookup
  · next b hfound =>
      split at hlookup
      · exact absurd rfl (Table.lookup_erase_eq_some.mp hlookup).1
      · next hopen =>
          obtain rfl := Option.some.inj (hfound.symm.trans hlookup)
          exact Bool.eq_false_iff.mpr hopen
  · next hnone =>
      rw [hnone] at hlookup
      cases hlookup

theorem takesOut_open {s s' : HubShared} {call : HubCall} {viewer viewer' : Viewer}
    (hstep : hubCallStep call s viewer = some (s', viewer')) {key : HubKey}
    (htakes : takesOut call viewer = some key) {a : Nat}
    (hlookup : s'.map.lookup key = some a) : (s'.attaches a).closed = false := by
  unfold takesOut at htakes
  split at htakes
  · obtain rfl := Option.some.inj htakes
    cases hstep
    exact s.startAttach_open _ _ a hlookup
  · obtain rfl := Option.some.inj htakes
    cases hstep
    exact s.reapIfClosed_open _ a hlookup
  · cases htakes

theorem hubCallStep_viewer {s s' : HubShared} {call : HubCall} {viewer viewer' : Viewer}
    (h : DetachInvariant s) (hviewer : ∀ a, viewer.attach = some a → a < s.started)
    (hstep : hubCallStep call s viewer = some (s', viewer')) (a : Nat)
    (ha : viewer'.attach = some a) : a < s'.started := by
  have hle := (hubCallStep_effect hstep).started_le
  unfold hubCallStep at hstep
  split at hstep
  · cases hstep
    cases ha
  · split at hstep
    · next hlive =>
        cases hstep
        obtain rfl := Option.some.inj ha
        exact h.liveAttach_lt hlive
    · cases hstep
      cases ha
  · next cap key =>
      cases hstep
      obtain rfl := Option.some.inj ha
      exact h.startAttach_lt key cap
  · obtain ⟨next, _, hpair⟩ := Option.map_eq_some_iff.mp hstep
    cases hpair
    exact (hviewer a ha).trans_le hle
  · obtain ⟨next, _, hpair⟩ := Option.map_eq_some_iff.mp hstep
    cases hpair
    cases ha
  · cases hstep
    cases ha
  · split at hstep
    · next hlive =>
        cases hstep
        obtain rfl := Option.some.inj ha
        exact h.liveAttach_lt hlive
    · cases hstep
      cases ha
  · next key again =>
      cases hstep
      cases again <;> cases ha
  · next key b again =>
      cases hstep
      cases again <;> cases ha
  · split at hstep
    · obtain ⟨attach, _, hpair⟩ := Option.map_eq_some_iff.mp hstep
      cases hpair
      exact (hviewer a ha).trans_le hle
    · cases hstep
  · obtain ⟨next, _, hpair⟩ := Option.map_eq_some_iff.mp hstep
    cases hpair
    exact (hviewer a ha).trans_le hle
  · cases hstep

theorem hub_holds {c : Pool HubShared Viewer} (h : terminalHub.system.Reachable c) :
    Program.Holds DetachInvariant
      (fun s viewer => ∀ a, viewer.attach = some a → a < s.started) (fun _ _ => True) c := by
  refine Program.Holds.of_reachVia ?_ trivial (fun _ _ _ => trivial) ?_ h
  · rintro _ rfl
    exact ⟨.start, nofun⟩
  · intro c i call s' viewer' hall _ hstep
    have heffect := hubCallStep_effect hstep
    refine ⟨hall.shared.effect (hall.thread i) heffect,
      hubCallStep_viewer hall.shared (hall.thread i) hstep, ?_⟩
    exact fun viewer hviewer _ =>
      ⟨fun a ha => (hviewer a ha).trans_le heffect.started_le, trivial⟩

/-- A grace task that has run, while nobody registered on its attach, has told the
backend. An attach is in the map as long as it is live; a join or a detach that goes
on to take an entry out leaves no closed attach under the key, and what is out of
the map does not come back. -/
theorem hub_detachesAndReaps {c : Pool HubShared Viewer}
    (h : terminalHub.system.Reachable c) :
    (∀ task ∈ c.shared.graces, task.phase = .over →
      (c.shared.attaches task.attach).joins = task.joins →
      (c.shared.attaches task.attach).Told) ∧
    (∀ a < c.shared.started, (c.shared.attaches a).closed = false → c.shared.Listed a) ∧
    (∀ i call c', terminalHub.system.step c (i, call) = some c' →
      (∀ a < c.shared.started, ¬ c.shared.Listed a → ¬ c'.shared.Listed a) ∧
      (∀ key a, takesOut call (c.threads i) = some key →
        c'.shared.map.lookup key = some a → (c'.shared.attaches a).closed = false)) := by
  have hall := hub_holds h
  refine ⟨?_, hall.shared.kept, ?_⟩
  · intro task htask hover hsame
    exact (hall.shared.graces task htask).2.told hover hsame
  · intro i call c' hstep
    obtain ⟨s', viewer', hlocal, rfl⟩ := Program.poolStep_cases hstep
    refine ⟨?_, ?_⟩
    · exact fun a hlt hout => (hubCallStep_effect hlocal).unlisted hlt hout
    · exact fun key a htakes hlookup => takesOut_open hlocal htakes hlookup

def joins : List (Nat × HubCall) :=
  [(0, .join ("s", "t")), (0, .liveAttach), (0, .startAttach 64), (0, .snapshot),
    (0, .register), (1, .attach 0 .connects)]

/-- It leaves, and the guard detaches twice. -/
def leavesUnnoticed : List (Nat × HubCall) :=
  joins ++ [(0, .detach true), (0, .liveAttach), (0, .liveClients), (0, .liveAttach),
    (0, .liveClients), (1, .attach 0 (.leave 0))]

/-- It is gone when the terminal prints, and detaches after that. -/
def leavesNoticed : List (Nat × HubCall) :=
  joins ++ [(1, .attach 0 (.leave 0)), (1, .attach 0 (.readGraphics [120])),
    (1, .attach 0 .fanOut), (0, .detach false), (0, .liveAttach), (0, .liveClients),
    (1, .grace 0 true), (1, .grace 0 true), (1, .grace 0 true)]

theorem leavesNoticed_detaches :
    ∃ c, terminalHub.system.run (terminalHub.start .start) leavesNoticed = some c ∧
      c.shared.graces = [⟨0, 1, .over⟩] ∧ (c.shared.attaches 0).joins = 1 ∧
      (c.shared.attaches 0).Told := by
  have hrun : (terminalHub.system.run (terminalHub.start .start)
      leavesNoticed).isSome := by
    decide +kernel
  have hgraces : ((terminalHub.system.run (terminalHub.start .start)
      leavesNoticed).get hrun).shared.graces = [⟨0, 1, .over⟩] := by
    decide +kernel +revert
  have hjoins : (((terminalHub.system.run (terminalHub.start .start)
      leavesNoticed).get hrun).shared.attaches 0).joins = 1 := by
    decide +kernel +revert
  refine ⟨_, (Option.some_get hrun).symm, hgraces, hjoins, ?_⟩
  have hall := hub_detachesAndReaps
    (System.reachable_get (terminalHub.system_init rfl) hrun)
  refine hall.1 ⟨0, 1, .over⟩ ?_ rfl hjoins
  rw [hgraces]
  exact List.mem_singleton.mpr rfl

/-- The last viewer has left for good, and nothing is scheduled: both detaches found
its slot. And where a `Detach` was queued by the grace task the attach is still in
the map. -/
theorem lastViewer_unnoticed_staysListed :
    (∃ c, terminalHub.system.Reachable c ∧ (∀ i, c.threads i = .away) ∧
      c.shared.graces = [] ∧ (c.shared.attaches 0).closed = false ∧
      (c.shared.attaches 0).input = [] ∧ c.shared.Listed 0) ∧
    (∃ c, terminalHub.system.Reachable c ∧ (∀ i, c.threads i = .away) ∧
      c.shared.graces = [⟨0, 1, .over⟩] ∧ (c.shared.attaches 0).input = [.detach] ∧
      c.shared.Listed 0) := by
  refine ⟨?_, ?_⟩
  · have hrun : (terminalHub.system.run (terminalHub.start .start)
        leavesUnnoticed).isSome := by
      decide +kernel
    refine ⟨_, System.reachable_get (terminalHub.system_init rfl) hrun, ?_, ?_, ?_, ?_, ?_⟩
    · refine Program.forall_threads_of_runVia (p := (· = .away))
        (Option.some_get hrun).symm rfl ?_
      decide +kernel +revert
    all_goals decide +kernel +revert
  · have hrun : (terminalHub.system.run (terminalHub.start .start)
        leavesNoticed).isSome := by
      decide +kernel
    refine ⟨_, System.reachable_get (terminalHub.system_init rfl) hrun, ?_, ?_, ?_, ?_⟩
    · refine Program.forall_threads_of_runVia (p := (· = .away))
        (Option.some_get hrun).symm rfl ?_
      decide +kernel +revert
    all_goals decide +kernel +revert

end HerdrWebui.Hub
