import HerdrWebui.Concurrency.System
import HerdrWebui.Hub.SharedAttach

/-!
Joins against publishes, one step for each lock hold. `publish` takes the replay
lock and the clients lock one after the other; `join` takes the clients lock
while it still holds the replay lock. One reader thread publishes. A join that
waits for the replay lock has no state of its own, so at most one join is under
way at a time, the one that holds the lock.
-/

namespace HerdrWebui.Hub

open Concurrency

structure HubState where
  attach : SharedAttach
  /-- The event of the publish between its two lock holds. -/
  publishing : Option HubClientEvent
  /-- The snapshot of the join that holds the replay lock. -/
  joining : Option Bytes
  /-- The bytes of the publishes that have returned. -/
  published : Bytes

def HubState.start (cap : Nat) : HubState := ⟨.new cap, none, none, []⟩

inductive HubAction where
  | publish (event : HubClientEvent)
  | fanOut
  | snapshot
  | register
  | liveClients
  | receive (slot : Nat)
  | leave (slot : Nat)

def onSlot (attach : SharedAttach) (slot : Nat) (f : Client → Client) :
    SharedAttach :=
  { attach with clients := attach.clients.modify slot (·.map f) }

def hubStep (s : HubState) : HubAction → Option HubState
  | .publish event =>
    -- An error is published without taking the replay lock.
    if s.publishing.isNone && (s.joining.isNone || !event.isBytes) then
      some { s with attach := s.attach.record event, publishing := some event }
    else none
  | .fanOut =>
    s.publishing.map fun event =>
      { s with
        attach := s.attach.fanOut event
        publishing := none
        published := s.published ++ event.payload }
  | .snapshot =>
    if s.joining.isNone then
      some { s with joining := some s.attach.replay.snapshot }
    else none
  | .register =>
    s.joining.map fun snapshot =>
      { s with attach := s.attach.register snapshot, joining := none }
  | .liveClients => some { s with attach := s.attach.liveClients.2 }
  | .receive slot => some { s with attach := onSlot s.attach slot (·.receive) }
  | .leave slot => some { s with attach := onSlot s.attach slot (·.leave) }

def hub : System HubState HubAction where
  init s := ∃ cap, s = .start cap
  step := hubStep

theorem hub_init (cap : Nat) : hub.init (.start cap) := ⟨cap, rfl⟩

/-- The bytes that are in the ring and not yet fanned out. -/
def HubState.inFlight (s : HubState) : Bytes :=
  (s.publishing.map (·.payload)).getD []

def HubState.Fits (s : HubState) : Prop :=
  (s.published ++ s.inFlight).length ≤ s.attach.replay.cap

instance (s : HubState) : Decidable s.Fits :=
  inferInstanceAs (Decidable (_ ≤ _))

/-- No client is registered while bytes are on their way from the ring to the
fan-out. -/
def RegistersAtRest (s : HubState) : HubAction → Prop
  | .register => s.inFlight = []
  | _ => True

instance (s : HubState) (a : HubAction) : Decidable (RegistersAtRest s a) :=
  match a with
  | .register => inferInstanceAs (Decidable (s.inFlight = []))
  | .publish _ | .fanOut | .snapshot | .liveClients | .receive _ | .leave _ =>
    .isTrue trivial

structure HubInvariant (s : HubState) : Prop where
  ring : s.attach.replay.snapshot =
    (s.published ++ s.inFlight).rtake s.attach.replay.cap
  joining : ∀ snapshot, s.joining = some snapshot →
    snapshot = s.attach.replay.snapshot
  clients : s.Fits → ∀ client, some client ∈ s.attach.clients →
    client.delivered = s.published

namespace HubInvariant

variable {s : HubState}

theorem start (cap : Nat) : HubInvariant (.start cap) where
  ring := by rw [HubState.inFlight]; exact (List.rtake_nil _).symm
  joining _ h := by cases h
  clients _ client h := by cases h

theorem publish (h : HubInvariant s) (hidle : s.publishing = none)
    {event : HubClientEvent} (hlock : s.joining = none ∨ event.isBytes = false) :
    HubInvariant { s with
      attach := s.attach.record event, publishing := some event } := by
  have hflight : s.inFlight = [] := by simp [HubState.inFlight, hidle]
  have hring := h.ring
  rw [hflight, List.append_nil] at hring
  constructor
  case ring =>
    change (recordEvent s.attach.replay event).snapshot =
      (s.published ++ event.payload).rtake (recordEvent s.attach.replay event).cap
    rw [recordEvent_snapshot, recordEvent_cap, hring, rtake_rtake_append]
  case joining =>
    intro snapshot hjoin
    rcases hlock with hnone | herror
    · exact absurd (hnone.symm.trans hjoin) (by simp)
    · cases event with
      | bytes chunk => cases herror
      | error kind message suggestsBuiltin => exact h.joining snapshot hjoin
  case clients =>
    intro hfits client hmem
    refine h.clients ?_ client hmem
    have hlen : (s.published ++ event.payload).length ≤ s.attach.replay.cap := by
      simpa [HubState.Fits, HubState.inFlight, SharedAttach.record] using hfits
    rw [List.length_append] at hlen
    simp only [HubState.Fits, hflight, List.append_nil]
    omega

theorem fanOut (h : HubInvariant s) {event : HubClientEvent}
    (hevent : s.publishing = some event) :
    HubInvariant { s with
      attach := s.attach.fanOut event
      publishing := none
      published := s.published ++ event.payload } := by
  have hflight : s.inFlight = event.payload := by simp [HubState.inFlight, hevent]
  have hring := h.ring
  rw [hflight] at hring
  constructor
  case ring => simpa [HubState.inFlight, SharedAttach.fanOut] using hring
  case joining => exact h.joining
  case clients =>
    intro hfits client hmem
    obtain ⟨slot, hslot, hsend⟩ := List.mem_map.mp hmem
    obtain ⟨before, rfl, htry⟩ := Option.bind_eq_some_iff.mp hsend
    have hbefore : before.delivered = s.published := by
      refine h.clients ?_ before hslot
      simpa [HubState.Fits, HubState.inFlight, hevent, SharedAttach.fanOut]
        using hfits
    rw [Client.delivered_trySend htry, hbefore]

theorem snapshot (h : HubInvariant s) :
    HubInvariant { s with joining := some s.attach.replay.snapshot } where
  ring := h.ring
  joining _ hjoin := (Option.some.inj hjoin).symm
  clients := h.clients

theorem register (h : HubInvariant s) {snapshot : Bytes}
    (hjoin : s.joining = some snapshot) (hrest : s.inFlight = []) :
    HubInvariant { s with
      attach := s.attach.register snapshot, joining := none } where
  ring := h.ring
  joining _ hnone := by cases hnone
  clients := by
    intro hfits client hmem
    rcases List.mem_append.mp hmem with hold | hnew
    · exact h.clients hfits client (List.mem_of_mem_filter hold)
    · obtain rfl : client = .joined snapshot := by simpa using hnew
      have hring := h.ring
      rw [hrest, List.append_nil] at hring
      rw [Client.delivered_joined, h.joining snapshot hjoin, hring]
      apply rtake_of_length_le
      have hlen : (s.published ++ s.inFlight).length ≤ s.attach.replay.cap := hfits
      rwa [hrest, List.append_nil] at hlen

theorem liveClients (h : HubInvariant s) :
    HubInvariant { s with attach := s.attach.liveClients.2 } where
  ring := h.ring
  joining := h.joining
  clients hfits client hmem :=
    h.clients hfits client (List.mem_of_mem_filter hmem)

theorem onSlot (h : HubInvariant s) (slot : Nat) {f : Client → Client}
    (hf : ∀ client, (f client).delivered = client.delivered) :
    HubInvariant { s with attach := onSlot s.attach slot f } where
  ring := h.ring
  joining := h.joining
  clients := by
    intro hfits client hmem
    obtain ⟨i, hi⟩ := List.mem_iff_getElem?.mp hmem
    rw [Hub.onSlot, List.getElem?_modify] at hi
    obtain ⟨before, hbefore, hclient⟩ := Option.map_eq_some_iff.mp hi
    split at hclient
    · obtain ⟨client', rfl, rfl⟩ := Option.map_eq_some_iff.mp hclient
      rw [hf]
      exact h.clients hfits client' (List.mem_of_getElem? hbefore)
    · obtain rfl := hclient
      exact h.clients hfits client (List.mem_of_getElem? hbefore)

theorem step (h : HubInvariant s) {a : HubAction} (hok : RegistersAtRest s a)
    {s' : HubState} (hstep : hubStep s a = some s') : HubInvariant s' := by
  cases a with
  | publish event =>
    simp only [hubStep] at hstep
    split at hstep
    · next hcond =>
        obtain rfl := Option.some.inj hstep
        simp only [Bool.and_eq_true, Bool.or_eq_true, Option.isNone_iff_eq_none,
          Bool.not_eq_true'] at hcond
        exact h.publish hcond.1 hcond.2
    · cases hstep
  | fanOut =>
    obtain ⟨event, hevent, rfl⟩ := Option.map_eq_some_iff.mp hstep
    exact h.fanOut hevent
  | snapshot =>
    simp only [hubStep] at hstep
    split at hstep
    · obtain rfl := Option.some.inj hstep
      exact h.snapshot
    · cases hstep
  | register =>
    obtain ⟨snapshot, hjoin, rfl⟩ := Option.map_eq_some_iff.mp hstep
    exact h.register hjoin hok
  | liveClients =>
    obtain rfl := Option.some.inj hstep
    exact h.liveClients
  | receive slot =>
    obtain rfl := Option.some.inj hstep
    exact h.onSlot slot Client.delivered_receive
  | leave slot =>
    obtain rfl := Option.some.inj hstep
    exact h.onSlot slot Client.delivered_leave

/-- A client registered between the two lock holds of a publish is given the
publish's bytes twice. -/
theorem register_between_doubles (h : HubInvariant s) (hfits : s.Fits)
    {snapshot : Bytes} (hjoin : s.joining = some snapshot)
    {event : HubClientEvent} (hevent : s.publishing = some event) :
    ∃ client, some client ∈ ((s.attach.register snapshot).fanOut event).clients ∧
      client.delivered = s.published ++ event.payload ++ event.payload := by
  have hring := h.ring
  have hflight : s.inFlight = event.payload := by simp [HubState.inFlight, hevent]
  rw [rtake_of_length_le hfits, hflight, ← h.joining snapshot hjoin] at hring
  obtain ⟨client, hsend⟩ : ∃ client, (Client.joined snapshot).trySend event = some client :=
    ⟨_, rfl⟩
  refine ⟨client, List.mem_map.mpr ⟨some (.joined snapshot), ?_, hsend⟩, ?_⟩
  · exact List.mem_append_right _ (List.mem_singleton.mpr rfl)
  · rw [Client.delivered_trySend hsend, Client.delivered_joined, hring]

end HubInvariant

/-- In a run that registers no client between the two lock holds of a publish,
every client that still has its slot was given exactly the bytes published,
in order. -/
theorem join_exactlyOnce {s : HubState} (h : hub.ReachVia RegistersAtRest s)
    (hfits : s.Fits) {client : Client} (hmem : some client ∈ s.attach.clients) :
    client.delivered = s.published := by
  have hinv : HubInvariant s := by
    refine h.invariant ?_ ?_
    · rintro _ ⟨cap, rfl⟩
      exact .start cap
    · exact fun _ _ _ _ hinv hok hstep => hinv.step hok hstep
  exact hinv.clients hfits client hmem

/-- The join is handed its snapshot and registered while the first publish has
recorded its byte and not yet fanned it out. -/
def registerBetween : List HubAction :=
  [.publish (.bytes [120]), .snapshot, .register, .fanOut]

theorem registerBetween_doubled :
    ∃ s, hub.Reachable s ∧ s.Fits ∧ s.publishing = none ∧ s.published = [120] ∧
      s.attach.clients.map (·.map (·.delivered)) = [some [120, 120]] := by
  have hrun : (hub.run (.start 64) registerBetween).isSome := by decide
  exact ⟨_, System.reachable_get (hub_init 64) hrun, by decide +revert,
    by decide +revert, by decide +revert, by decide +revert⟩

/-- One client joins before the publishes and one between them. -/
def registerAtRest : List HubAction :=
  [.snapshot, .register, .publish (.bytes [120]), .fanOut, .receive 0, .snapshot,
    .register, .publish (.bytes [121]), .fanOut]

theorem registerAtRest_exactlyOnce :
    ∃ s, hub.runVia RegistersAtRest (.start 64) registerAtRest = some s ∧
      s.published = [120, 121] ∧
      ∀ client, some client ∈ s.attach.clients → client.delivered = [120, 121] := by
  have hrun : (hub.runVia RegistersAtRest (.start 64) registerAtRest).isSome := by
    decide
  have hpublished : ((hub.runVia RegistersAtRest (.start 64) registerAtRest).get
      hrun).published = [120, 121] := by decide +revert
  have hfits : ((hub.runVia RegistersAtRest (.start 64) registerAtRest).get
      hrun).Fits := by decide +revert
  refine ⟨_, (Option.some_get hrun).symm, hpublished, fun client hmem => ?_⟩
  rw [← hpublished]
  exact join_exactlyOnce (System.reachVia_get (hub_init 64) hrun) hfits hmem

end HerdrWebui.Hub
