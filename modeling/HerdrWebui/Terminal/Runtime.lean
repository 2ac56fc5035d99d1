import HerdrWebui.Data.Tail
import HerdrWebui.Terminal.Frames

/-!
The parts of a terminal runtime (`TerminalRuntime`) that attached clients see:
the scrollback, the list of subscribers and the channel to each connection's
writer thread with its counter of pending bytes. Each definition is what the code
does under one lock, or with one atomic access outside of any.
-/

namespace HerdrWebui.Terminal

def maxScrollbackBytes : Nat := 8 * 1024 * 1024

/-- More than the scrollback bound, so a full replay never trips the shed. -/
def maxSubscriberPendingBytes : Nat := 2 * maxScrollbackBytes

/-- What is queued to a connection's writer thread. A replay carries the length
it was charged with. -/
inductive TerminalSubscriberMessage where
  | output (bytes : Bytes)
  | replay (frame : TerminalFrame) (charged : Nat)
  | exited
  | overflow
  deriving DecidableEq

/-- The channel to a writer thread: every message sent so far, how many of them
the writer took, the one it is writing, and the counter shared with the
subscriber. -/
structure Channel where
  sent : List TerminalSubscriberMessage
  taken : Nat
  writing : Option TerminalSubscriberMessage
  pendingBytes : Nat
  connected : Bool
  deriving DecidableEq

namespace Channel

def new : Channel := ⟨[], 0, none, 0, true⟩

/-- `tx.send`: fails once the receiver is gone. -/
def send (channel : Channel) (message : TerminalSubscriberMessage) :
    Channel × Bool :=
  if channel.connected then
    ({ channel with sent := channel.sent ++ [message] }, true)
  else (channel, false)

/-- `fetch_add` on the shared counter, which wraps at 64 bits. -/
def charge (channel : Channel) (n : Nat) : Channel :=
  { channel with pendingBytes := (channel.pendingBytes + n) % 2 ^ 64 }

/-- `fetch_sub` on the shared counter. -/
def discharge (channel : Channel) (n : Nat) : Channel :=
  { channel with
    pendingBytes := (channel.pendingBytes + (2 ^ 64 - n % 2 ^ 64)) % 2 ^ 64 }

/-- `append_output` for one subscriber, and whether it stays subscribed. The
chunk is counted before it is queued. -/
def deliver (bytes : Bytes) (channel : Channel) : Channel × Bool :=
  match (channel.charge bytes.length).send (.output bytes) with
  | (channel, true) =>
    if channel.pendingBytes > maxSubscriberPendingBytes then
      ((channel.send .overflow).1, false)
    else (channel, true)
  | (channel, false) => (channel.discharge bytes.length, false)

/-- The first attach queues the history as the first message. -/
def queueReplay (channel : Channel) (history : Bytes) (cols rows : Nat) : Channel :=
  let replayLen := max history.length 1
  match (channel.charge replayLen).send
      (.replay ⟨1, cols, rows, true, history⟩ replayLen) with
  | (channel, true) => channel
  | (channel, false) => channel.discharge replayLen

/-- The writer thread receives the next message. -/
def take (channel : Channel) : Option Channel :=
  match channel.writing, channel.sent[channel.taken]? with
  | none, some message =>
    if channel.connected then
      some { channel with taken := channel.taken + 1, writing := some message }
    else none
  | _, _ => none

/-- The write of the message at hand returns: the kernel accepted the frame, or
the writer thread ends. It ends after a notice in any case. -/
def written (channel : Channel) (accepted : Bool) : Option Channel :=
  channel.writing.map fun message =>
    let channel := { channel with writing := none }
    match message, accepted with
    | .output bytes, true => channel.discharge bytes.length
    | .replay _ charged, true => channel.discharge charged
    | _, _ => { channel with connected := false }

end Channel

/-- `append_output` under the scrollback lock. -/
def extendScrollback (scrollback chunk : Bytes) : Bytes :=
  let extended := scrollback ++ chunk
  extended.drop (extended.length - maxScrollbackBytes)

/-- `subscribers.retain`: visit every subscriber in order and keep those the
visit says to keep. -/
def retainSubscribers (visit : Channel → Channel × Bool) (channels : Nat → Channel) :
    List Nat → (Nat → Channel) × List Nat
  | [] => (channels, [])
  | k :: subscribers =>
    let visited := visit (channels k)
    let rest := retainSubscribers visit (Function.update channels k visited.1)
      subscribers
    (rest.1, if visited.2 then k :: rest.2 else rest.2)

section Retain

variable (visit : Channel → Channel × Bool)

theorem retainSubscribers_sublist (channels : Nat → Channel) (subscribers : List Nat) :
    (retainSubscribers visit channels subscribers).2.Sublist subscribers := by
  induction subscribers generalizing channels with
  | nil => exact List.Sublist.refl _
  | cons k subscribers ih =>
    simp only [retainSubscribers]
    split
    · exact (ih _).cons_cons k
    · exact (ih _).cons k

theorem retainSubscribers_of_notMem (channels : Nat → Channel) {subscribers : List Nat}
    {j : Nat} (hj : j ∉ subscribers) :
    (retainSubscribers visit channels subscribers).1 j = channels j := by
  induction subscribers generalizing channels with
  | nil => rfl
  | cons k subscribers ih =>
    rw [List.mem_cons, not_or] at hj
    simp only [retainSubscribers]
    rw [ih _ hj.2, Function.update_of_ne hj.1]

theorem retainSubscribers_forall {P : Nat → Channel → Prop}
    (hvisit : ∀ j channel, P j channel → P j (visit channel).1)
    {channels : Nat → Channel} (h : ∀ j, P j (channels j)) (subscribers : List Nat)
    (j : Nat) : P j ((retainSubscribers visit channels subscribers).1 j) := by
  induction subscribers generalizing channels with
  | nil => exact h j
  | cons k subscribers ih =>
    simp only [retainSubscribers]
    apply ih
    intro i
    rcases eq_or_ne i k with rfl | hne
    · rw [Function.update_self]
      exact hvisit i _ (h i)
    · rw [Function.update_of_ne hne]
      exact h i

theorem retainSubscribers_visits (channels : Nat → Channel) {subscribers : List Nat}
    (hnodup : subscribers.Nodup) {j : Nat} (hj : j ∈ subscribers) :
    (retainSubscribers visit channels subscribers).1 j = (visit (channels j)).1 ∧
      (j ∈ (retainSubscribers visit channels subscribers).2 ↔
        (visit (channels j)).2 = true) := by
  induction subscribers generalizing channels with
  | nil => cases hj
  | cons k subscribers ih =>
    obtain ⟨hk, hrest⟩ := List.nodup_cons.mp hnodup
    have hlater (channels : Nat → Channel) :
        k ∉ (retainSubscribers visit channels subscribers).2 := fun hmem =>
      hk ((retainSubscribers_sublist visit channels subscribers).subset hmem)
    simp only [retainSubscribers]
    rcases eq_or_ne j k with rfl | hne
    · rw [retainSubscribers_of_notMem _ _ hk, Function.update_self]
      refine ⟨rfl, ?_⟩
      split
      · next hstay => simp [hstay]
      · next hleave => simp [hleave, hlater]
    · have hvisited := ih (Function.update channels k (visit (channels k)).1) hrest
        ((List.mem_cons.mp hj).resolve_left hne)
      rw [Function.update_of_ne hne] at hvisited
      refine ⟨hvisited.1, ?_⟩
      split
      · rw [List.mem_cons, or_iff_right hne]
        exact hvisited.2
      · exact hvisited.2

theorem retainSubscribers_of_mem (channels : Nat → Channel) {subscribers : List Nat}
    (hnodup : subscribers.Nodup) {j : Nat}
    (hj : j ∈ (retainSubscribers visit channels subscribers).2) :
    (visit (channels j)).2 = true ∧
      (retainSubscribers visit channels subscribers).1 j = (visit (channels j)).1 := by
  have hmem := (retainSubscribers_sublist visit channels subscribers).subset hj
  obtain ⟨hchannel, hstays⟩ := retainSubscribers_visits visit channels hnodup hmem
  exact ⟨hstays.mp hj, hchannel⟩

end Retain

def TerminalSubscriberMessage.payload : TerminalSubscriberMessage → Bytes
  | .output chunk => chunk
  | .replay frame _ => frame.bytes
  | .exited | .overflow => []

/-- The terminal bytes queued to a client so far, in order. -/
def Channel.payload (channel : Channel) : Bytes :=
  channel.sent.flatMap (·.payload)

theorem Channel.payload_deliver {channel : Channel} {bytes : Bytes}
    (hkept : (channel.deliver bytes).2 = true) :
    (channel.deliver bytes).1.payload = channel.payload ++ bytes := by
  cases hconnected : channel.connected with
  | false => simp [deliver, send, charge, hconnected] at hkept
  | true =>
    simp only [deliver, send, charge, hconnected, if_true] at hkept ⊢
    split at hkept
    · cases hkept
    · next hroom =>
        rw [if_neg hroom]
        simp [payload, TerminalSubscriberMessage.payload]

theorem Channel.payload_exited (channel : Channel) :
    (channel.send .exited).1.payload = channel.payload := by
  unfold send
  split <;> simp [payload, TerminalSubscriberMessage.payload]

theorem Channel.payload_queueReplay (history : Bytes) (cols rows : Nat) :
    (new.queueReplay history cols rows).payload = history := by
  simp [queueReplay, new, charge, send, payload, TerminalSubscriberMessage.payload]

theorem Channel.payload_take {channel channel' : Channel}
    (h : channel.take = some channel') : channel'.payload = channel.payload := by
  unfold take at h
  split at h
  · split at h
    · obtain rfl := Option.some.inj h
      rfl
    · cases h
  · cases h

theorem Channel.payload_written {channel channel' : Channel} {accepted : Bool}
    (h : channel.written accepted = some channel') :
    channel'.payload = channel.payload := by
  obtain ⟨message, _, rfl⟩ := Option.map_eq_some_iff.mp h
  dsimp only
  split <;> rfl

end HerdrWebui.Terminal
