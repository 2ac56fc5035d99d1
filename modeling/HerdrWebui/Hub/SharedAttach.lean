import HerdrWebui.Hub.ReaderLoop

/-!
The shared attach (`SharedAttach`): the replay ring and the vector of client
slots, with the effect of each lock hold of `publish` and `join`. A slot keeps
the sending half of a bounded channel; the channel's content is kept in the slot
with it, both what waits in the queue and what the client has taken out.
-/

namespace HerdrWebui.Hub

/-- `CLIENT_QUEUE_CAP`: the pending events of one client. -/
def clientQueueCap : Nat := 512

/-- A joined client: the replay it was handed and its event channel. -/
structure Client where
  replay : Bytes
  queue : List HubClientEvent
  received : List HubClientEvent
  connected : Bool
  deriving DecidableEq

def Client.joined (replay : Bytes) : Client := ⟨replay, [], [], true⟩

/-- `try_send`: `none` when the queue is full or the receiver is gone. -/
def Client.trySend (client : Client) (event : HubClientEvent) : Option Client :=
  if client.connected && decide (client.queue.length < clientQueueCap) then
    some { client with queue := client.queue ++ [event] }
  else none

/-- The client takes the oldest event out of its queue. -/
def Client.receive (client : Client) : Client :=
  match client.queue with
  | [] => client
  | event :: queue =>
    { client with queue := queue, received := client.received ++ [event] }

def Client.leave (client : Client) : Client := { client with connected := false }

structure SharedAttach where
  clients : List (Option Client)
  replay : ReplayRing

def SharedAttach.new (cap : Nat) : SharedAttach := ⟨[], .new cap⟩

/-- `publish` under the replay lock. -/
def SharedAttach.record (attach : SharedAttach) (event : HubClientEvent) :
    SharedAttach :=
  { attach with replay := recordEvent attach.replay event }

/-- `publish` under the clients lock: a client whose queue is full or whose
receiver is gone loses its slot. -/
def SharedAttach.fanOut (attach : SharedAttach) (event : HubClientEvent) :
    SharedAttach :=
  { attach with
    clients := attach.clients.map fun slot => slot.bind (·.trySend event) }

/-- `join` under the clients lock. -/
def SharedAttach.register (attach : SharedAttach) (snapshot : Bytes) :
    SharedAttach :=
  { attach with
    clients := attach.clients.filter (·.isSome) ++ [some (.joined snapshot)] }

/-- `live_clients`: the emptied slots are cleaned up on the way. -/
def SharedAttach.liveClients (attach : SharedAttach) : Nat × SharedAttach :=
  let clients := attach.clients.filter (·.isSome)
  (clients.length, { attach with clients := clients })

def HubClientEvent.payload : HubClientEvent → Bytes
  | .bytes chunk => chunk
  | .error _ _ _ => []

/-- Only bytes are recorded, under the replay lock. -/
def HubClientEvent.isBytes : HubClientEvent → Bool
  | .bytes _ => true
  | .error _ _ _ => false

/-- The bytes a client is given: the replay, then its live events. -/
def Client.delivered (client : Client) : Bytes :=
  client.replay ++ (client.received ++ client.queue).flatMap (·.payload)

@[simp] theorem Client.delivered_joined (replay : Bytes) :
    (Client.joined replay).delivered = replay := by
  simp [Client.joined, Client.delivered]

@[simp] theorem Client.delivered_receive (client : Client) :
    client.receive.delivered = client.delivered := by
  unfold Client.receive
  split
  · rfl
  · next hqueue => simp [Client.delivered, hqueue]

@[simp] theorem Client.delivered_leave (client : Client) :
    client.leave.delivered = client.delivered := rfl

theorem Client.delivered_trySend {client client' : Client} {event : HubClientEvent}
    (h : client.trySend event = some client') :
    client'.delivered = client.delivered ++ event.payload := by
  unfold Client.trySend at h
  split at h
  · obtain rfl := Option.some.inj h
    simp [Client.delivered]
  · cases h

theorem recordEvent_snapshot (ring : ReplayRing) (event : HubClientEvent) :
    (recordEvent ring event).snapshot =
      (ring.snapshot ++ event.payload).rtake ring.cap := by
  cases event with
  | bytes chunk => exact ring.pushBytes_snapshot chunk
  | error kind message suggestsBuiltin =>
    rw [HubClientEvent.payload, List.append_nil]
    exact (rtake_of_length_le (l := ring.snapshot) ring.bounded).symm

@[simp] theorem recordEvent_cap (ring : ReplayRing) (event : HubClientEvent) :
    (recordEvent ring event).cap = ring.cap := by
  cases event with
  | bytes chunk => exact ring.pushBytes_cap chunk
  | error kind message suggestsBuiltin => rfl

end HerdrWebui.Hub
