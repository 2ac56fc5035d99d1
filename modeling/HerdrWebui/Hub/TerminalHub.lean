import HerdrWebui.Concurrency.Threads
import HerdrWebui.Data.Table
import HerdrWebui.Hub.Join

/-!
The hub (`TerminalHub`) with all its attaches: viewers that join and leave, the
task and the reader thread of each attach, and the grace tasks that detach an
attach nobody watches. One step is one lock hold or one access to a flag.

The end of an attach is two steps: the flag is set first, the client list is
cleared afterwards, once. A join reads the flag when it looks the attach up and
registers its client later.
-/

namespace HerdrWebui.Hub

open Concurrency

/-- The client socket path and the terminal id. -/
abbrev HubKey := String × String

/-- Where the task of an attach, or its reader thread, is. -/
inductive AttachThread where
  | connecting
  | reading (firstFrame : Bool)
  /-- A full frame has replaced the ring and is yet to be published. -/
  | replaced (bytes : Bytes)
  | failing (event : HubClientEvent)
  | clearing
  | ending
  | ended
  deriving DecidableEq

/-- A `SharedAttach` with the threads behind it. -/
structure LiveAttach where
  key : HubKey
  hub : HubState
  closed : Bool
  thread : AttachThread
  writerRuns : Bool
  /-- The messages queued for the backend so far. -/
  input : List ClientMessage
  /-- The receiving half of the input queue is there. -/
  inputOpen : Bool
  /-- How many clients were registered. -/
  joins : Nat

def LiveAttach.new (key : HubKey) (cap : Nat) : LiveAttach where
  key := key
  hub := .start cap
  closed := false
  thread := .connecting
  writerRuns := false
  input := []
  inputOpen := true
  joins := 0

inductive AttachAction where
  | connects
  | fails (event : HubClientEvent)
  | readFrame (frame : TerminalFrame)
  | readGraphics (bytes : Bytes)
  | publishFull
  | fanOut
  | streamEnds
  | publishFailure
  | clear
  | writerEnds
  | receive (slot : Nat)
  | leave (slot : Nat)

namespace LiveAttach

variable (attach : LiveAttach)

def clients : List (Option Client) := attach.hub.attach.clients

def setClients (clients : List (Option Client)) : LiveAttach :=
  { attach with hub.attach.clients := clients }

/-- A lock hold on the replay ring or the clients. -/
def onHub (action : HubAction) : Option LiveAttach :=
  (hubStep attach.hub action).map fun hub => { attach with hub := hub }

def publish (event : HubClientEvent) (thread : AttachThread) : Option LiveAttach :=
  { attach with thread := thread }.onHub (.publish event)

end LiveAttach

def attachStep (attach : LiveAttach) : AttachAction → Option LiveAttach
  | .connects =>
    if attach.thread = .connecting then
      some { attach with thread := .reading true, writerRuns := true }
    else none
  | .fails event =>
    -- No connection, no second handle on the socket, or no first frame in time.
    if attach.thread = .connecting ∨ attach.thread = .reading true then
      some { attach with closed := true, thread := .failing event }
    else none
  | .readFrame frame =>
    match attach.thread, attach.hub.publishing, attach.hub.joining with
    | .reading _, none, none =>
      if frame.full then
        some { attach with
          hub.attach.replay := attach.hub.attach.replay.replaceWith frame.bytes
          thread := .replaced frame.bytes }
      else attach.publish (.bytes frame.bytes) (.reading false)
    | _, _, _ => none
  | .readGraphics bytes =>
    match attach.thread, attach.hub.publishing with
    | .reading _, none => attach.publish (.bytes bytes) (.reading false)
    | _, _ => none
  | .publishFull =>
    match attach.thread with
    | .replaced bytes => attach.publish (.bytes bytes) (.reading false)
    | _ => none
  | .fanOut => attach.onHub .fanOut
  | .streamEnds =>
    match attach.thread, attach.hub.publishing with
    | .reading _, none => some { attach with closed := true, thread := .ending }
    | _, _ => none
  | .publishFailure =>
    match attach.thread with
    | .failing event => attach.publish event .clearing
    | _ => none
  | .clear =>
    match attach.thread, attach.hub.publishing with
    | .clearing, none => some { attach.setClients [] with thread := .ended }
    | .ending, none =>
      some { attach.setClients (attach.clients.map fun _ => none) with
        thread := .ended }
    | _, _ => none
  | .writerEnds =>
    -- The writer thread, or the task that could not start it, drops the queue.
    if attach.writerRuns ∨ attach.thread = .ended then
      some { attach with inputOpen := false }
    else none
  | .receive slot => attach.onHub (.receive slot)
  | .leave slot => attach.onHub (.leave slot)

inductive GracePhase where
  | sleeping
  | counting
  | sending
  | over
  deriving DecidableEq

/-- The task a detach spawned when it found nobody on the attach; `joins` clients
had been registered on it by then. -/
structure GraceTask where
  attach : Nat
  joins : Nat
  phase : GracePhase
  deriving DecidableEq

structure HubShared where
  map : Table HubKey Nat
  attaches : Nat → LiveAttach
  /-- How many attaches were made, and the number of the next one. -/
  started : Nat
  graces : List GraceTask

def HubShared.start : HubShared where
  map := ∅
  attaches _ := .new ("", "") 0
  started := 0
  graces := []

/-- A viewer in `join` or in the `detach` of its guard. An explicit detach is
followed by the one of the guard's drop. -/
inductive Viewer where
  | away
  | joining (key : HubKey)
  | starting (key : HubKey)
  | entering (key : HubKey) (a : Nat)
  | registering (key : HubKey) (a : Nat)
  | watching (key : HubKey)
  | detaching (key : HubKey) (again : Bool)
  | reaping (key : HubKey) (again : Bool)
  | counting (key : HubKey) (a : Nat) (again : Bool)
  deriving DecidableEq

inductive HubCall where
  | join (key : HubKey)
  | liveAttach
  | startAttach (cap : Nat)
  | snapshot
  | register
  | detach (explicit : Bool)
  | reapIfClosed
  | liveClients
  | attach (a : Nat) (action : AttachAction)
  | grace (n : Nat) (upgraded : Bool)

namespace HubShared

variable (s : HubShared)

def setAttach (a : Nat) (attach : LiveAttach) : HubShared :=
  { s with attaches := Function.update s.attaches a attach }

/-- `live_attach`, under the map's lock. -/
def liveAttach (key : HubKey) : Option Nat :=
  (s.map.lookup key).filter fun a => !(s.attaches a).closed

/-- `start_attach` under the map's lock: a live attach may have appeared. -/
def startAttach (key : HubKey) (cap : Nat) : HubShared × Nat :=
  match s.liveAttach key with
  | some a => (s, a)
  | none =>
    ({ s.setAttach s.started (.new key cap) with
        map := s.map.insert key s.started
        started := s.started + 1 }, s.started)

def reapIfClosed (key : HubKey) : HubShared :=
  match s.map.lookup key with
  | some a => if (s.attaches a).closed then { s with map := s.map.erase key } else s
  | none => s

def onHub (a : Nat) (action : HubAction) : Option HubShared :=
  ((s.attaches a).onHub action).map (s.setAttach a)

/-- `SharedAttach::join` under the clients lock. -/
def register (a : Nat) : Option HubShared :=
  ((s.attaches a).onHub .register).map fun attach =>
    s.setAttach a { attach with joins := attach.joins + 1 }

/-- `live_clients`, with the number it returns. -/
def liveClients (a : Nat) : HubShared × Nat :=
  (s.setAttach a ((s.attaches a).setClients (s.attaches a).hub.attach.liveClients.2.clients),
    (s.attaches a).hub.attach.liveClients.1)

/-- `tokio::spawn` of the task that detaches after the grace window. -/
def scheduleGrace (a : Nat) : HubShared :=
  { s with graces := s.graces ++ [⟨a, (s.attaches a).joins, .sleeping⟩] }

def setGrace (n : Nat) (phase : GracePhase) : HubShared :=
  { s with graces := s.graces.modify n fun task => { task with phase := phase } }

/-- `in_tx.send(ClientMessage::Detach)`. -/
def sendDetach (a : Nat) : HubShared :=
  let attach := s.attaches a
  if attach.inputOpen then
    s.setAttach a { attach with input := attach.input ++ [.detach] }
  else s

end HubShared

/-- The next thing after a `detach`: the one of the guard's drop, if an explicit
one went before. -/
def Viewer.afterDetach (key : HubKey) (again : Bool) : Viewer :=
  if again then .detaching key false else .away

/-- One step of a grace task. `upgrade` fails when the last reference is gone. -/
def graceStep (s : HubShared) (n : Nat) (task : GraceTask) (upgraded : Bool) :
    Option HubShared :=
  let attach := s.attaches task.attach
  match task.phase with
  | .sleeping =>
    if upgraded then some (s.setGrace n .counting)
    else if attach.thread = .ended ∧ s.map.lookup attach.key ≠ some task.attach then
      some (s.setGrace n .over)
    else none
  | .counting =>
    let counted := s.liveClients task.attach
    some (counted.1.setGrace n (if counted.2 > 0 then .over else .sending))
  | .sending => some ((s.sendDetach task.attach).setGrace n .over)
  | .over => none

def hubCallStep (call : HubCall) (s : HubShared) (viewer : Viewer) :
    Option (HubShared × Viewer) :=
  match call, viewer with
  | .join key, .away => some (s, .joining key)
  | .liveAttach, .joining key =>
    match s.liveAttach key with
    | some a => some (s, .entering key a)
    | none => some (s, .starting key)
  | .startAttach cap, .starting key =>
    let started := s.startAttach key cap
    some (started.1, .entering key started.2)
  | .snapshot, .entering key a =>
    (s.onHub a .snapshot).map fun s => (s, .registering key a)
  | .register, .registering key a => (s.register a).map fun s => (s, .watching key)
  | .detach explicit, .watching key => some (s, .detaching key explicit)
  | .liveAttach, .detaching key again =>
    match s.liveAttach key with
    | some a => some (s, .counting key a again)
    | none => some (s, .reaping key again)
  | .reapIfClosed, .reaping key again =>
    some (s.reapIfClosed key, .afterDetach key again)
  | .liveClients, .counting key a again =>
    let counted := s.liveClients a
    some (if counted.2 > 0 then counted.1 else counted.1.scheduleGrace a,
      .afterDetach key again)
  | .attach a action, viewer =>
    if a < s.started then
      (attachStep (s.attaches a) action).map fun attach => (s.setAttach a attach, viewer)
    else none
  | .grace n upgraded, viewer =>
    (s.graces[n]?.bind fun task => graceStep s n task upgraded).map (·, viewer)
  | _, _ => none

def terminalHub : Program HubShared Viewer HubCall where
  init s := s = .start
  idle := .away
  step := hubCallStep

def SharedAttach.Deserted (attach : SharedAttach) : Prop :=
  ∀ slot ∈ attach.clients, slot = none

theorem SharedAttach.deserted_liveClients {attach : SharedAttach} :
    attach.Deserted ↔ attach.liveClients.1 = 0 := by
  simp only [Deserted, liveClients, List.length_eq_zero_iff, List.filter_eq_nil_iff]
  apply forall₂_congr
  intro slot _
  cases slot <;> simp

theorem hubStep_deserted {s s' : HubState} {a : HubAction} (hstep : hubStep s a = some s')
    (hjoin : a ≠ .register) (h : s.attach.Deserted) : s'.attach.Deserted := by
  cases a with
  | register => exact absurd rfl hjoin
  | publish event =>
    simp only [hubStep] at hstep
    split at hstep
    · obtain rfl := Option.some.inj hstep
      exact h
    · cases hstep
  | fanOut =>
    obtain ⟨event, _, rfl⟩ := Option.map_eq_some_iff.mp hstep
    intro slot hslot
    obtain ⟨before, hbefore, rfl⟩ := List.mem_map.mp hslot
    rw [h before hbefore]
    rfl
  | snapshot =>
    simp only [hubStep] at hstep
    split at hstep
    · obtain rfl := Option.some.inj hstep
      exact h
    · cases hstep
  | liveClients =>
    obtain rfl := Option.some.inj hstep
    exact fun slot hslot => h slot (List.mem_of_mem_filter hslot)
  | receive k | leave k =>
    obtain rfl := Option.some.inj hstep
    intro slot hslot
    obtain ⟨i, hi⟩ := List.mem_iff_getElem?.mp hslot
    rw [onSlot, List.getElem?_modify] at hi
    obtain ⟨before, hbefore, rfl⟩ := Option.map_eq_some_iff.mp hi
    rw [h before (List.mem_of_getElem? hbefore)]
    split <;> rfl

namespace LiveAttach

variable {attach attach' : LiveAttach}

def Deserted (attach : LiveAttach) : Prop := attach.hub.attach.Deserted

theorem onHub_frame {action : HubAction} (h : attach.onHub action = some attach') :
    ∃ hub, hubStep attach.hub action = some hub ∧ attach' = { attach with hub := hub } := by
  obtain ⟨hub, hstep, rfl⟩ := Option.map_eq_some_iff.mp h
  exact ⟨hub, hstep, rfl⟩

theorem onHub_deserted {action : HubAction} (h : attach.onHub action = some attach')
    (hjoin : action ≠ .register) (hdeserted : attach.Deserted) : attach'.Deserted := by
  obtain ⟨hub, hstep, rfl⟩ := onHub_frame h
  exact hubStep_deserted hstep hjoin hdeserted

theorem publish_frame {event : HubClientEvent} {thread : AttachThread}
    (h : attach.publish event thread = some attach') :
    ∃ hub, hubStep attach.hub (.publish event) = some hub ∧
      attach' = { attach with hub := hub, thread := thread } := by
  obtain ⟨hub, hstep, rfl⟩ := onHub_frame h
  exact ⟨hub, hstep, rfl⟩

end LiveAttach

/-- The end has begun: the flag is set, or was found set. -/
def AttachThread.ends : AttachThread → Bool
  | .failing _ | .clearing | .ending | .ended => true
  | .connecting | .reading _ | .replaced _ => false

structure AttachMoves (attach attach' : LiveAttach) : Prop where
  key : attach'.key = attach.key
  joins : attach'.joins = attach.joins
  input : attach.input ⊆ attach'.input
  inputOpen : attach.inputOpen = false → attach'.inputOpen = false
  closed : attach.closed = true → attach'.closed = true
  ended : attach.thread = .ended → attach'.thread = .ended
  deserted : attach.Deserted → attach'.Deserted
  ends : attach.closed = attach.thread.ends → attach'.closed = attach'.thread.ends
  cleared : (attach.thread = .ended → attach.Deserted) →
    attach'.thread = .ended → attach'.Deserted

namespace AttachMoves

variable {attach attach' : LiveAttach}

theorem refl (attach : LiveAttach) : AttachMoves attach attach :=
  ⟨rfl, rfl, List.Subset.refl _, id, id, id, id, id, fun h => h⟩

theorem of_liveClients (attach : LiveAttach) :
    AttachMoves attach (attach.setClients attach.hub.attach.liveClients.2.clients) where
  key := rfl
  joins := rfl
  input := List.Subset.refl _
  inputOpen := id
  closed := id
  ended := id
  deserted h slot hslot := h slot (List.mem_of_mem_filter hslot)
  ends := id
  cleared h hended slot hslot := h hended slot (List.mem_of_mem_filter hslot)

theorem of_detach (attach : LiveAttach) :
    AttachMoves attach { attach with input := attach.input ++ [.detach] } where
  key := rfl
  joins := rfl
  input := List.subset_append_left _ _
  inputOpen := id
  closed := id
  ended := id
  deserted := id
  ends := id
  cleared h := h

theorem of_onHub {action : HubAction} (h : attach.onHub action = some attach')
    (hjoin : action ≠ .register) : AttachMoves attach attach' := by
  have hdeserted := LiveAttach.onHub_deserted h hjoin
  obtain ⟨hub, _, rfl⟩ := LiveAttach.onHub_frame h
  exact
    { key := rfl, joins := rfl, input := List.Subset.refl _
      inputOpen := id, closed := id, ended := id
      deserted := hdeserted
      ends := id
      cleared := fun hbefore hended => hdeserted (hbefore hended) }

theorem of_thread {thread : AttachThread} {closed : Bool}
    (hclosed : attach.closed = true → closed = true)
    (hbefore : attach.thread ≠ .ended) (hafter : thread ≠ .ended)
    (hends : attach.closed = attach.thread.ends → closed = thread.ends) :
    AttachMoves attach { attach with thread := thread, closed := closed } where
  key := rfl
  joins := rfl
  input := List.Subset.refl _
  inputOpen := id
  closed := hclosed
  ended h := absurd h hbefore
  deserted := id
  ends := hends
  cleared _ h := absurd h hafter

theorem of_publish {event : HubClientEvent} {thread : AttachThread}
    (h : attach.publish event thread = some attach')
    (hbefore : attach.thread ≠ .ended) (hafter : thread ≠ .ended)
    (hends : attach.thread.ends = thread.ends) : AttachMoves attach attach' := by
  obtain ⟨hub, hstep, rfl⟩ := LiveAttach.publish_frame h
  have hdeserted (hnone : attach.Deserted) : hub.attach.Deserted :=
    hubStep_deserted hstep nofun hnone
  exact
    { key := rfl, joins := rfl, input := List.Subset.refl _, inputOpen := id, closed := id
      ended := fun hended => absurd hended hbefore
      deserted := hdeserted
      ends := fun hsame => hsame.trans hends
      cleared := fun _ hended => absurd hended hafter }

theorem of_clear {clients : List (Option Client)} (hclear : ∀ slot ∈ clients, slot = none)
    (hends : attach.thread.ends = true) :
    AttachMoves attach { attach.setClients clients with thread := .ended } where
  key := rfl
  joins := rfl
  input := List.Subset.refl _
  inputOpen := id
  closed := id
  ended _ := rfl
  deserted _ := hclear
  ends h := h.trans hends
  cleared _ _ := hclear

end AttachMoves

theorem attachStep_moves {attach attach' : LiveAttach} {action : AttachAction}
    (hstep : attachStep attach action = some attach') : AttachMoves attach attach' := by
  cases action with
  | connects =>
    simp only [attachStep] at hstep
    split at hstep
    · next hthread =>
        obtain rfl := Option.some.inj hstep
        have hmoves : AttachMoves attach { attach with thread := .reading true } :=
          .of_thread id (by rw [hthread]; nofun) nofun (by rw [hthread]; exact id)
        exact { hmoves with }
    · cases hstep
  | fails event =>
    simp only [attachStep] at hstep
    split at hstep
    · next hthread =>
        obtain rfl := Option.some.inj hstep
        refine .of_thread (fun _ => rfl) ?_ nofun fun _ => rfl
        rcases hthread with hthread | hthread <;> rw [hthread] <;> nofun
    · cases hstep
  | readFrame frame =>
    simp only [attachStep] at hstep
    split at hstep
    · next first hthread _ _ =>
        split at hstep
        · obtain rfl := Option.some.inj hstep
          have hmoves : AttachMoves attach
              { attach with thread := .replaced frame.bytes } :=
            .of_thread id (by rw [hthread]; nofun) nofun (by rw [hthread]; exact id)
          exact { hmoves with }
        · refine .of_publish hstep ?_ nofun ?_ <;> rw [hthread]
          · nofun
          · rfl
    · cases hstep
  | readGraphics bytes =>
    simp only [attachStep] at hstep
    split at hstep
    · next first hthread _ =>
        refine .of_publish hstep ?_ nofun ?_ <;> rw [hthread]
        · nofun
        · rfl
    · cases hstep
  | publishFull =>
    simp only [attachStep] at hstep
    split at hstep
    · next bytes hthread =>
        refine .of_publish hstep ?_ nofun ?_ <;> rw [hthread]
        · nofun
        · rfl
    · cases hstep
  | fanOut => exact .of_onHub hstep nofun
  | streamEnds =>
    simp only [attachStep] at hstep
    split at hstep
    · next first hthread _ =>
        obtain rfl := Option.some.inj hstep
        exact .of_thread (fun _ => rfl) (by rw [hthread]; nofun) nofun fun _ => rfl
    · cases hstep
  | publishFailure =>
    simp only [attachStep] at hstep
    split at hstep
    · next event hthread =>
        refine .of_publish hstep ?_ nofun ?_ <;> rw [hthread]
        · nofun
        · rfl
    · cases hstep
  | clear =>
    simp only [attachStep] at hstep
    split at hstep
    · next hthread _ =>
        obtain rfl := Option.some.inj hstep
        refine .of_clear nofun ?_
        rw [hthread]
        rfl
    · next hthread _ =>
        obtain rfl := Option.some.inj hstep
        refine .of_clear ?_ ?_
        · intro slot hslot
          obtain ⟨_, _, rfl⟩ := List.mem_map.mp hslot
          rfl
        · rw [hthread]
          rfl
    · cases hstep
  | writerEnds =>
    simp only [attachStep] at hstep
    split at hstep
    · obtain rfl := Option.some.inj hstep
      exact
        { key := rfl, joins := rfl, input := List.Subset.refl _
          inputOpen := fun _ => rfl, closed := id
          ended := id, deserted := id, ends := id, cleared := id }
    · cases hstep
  | receive slot | leave slot => exact .of_onHub hstep nofun

/-- A client was registered. -/
structure Registers (attach attach' : LiveAttach) : Prop where
  key : attach'.key = attach.key
  joins : attach'.joins = attach.joins + 1
  input : attach'.input = attach.input
  inputOpen : attach'.inputOpen = attach.inputOpen
  closed : attach'.closed = attach.closed
  thread : attach'.thread = attach.thread

namespace HubShared

variable {s s' : HubShared}

@[simp] theorem setAttach_same (s : HubShared) (a : Nat) (attach : LiveAttach) :
    (s.setAttach a attach).attaches a = attach := by
  simp [setAttach]

theorem setAttach_other (s : HubShared) {a b : Nat} (hne : b ≠ a) (attach : LiveAttach) :
    (s.setAttach a attach).attaches b = s.attaches b := by
  simp [setAttach, hne]

theorem setAttach_moves {a : Nat} {attach : LiveAttach}
    (h : AttachMoves (s.attaches a) attach) (b : Nat) :
    AttachMoves (s.attaches b) ((s.setAttach a attach).attaches b) := by
  rcases eq_or_ne b a with rfl | hne
  · rwa [setAttach_same]
  · rw [setAttach_other s hne]
    exact .refl _

theorem onHub_moves {a : Nat} {action : HubAction} (h : s.onHub a action = some s')
    (hjoin : action ≠ .register) (b : Nat) :
    AttachMoves (s.attaches b) (s'.attaches b) := by
  obtain ⟨attach, hattach, rfl⟩ := Option.map_eq_some_iff.mp h
  exact setAttach_moves (.of_onHub hattach hjoin) b

theorem liveClients_moves (s : HubShared) (a b : Nat) :
    AttachMoves (s.attaches b) ((s.liveClients a).1.attaches b) :=
  setAttach_moves (.of_liveClients _) b

theorem reapIfClosed_attaches (s : HubShared) (key : HubKey) :
    (s.reapIfClosed key).attaches = s.attaches := by
  unfold reapIfClosed
  split
  · split <;> rfl
  · rfl

theorem sendDetach_frame (s : HubShared) (a : Nat) :
    (s.sendDetach a).map = s.map ∧ (s.sendDetach a).started = s.started ∧
      (s.sendDetach a).graces = s.graces := by
  unfold sendDetach
  dsimp only
  split <;> exact ⟨rfl, rfl, rfl⟩

theorem sendDetach_moves (s : HubShared) (a b : Nat) :
    AttachMoves (s.attaches b) ((s.sendDetach a).attaches b) := by
  unfold sendDetach
  dsimp only
  split
  · exact setAttach_moves (.of_detach _) b
  · exact .refl _

theorem register_attaches {a : Nat} (h : s.register a = some s') (b : Nat) :
    (b = a ∧ Registers (s.attaches b) (s'.attaches b)) ∨
      AttachMoves (s.attaches b) (s'.attaches b) := by
  obtain ⟨attach, hattach, rfl⟩ := Option.map_eq_some_iff.mp h
  rcases eq_or_ne b a with rfl | hne
  · left
    obtain ⟨hub, _, rfl⟩ := LiveAttach.onHub_frame hattach
    rw [setAttach_same]
    exact ⟨rfl, rfl, rfl, rfl, rfl, rfl, rfl⟩
  · right
    rw [setAttach_other s hne]
    exact .refl _

theorem startAttach_attaches (s : HubShared) (key : HubKey) (cap b : Nat) :
    (b = s.started ∧ (s.startAttach key cap).1.attaches b = .new key cap) ∨
      AttachMoves (s.attaches b) ((s.startAttach key cap).1.attaches b) := by
  unfold startAttach
  split
  · exact .inr (.refl _)
  · rcases eq_or_ne b s.started with rfl | hne
    · left
      exact ⟨rfl, setAttach_same s s.started _⟩
    · right
      dsimp only
      rw [setAttach_other s hne]
      exact .refl _

end HubShared

theorem graceStep_moves {s s' : HubShared} {n : Nat} {task : GraceTask} {upgraded : Bool}
    (hstep : graceStep s n task upgraded = some s') (b : Nat) :
    AttachMoves (s.attaches b) (s'.attaches b) := by
  simp only [graceStep] at hstep
  split at hstep
  · split at hstep
    · obtain rfl := Option.some.inj hstep
      exact .refl _
    · split at hstep
      · obtain rfl := Option.some.inj hstep
        exact .refl _
      · cases hstep
  · obtain rfl := Option.some.inj hstep
    exact s.liveClients_moves task.attach b
  · obtain rfl := Option.some.inj hstep
    exact s.sendDetach_moves task.attach b
  · cases hstep

theorem graceStep_frame {s s' : HubShared} {n : Nat} {task : GraceTask} {upgraded : Bool}
    (hstep : graceStep s n task upgraded = some s') :
    s'.map = s.map ∧ s'.started = s.started := by
  simp only [graceStep] at hstep
  split at hstep
  · split at hstep
    · obtain rfl := Option.some.inj hstep
      exact ⟨rfl, rfl⟩
    · split at hstep
      · obtain rfl := Option.some.inj hstep
        exact ⟨rfl, rfl⟩
      · cases hstep
  · obtain rfl := Option.some.inj hstep
    exact ⟨rfl, rfl⟩
  · obtain rfl := Option.some.inj hstep
    obtain ⟨hmap, hstarted, _⟩ := s.sendDetach_frame task.attach
    exact ⟨hmap, hstarted⟩
  · cases hstep

/-- What a step of the hub can do: it moves attaches along and no more than that,
or it is one of the steps that count for more. -/
inductive HubEffect (s : HubShared) : HubCall → Viewer → HubShared → Prop
  | moves {call : HubCall} {viewer : Viewer} {s' : HubShared}
      (map : s'.map = s.map) (started : s'.started = s.started)
      (graces : s'.graces = s.graces)
      (attaches : ∀ b, AttachMoves (s.attaches b) (s'.attaches b)) :
      HubEffect s call viewer s'
  | registers {key : HubKey} {a : Nat} {s' : HubShared} (h : s.register a = some s') :
      HubEffect s .register (.registering key a) s'
  | starts (key : HubKey) (cap : Nat) :
      HubEffect s (.startAttach cap) (.starting key) (s.startAttach key cap).1
  | reaps (key : HubKey) (again : Bool) :
      HubEffect s .reapIfClosed (.reaping key again) (s.reapIfClosed key)
  | schedules {key : HubKey} {a : Nat} {again : Bool} (hnobody : (s.liveClients a).2 = 0) :
      HubEffect s .liveClients (.counting key a again)
        ((s.liveClients a).1.scheduleGrace a)
  | grace {n : Nat} {task : GraceTask} {upgraded : Bool} {viewer : Viewer}
      {s' : HubShared} (htask : s.graces[n]? = some task)
      (hstep : graceStep s n task upgraded = some s') :
      HubEffect s (.grace n upgraded) viewer s'

theorem hubCallStep_effect {call : HubCall} {s s' : HubShared} {viewer viewer' : Viewer}
    (hstep : hubCallStep call s viewer = some (s', viewer')) :
    HubEffect s call viewer s' := by
  unfold hubCallStep at hstep
  split at hstep
  · cases hstep
    exact .moves rfl rfl rfl fun _ => .refl _
  · split at hstep
    · cases hstep
      exact .moves rfl rfl rfl fun _ => .refl _
    · cases hstep
      exact .moves rfl rfl rfl fun _ => .refl _
  · cases hstep
    exact .starts _ _
  · obtain ⟨next, hhub, hpair⟩ := Option.map_eq_some_iff.mp hstep
    cases hpair
    have hmoves := HubShared.onHub_moves hhub nofun
    obtain ⟨attach, _, rfl⟩ := Option.map_eq_some_iff.mp hhub
    exact .moves rfl rfl rfl hmoves
  · obtain ⟨next, hregister, hpair⟩ := Option.map_eq_some_iff.mp hstep
    cases hpair
    exact .registers hregister
  · cases hstep
    exact .moves rfl rfl rfl fun _ => .refl _
  · split at hstep
    · cases hstep
      exact .moves rfl rfl rfl fun _ => .refl _
    · cases hstep
      exact .moves rfl rfl rfl fun _ => .refl _
  · cases hstep
    exact .reaps _ _
  · next key a again =>
      cases hstep
      split
      · exact .moves rfl rfl rfl (s.liveClients_moves a)
      · next hnobody => exact .schedules (Nat.eq_zero_of_not_pos hnobody)
  · next a action viewer =>
      split at hstep
      · obtain ⟨attach, hattach, hpair⟩ := Option.map_eq_some_iff.mp hstep
        cases hpair
        exact .moves rfl rfl rfl (HubShared.setAttach_moves (attachStep_moves hattach))
      · cases hstep
  · obtain ⟨next, hgrace, hpair⟩ := Option.map_eq_some_iff.mp hstep
    cases hpair
    obtain ⟨task, htask, hstep⟩ := Option.bind_eq_some_iff.mp hgrace
    exact .grace htask hstep
  · cases hstep

/-- A step leaves an attach alone or moves it along, registers a client on it, or
makes it. -/
theorem HubEffect.attaches {call : HubCall} {s s' : HubShared} {viewer : Viewer}
    (h : HubEffect s call viewer s') (b : Nat) :
    AttachMoves (s.attaches b) (s'.attaches b) ∨
      (call = .register ∧ (∃ key, viewer = .registering key b) ∧
        Registers (s.attaches b) (s'.attaches b)) ∨
      (b = s.started ∧ ∃ key cap, s'.attaches b = .new key cap) := by
  cases h with
  | moves _ _ _ attaches => exact .inl (attaches b)
  | registers h =>
    rcases HubShared.register_attaches h b with ⟨rfl, hregisters⟩ | hmoves
    · exact .inr (.inl ⟨rfl, ⟨_, rfl⟩, hregisters⟩)
    · exact .inl hmoves
  | starts key cap =>
    rcases s.startAttach_attaches key cap b with ⟨hb, hnew⟩ | hmoves
    · exact .inr (.inr ⟨hb, key, cap, hnew⟩)
    · exact .inl hmoves
  | reaps key again =>
    left
    rw [HubShared.reapIfClosed_attaches]
    exact .refl _
  | schedules => exact .inl (s.liveClients_moves _ b)
  | grace _ hstep => exact .inl (graceStep_moves hstep b)

end HerdrWebui.Hub
