import HerdrWebui.Concurrency.System
import HerdrWebui.Terminal.Runtime

/-!
The pending counter of a subscriber, one step for each access to it and for each
send. The reader thread charges a chunk before it queues it and takes the charge
back when the send fails; a connection does the same with a replay, on its first
attach and on every later one; the writer thread subtracts what it was charged
with once the kernel has accepted a frame. A replay is charged as one byte at
least.
-/

namespace HerdrWebui.Terminal

open Concurrency

/-- Where the reader is with one subscriber: about to charge the chunk, to queue
it, to read the counter, to take the charge back or to queue the shed notice. -/
inductive VisitStep where
  | charging
  | queueing
  | reading
  | undoing
  | shedding
  deriving DecidableEq

/-- The reader thread. While it visits it holds the subscribers lock; `k` is the
subscriber at hand. -/
inductive FlowReader where
  | idle
  | visiting (chunk : Bytes) (k : Nat) (todo kept : List Nat) (at_ : VisitStep)
  | ending
  | ended
  deriving DecidableEq

/-- A connection queueing a replay, for its first attach or a later one. -/
inductive QueueStep where
  | unattached
  | charged (first : Bool) (frame : TerminalFrame) (n : Nat)
  | undoing (first : Bool) (n : Nat)
  | subscribing
  | attached
  deriving DecidableEq

structure FlowState where
  exited : Bool
  subscribers : List Nat
  channels : Nat → Channel
  reader : FlowReader
  connections : Nat → QueueStep
  /-- What a writer thread has written and not yet subtracted. -/
  owed : Nat → Option Nat

def FlowState.start : FlowState where
  exited := false
  subscribers := []
  channels _ := .new
  reader := .idle
  connections _ := .unattached
  owed _ := none

inductive FlowAction where
  | append (chunk : Bytes)
  | chargeChunk
  | queueChunk
  | readCounter
  | undoChunk
  | queueOverflow
  | readerEnds
  | notifyExited
  | chargeReplay (k : Nat) (history : Bytes) (cols rows : Nat)
  | queueReplay (k : Nat)
  | undoReplay (k : Nat)
  | subscribe (k : Nat)
  | writerTakes (k : Nat)
  | writerWrites (k : Nat) (accepted : Bool)
  | writerSubtracts (k : Nat)

/-- The write of the message at hand returns. `some n` is to be subtracted; a
writer that could not write, or has written a notice, ends with the message at
hand. -/
def Channel.finishWrite (channel : Channel) (accepted : Bool) :
    Option (Channel × Option Nat) :=
  channel.writing.map fun message =>
    match message, accepted with
    | .output bytes, true => ({ channel with writing := none }, some bytes.length)
    | .replay _ charged, true => ({ channel with writing := none }, some charged)
    | _, _ => ({ channel with connected := false }, none)

namespace FlowState

variable (s : FlowState)

def setFlow (k : Nat) (channel : Channel) : FlowState :=
  { s with channels := Function.update s.channels k channel }

def setQueue (k : Nat) (step : QueueStep) : FlowState :=
  { s with connections := Function.update s.connections k step }

def setOwed (k : Nat) (owed : Option Nat) : FlowState :=
  { s with owed := Function.update s.owed k owed }

/-- `retain` is done with a subscriber: the next one, or the end of the walk. -/
def visitNext (chunk : Bytes) (kept : List Nat) : List Nat → FlowState
  | [] => { s with reader := .idle, subscribers := kept }
  | k :: todo => { s with reader := .visiting chunk k todo kept .charging }

/-- The connection has spawned its writer thread. -/
def writerRuns (k : Nat) : Bool :=
  match s.connections k with
  | .attached | .charged false _ _ | .undoing false _ => true
  | _ => false

end FlowState

/-- Where a connection stands once its replay is queued, or could not be. A first
attach still has to subscribe. -/
def QueueStep.after (first sent : Bool) : QueueStep :=
  match first, sent with
  | true, true => .subscribing
  | true, false => .unattached
  | false, _ => .attached

def flowStep (s : FlowState) : FlowAction → Option FlowState
  | .append chunk =>
    if s.reader = .idle then some (s.visitNext chunk [] s.subscribers) else none
  | .chargeChunk =>
    match s.reader with
    | .visiting chunk k todo kept .charging =>
      some { s.setFlow k ((s.channels k).charge chunk.length) with
        reader := .visiting chunk k todo kept .queueing }
    | _ => none
  | .queueChunk =>
    match s.reader with
    | .visiting chunk k todo kept .queueing =>
      let sent := (s.channels k).send (.output chunk)
      some { s.setFlow k sent.1 with
        reader := .visiting chunk k todo kept (if sent.2 then .reading else .undoing) }
    | _ => none
  | .readCounter =>
    match s.reader with
    | .visiting chunk k todo kept .reading =>
      if (s.channels k).pendingBytes > maxSubscriberPendingBytes then
        some { s with reader := .visiting chunk k todo kept .shedding }
      else some (s.visitNext chunk (kept ++ [k]) todo)
    | _ => none
  | .undoChunk =>
    match s.reader with
    | .visiting chunk k todo kept .undoing =>
      some ((s.setFlow k ((s.channels k).discharge chunk.length)).visitNext chunk
        kept todo)
    | _ => none
  | .queueOverflow =>
    match s.reader with
    | .visiting chunk k todo kept .shedding =>
      some ((s.setFlow k ((s.channels k).send .overflow).1).visitNext chunk kept todo)
    | _ => none
  | .readerEnds =>
    if s.reader = .idle then some { s with exited := true, reader := .ending } else none
  | .notifyExited =>
    if s.reader = .ending then
      let visited := retainSubscribers (·.send .exited) s.channels s.subscribers
      some { s with channels := visited.1, subscribers := visited.2, reader := .ended }
    else none
  | .chargeReplay k history cols rows =>
    let n := max history.length 1
    match s.connections k with
    | .unattached =>
      some ((s.setFlow k ((s.channels k).charge n)).setQueue k
        (.charged true ⟨1, cols, rows, true, history⟩ n))
    | .attached =>
      some ((s.setFlow k ((s.channels k).charge n)).setQueue k
        (.charged false ⟨0, cols, rows, true, history⟩ n))
    | _ => none
  | .queueReplay k =>
    match s.connections k with
    | .charged first frame n =>
      let sent := (s.channels k).send (.replay frame n)
      some ((s.setFlow k sent.1).setQueue k
        (if sent.2 then .after first true else .undoing first n))
    | _ => none
  | .undoReplay k =>
    match s.connections k with
    | .undoing first n =>
      some ((s.setFlow k ((s.channels k).discharge n)).setQueue k (.after first false))
    | _ => none
  | .subscribe k =>
    match s.connections k, s.reader with
    | .subscribing, .visiting _ _ _ _ _ =>
      -- The reader holds the lock.
      none
    | .subscribing, _ =>
      if s.exited then
        some ((s.setFlow k ((s.channels k).send .exited).1).setQueue k .attached)
      else
        some { s.setQueue k .attached with subscribers := s.subscribers ++ [k] }
    | _, _ => none
  | .writerTakes k =>
    if s.writerRuns k ∧ s.owed k = none then (s.channels k).take.map (s.setFlow k)
    else none
  | .writerWrites k accepted =>
    if s.writerRuns k ∧ s.owed k = none then
      ((s.channels k).finishWrite accepted).map fun result =>
        (s.setFlow k result.1).setOwed k result.2
    else none
  | .writerSubtracts k =>
    (s.owed k).map fun n =>
      (s.setFlow k ((s.channels k).discharge n)).setOwed k none

def flow : System FlowState FlowAction where
  init s := s = .start
  step := flowStep

/-- The payload of a message, a replay being one byte at least. -/
def TerminalSubscriberMessage.weight : TerminalSubscriberMessage → Nat
  | .output bytes => bytes.length
  | .replay frame _ => max frame.bytes.length 1
  | .exited | .overflow => 0

/-- The weight of the messages queued or at the writer. -/
def Channel.backlog (channel : Channel) : Nat :=
  ((channel.sent.drop channel.taken).map (·.weight)).sum +
    (channel.writing.map (·.weight)).getD 0

/-- A chunk the reader has charged and not yet queued or taken back. -/
def FlowReader.share (reader : FlowReader) (k : Nat) : Nat :=
  match reader with
  | .visiting chunk j _ _ .queueing | .visiting chunk j _ _ .undoing =>
    if j = k then chunk.length else 0
  | _ => 0

/-- A replay the connection has charged and not yet queued or taken back. -/
def QueueStep.share : QueueStep → Nat
  | .charged _ _ n | .undoing _ n => n
  | _ => 0

theorem QueueStep.after_share (first sent : Bool) : (QueueStep.after first sent).share = 0 := by
  cases first <;> cases sent <;> rfl

theorem QueueStep.after_uncharged (first sent first' : Bool) (frame : TerminalFrame) (n : Nat) :
    QueueStep.after first sent ≠ .charged first' frame n := by
  cases first <;> cases sent <;> exact nofun

/-- What was queued to a client and is not yet subtracted as written. -/
def FlowState.unwritten (s : FlowState) (k : Nat) : Nat :=
  (s.channels k).backlog + (s.owed k).getD 0

def FlowState.inTransit (s : FlowState) (k : Nat) : Nat :=
  s.reader.share k + (s.connections k).share

/-- The subtraction a step makes: whose counter, and how much. -/
def FlowState.subtracts (s : FlowState) : FlowAction → Option (Nat × Nat)
  | .undoChunk =>
    match s.reader with
    | .visiting chunk k _ _ .undoing => some (k, chunk.length)
    | _ => none
  | .undoReplay k =>
    match s.connections k with
    | .undoing _ n => some (k, n)
    | _ => none
  | .writerSubtracts k => (s.owed k).map (k, ·)
  | _ => none

/-- A message is queued with the charge that will be subtracted for it. -/
def TerminalSubscriberMessage.Exact : TerminalSubscriberMessage → Prop
  | .replay frame charged => charged = max frame.bytes.length 1
  | _ => True

/-- The counter of a channel is what was queued and not yet subtracted, with
`share` on top. -/
structure Balances (channel : Channel) (owed : Option Nat) (share : Nat) : Prop where
  counter : channel.pendingBytes = (channel.backlog + owed.getD 0 + share) % 2 ^ 64
  taken : channel.taken ≤ channel.sent.length
  charges : ∀ message ∈ channel.sent, message.Exact
  writing : ∀ message, channel.writing = some message → message ∈ channel.sent

namespace Balances

variable {channel channel' : Channel} {owed : Option Nat} {share : Nat}

theorem new : Balances .new none 0 where
  counter := rfl
  taken := le_rfl
  charges message h := by cases h
  writing message h := by cases h

theorem charge (h : Balances channel owed share) (n : Nat) :
    Balances (channel.charge n) owed (share + n) where
  counter := by
    have hcounter := h.counter
    change (channel.pendingBytes + n) % 2 ^ 64 =
      (channel.backlog + owed.getD 0 + (share + n)) % 2 ^ 64
    omega
  taken := h.taken
  charges := h.charges
  writing := h.writing

theorem discharge {n : Nat} (h : Balances channel owed (share + n)) :
    Balances (channel.discharge n) owed share where
  counter := by
    have hcounter := h.counter
    change (channel.pendingBytes + (2 ^ 64 - n % 2 ^ 64)) % 2 ^ 64 =
      (channel.backlog + owed.getD 0 + share) % 2 ^ 64
    omega
  taken := h.taken
  charges := h.charges
  writing := h.writing

theorem settle {n : Nat} (h : Balances channel (some n) share) :
    Balances (channel.discharge n) none share := by
  refine discharge ⟨?_, h.taken, h.charges, h.writing⟩
  have hcounter := h.counter
  simp only [Option.getD_some, Option.getD_none] at hcounter ⊢
  omega

theorem backlog_send (h : Balances channel owed share)
    (hconnected : channel.connected = true) (message : TerminalSubscriberMessage) :
    (channel.send message).1.backlog = channel.backlog + message.weight := by
  simp only [Channel.send, hconnected, if_true, Channel.backlog]
  rw [List.drop_append_of_le_length h.taken, List.map_append, List.sum_append,
    List.map_singleton, List.sum_singleton]
  omega

theorem send {message : TerminalSubscriberMessage}
    (h : Balances channel owed (share + message.weight)) (hexact : message.Exact)
    (hsent : (channel.send message).2 = true) :
    Balances (channel.send message).1 owed share := by
  have hconnected : channel.connected = true := by
    by_contra hdown
    simp [Channel.send, hdown] at hsent
  constructor
  case counter =>
    have hcounter := h.counter
    have hpending : (channel.send message).1.pendingBytes = channel.pendingBytes := by
      simp [Channel.send, hconnected]
    rw [h.backlog_send hconnected, hpending, hcounter]
    congr 1
    omega
  case taken =>
    have htaken := h.taken
    simp only [Channel.send, hconnected, if_true, List.length_append]
    omega
  case charges =>
    intro other hother
    simp only [Channel.send, hconnected, if_true, List.mem_append,
      List.mem_singleton] at hother
    rcases hother with hold | rfl
    · exact h.charges other hold
    · exact hexact
  case writing =>
    intro other hother
    simp only [Channel.send, hconnected, if_true] at hother ⊢
    exact List.mem_append_left _ (h.writing other hother)

theorem refused {message : TerminalSubscriberMessage}
    (h : Balances channel owed share) (hsent : (channel.send message).2 = false) :
    Balances (channel.send message).1 owed share := by
  have hsame : (channel.send message).1 = channel := by
    unfold Channel.send at hsent ⊢
    split at hsent
    · cases hsent
    · next hdown => rw [if_neg hdown]
  rwa [hsame]

theorem notice (h : Balances channel owed share) {message : TerminalSubscriberMessage}
    (hweight : message.weight = 0) (hexact : message.Exact) :
    Balances (channel.send message).1 owed share := by
  cases hsent : (channel.send message).2 with
  | true =>
    refine send ?_ hexact hsent
    rwa [hweight]
  | false => exact h.refused hsent

theorem take (h : Balances channel owed share) (htake : channel.take = some channel') :
    Balances channel' owed share := by
  unfold Channel.take at htake
  split at htake
  · next message hwriting hnext =>
      split at htake
      · obtain rfl := Option.some.inj htake
        have hlt : channel.taken < channel.sent.length :=
          (List.getElem?_eq_some_iff.mp hnext).1
        have hhead : channel.sent[channel.taken] = message :=
          (List.getElem?_eq_some_iff.mp hnext).2
        constructor
        case counter =>
          have hcounter := h.counter
          simp only [Channel.backlog, hwriting, Option.map_none, Option.getD_none,
            List.drop_eq_getElem_cons hlt, hhead, List.map_cons, List.sum_cons]
            at hcounter
          simp only [Channel.backlog, Option.map_some, Option.getD_some]
          rw [hcounter]
          congr 1
          omega
        case taken => exact hlt
        case charges => exact h.charges
        case writing =>
          intro other hother
          obtain rfl := Option.some.inj hother
          exact List.mem_of_getElem? hnext
      · cases htake
  · cases htake

/-- What the writer has written it owes; what it could not write stays unwritten. -/
theorem finishWrite (h : Balances channel none share) {accepted : Bool}
    {result : Channel × Option Nat} (hwrite : channel.finishWrite accepted = some result) :
    Balances result.1 result.2 share := by
  obtain ⟨message, hwriting, rfl⟩ := Option.map_eq_some_iff.mp hwrite
  have hcounter := h.counter
  have hexact := h.charges message (h.writing message hwriting)
  simp only [Channel.backlog, hwriting, Option.map_some, Option.getD_some,
    Option.getD_none] at hcounter
  split
  · refine ⟨?_, h.taken, h.charges, nofun⟩
    simpa [Channel.backlog, TerminalSubscriberMessage.weight] using hcounter
  · next frame charged =>
      refine ⟨?_, h.taken, h.charges, nofun⟩
      obtain rfl : charged = max frame.bytes.length 1 := hexact
      simpa [Channel.backlog, TerminalSubscriberMessage.weight] using hcounter
  · exact ⟨h.counter, h.taken, h.charges, h.writing⟩

end Balances

structure FlowInvariant (s : FlowState) : Prop where
  balances : ∀ k, Balances (s.channels k) (s.owed k) (s.inTransit k)
  charged : ∀ k first frame n, s.connections k = .charged first frame n →
    n = max frame.bytes.length 1

namespace FlowInvariant

variable {s : FlowState}

theorem start : FlowInvariant .start where
  balances _ := .new
  charged _ _ _ _ h := by cases h

theorem readerMoves (h : FlowInvariant s) (k : Nat) {s' : FlowState} {channel : Channel}
    (hchannels : s'.channels = Function.update s.channels k channel)
    (howed : s'.owed = s.owed) (hconnections : s'.connections = s.connections)
    (hshares : ∀ j, j ≠ k → s'.reader.share j = s.reader.share j)
    (hself : Balances channel (s.owed k)
      (s'.reader.share k + (s.connections k).share)) : FlowInvariant s' where
  balances j := by
    rw [hchannels, howed, FlowState.inTransit, hconnections]
    rcases eq_or_ne j k with rfl | hne
    · rw [Function.update_self]
      exact hself
    · rw [Function.update_of_ne hne, hshares j hne]
      exact h.balances j
  charged := by
    rw [hconnections]
    exact h.charged

theorem connectionMoves (h : FlowInvariant s) (k : Nat) {channel : Channel}
    {step : QueueStep}
    (hself : Balances channel (s.owed k) (s.reader.share k + step.share))
    (hcharged : ∀ first frame n, step = .charged first frame n →
      n = max frame.bytes.length 1) :
    FlowInvariant ((s.setFlow k channel).setQueue k step) where
  balances j := by
    simp only [FlowState.setFlow, FlowState.setQueue, FlowState.inTransit]
    rcases eq_or_ne j k with rfl | hne
    · rw [Function.update_self, Function.update_self]
      exact hself
    · rw [Function.update_of_ne hne, Function.update_of_ne hne]
      exact h.balances j
  charged j := by
    simp only [FlowState.setFlow, FlowState.setQueue]
    rcases eq_or_ne j k with rfl | hne
    · rw [Function.update_self]
      exact hcharged
    · rw [Function.update_of_ne hne]
      exact h.charged j

theorem writerMoves (h : FlowInvariant s) (k : Nat) {channel : Channel}
    {owed : Option Nat} (hself : Balances channel owed (s.inTransit k)) :
    FlowInvariant ((s.setFlow k channel).setOwed k owed) where
  balances j := by
    simp only [FlowState.setFlow, FlowState.setOwed, FlowState.inTransit]
    rcases eq_or_ne j k with rfl | hne
    · rw [Function.update_self, Function.update_self]
      exact hself
    · rw [Function.update_of_ne hne, Function.update_of_ne hne]
      exact h.balances j
  charged := h.charged

theorem chargeReplay (h : FlowInvariant s) {k : Nat} (hk : (s.connections k).share = 0)
    (first : Bool) (frame : TerminalFrame) :
    FlowInvariant ((s.setFlow k ((s.channels k).charge (max frame.bytes.length 1))).setQueue k
      (.charged first frame (max frame.bytes.length 1))) := by
  have hself := (h.balances k).charge (max frame.bytes.length 1)
  refine h.connectionMoves k ?_ ?_
  · rwa [FlowState.inTransit, hk, Nat.add_zero] at hself
  · rintro first' frame' n hstep
    obtain ⟨rfl, rfl, rfl⟩ := QueueStep.charged.inj hstep
    rfl

theorem queueReplay (h : FlowInvariant s) {k : Nat} {first : Bool} {frame : TerminalFrame}
    {n : Nat} (hk : s.connections k = .charged first frame n) :
    let sent := (s.channels k).send (.replay frame n)
    FlowInvariant ((s.setFlow k sent.1).setQueue k
      (if sent.2 then .after first true else .undoing first n)) := by
  have hself := h.balances k
  have hexact := h.charged k first frame n hk
  rw [FlowState.inTransit, hk] at hself
  refine h.connectionMoves k ?_ ?_
  · split
    · next hsent =>
        rw [QueueStep.after_share]
        refine Balances.send ?_ hexact hsent
        rwa [TerminalSubscriberMessage.weight, ← hexact]
    · next hsent => exact hself.refused (Bool.eq_false_iff.mpr hsent)
  · intro first' frame' n' hcharged
    split at hcharged
    · exact absurd hcharged (QueueStep.after_uncharged _ _ _ _ _)
    · cases hcharged

theorem visitNext_share (s : FlowState) (chunk : Bytes) (kept todo : List Nat) (j : Nat) :
    (s.visitNext chunk kept todo).reader.share j = 0 := by
  cases todo <;> rfl

theorem visitNext_frame (s : FlowState) (chunk : Bytes) (kept todo : List Nat) :
    (s.visitNext chunk kept todo).channels = s.channels ∧
      (s.visitNext chunk kept todo).owed = s.owed ∧
      (s.visitNext chunk kept todo).connections = s.connections := by
  cases todo <;> exact ⟨rfl, rfl, rfl⟩

theorem visitNext (h : FlowInvariant s) (k : Nat) {channel : Channel}
    (hother : ∀ j, j ≠ k → s.reader.share j = 0)
    (hself : Balances channel (s.owed k) (s.connections k).share)
    (chunk : Bytes) (kept todo : List Nat) :
    FlowInvariant ((s.setFlow k channel).visitNext chunk kept todo) := by
  obtain ⟨hchannels, howed, hconnections⟩ :=
    visitNext_frame (s.setFlow k channel) chunk kept todo
  refine h.readerMoves k hchannels howed hconnections ?_ ?_
  · intro j hne
    rw [visitNext_share, hother j hne]
  · rwa [visitNext_share, Nat.zero_add]

section Reader

variable {chunk : Bytes} {k : Nat} {todo kept : List Nat}

theorem append (h : FlowInvariant s) (hidle : s.reader = .idle) (chunk : Bytes) :
    FlowInvariant (s.visitNext chunk [] s.subscribers) := by
  have hself := h.balances 0
  rw [FlowState.inTransit, hidle] at hself
  have hshare : Balances (s.channels 0) (s.owed 0) (s.connections 0).share := by
    simpa [FlowReader.share] using hself
  have hvisit := h.visitNext 0 (fun j _ => by rw [hidle]; rfl) hshare chunk [] s.subscribers
  rwa [FlowState.setFlow, Function.update_eq_self] at hvisit

theorem chargeChunk (h : FlowInvariant s)
    (hreader : s.reader = .visiting chunk k todo kept .charging) :
    FlowInvariant { s.setFlow k ((s.channels k).charge chunk.length) with
      reader := .visiting chunk k todo kept .queueing } := by
  have hself := (h.balances k).charge chunk.length
  refine h.readerMoves k rfl rfl rfl ?_ ?_
  · intro j hne
    simp [FlowReader.share, hreader, Ne.symm hne]
  · simpa [FlowState.inTransit, FlowReader.share, hreader, Nat.add_comm] using hself

theorem queueChunk (h : FlowInvariant s)
    (hreader : s.reader = .visiting chunk k todo kept .queueing) :
    let sent := (s.channels k).send (.output chunk)
    FlowInvariant { s.setFlow k sent.1 with
      reader := .visiting chunk k todo kept (if sent.2 then .reading else .undoing) } := by
  have hself := h.balances k
  refine h.readerMoves k rfl rfl rfl ?_ ?_
  · intro j hne
    dsimp only
    split <;> simp [FlowReader.share, hreader, Ne.symm hne]
  · dsimp only
    split
    · next hsent =>
        refine Balances.send ?_ trivial hsent
        simpa [FlowState.inTransit, FlowReader.share, hreader, Nat.add_comm,
          TerminalSubscriberMessage.weight] using hself
    · next hsent =>
        refine Balances.refused ?_ (Bool.eq_false_iff.mpr hsent)
        simpa [FlowState.inTransit, FlowReader.share, hreader] using hself

theorem overLimit (h : FlowInvariant s)
    (hreader : s.reader = .visiting chunk k todo kept .reading) :
    FlowInvariant { s with reader := .visiting chunk k todo kept .shedding } := by
  have hself := h.balances k
  rw [FlowState.inTransit, hreader] at hself
  have hsame : s.channels = Function.update s.channels k (s.channels k) :=
    (Function.update_eq_self k s.channels).symm
  refine h.readerMoves k hsame rfl rfl ?_ ?_
  · intro j _
    simp [FlowReader.share, hreader]
  · simpa [FlowReader.share] using hself

theorem withinLimit (h : FlowInvariant s)
    (hreader : s.reader = .visiting chunk k todo kept .reading) :
    FlowInvariant (s.visitNext chunk (kept ++ [k]) todo) := by
  have hself := h.balances k
  rw [FlowState.inTransit, hreader] at hself
  have hshare : Balances (s.channels k) (s.owed k) (s.connections k).share := by
    simpa [FlowReader.share] using hself
  have hvisit := h.visitNext k (fun j _ => by rw [hreader]; rfl) hshare chunk (kept ++ [k])
    todo
  rwa [FlowState.setFlow, Function.update_eq_self] at hvisit

theorem undoChunk (h : FlowInvariant s)
    (hreader : s.reader = .visiting chunk k todo kept .undoing) :
    FlowInvariant ((s.setFlow k ((s.channels k).discharge chunk.length)).visitNext chunk
      kept todo) := by
  have hself := h.balances k
  refine h.visitNext k ?_ (Balances.discharge ?_) chunk kept todo
  · intro j hne
    simp [FlowReader.share, hreader, Ne.symm hne]
  · simpa [FlowState.inTransit, FlowReader.share, hreader, Nat.add_comm] using hself

theorem queueOverflow (h : FlowInvariant s)
    (hreader : s.reader = .visiting chunk k todo kept .shedding) :
    FlowInvariant ((s.setFlow k ((s.channels k).send .overflow).1).visitNext chunk
      kept todo) := by
  have hself := h.balances k
  have hexact : TerminalSubscriberMessage.Exact .overflow := trivial
  refine h.visitNext k ?_ (Balances.notice ?_ rfl hexact) chunk kept todo
  · intro j _
    simp [FlowReader.share, hreader]
  · simpa [FlowState.inTransit, FlowReader.share, hreader] using hself

theorem readerEnds (h : FlowInvariant s) (hidle : s.reader = .idle) :
    FlowInvariant { s with exited := true, reader := .ending } := by
  refine ⟨fun k => ?_, h.charged⟩
  have hself := h.balances k
  rwa [FlowState.inTransit, hidle] at hself

theorem notifyExited (h : FlowInvariant s) (hending : s.reader = .ending) :
    let visited := retainSubscribers (·.send .exited) s.channels s.subscribers
    FlowInvariant { s with channels := visited.1, subscribers := visited.2, reader := .ended } := by
  refine ⟨?_, h.charged⟩
  have hexited : TerminalSubscriberMessage.Exact .exited := trivial
  have hvisited := retainSubscribers_forall (·.send .exited)
    (P := fun j channel => Balances channel (s.owed j) (s.inTransit j))
    (fun j channel hbalances => hbalances.notice rfl hexited) h.balances s.subscribers
  intro k
  have hself := hvisited k
  rwa [FlowState.inTransit, hending] at hself

end Reader

theorem undoReplay (h : FlowInvariant s) {k : Nat} {first : Bool} {n : Nat}
    (hk : s.connections k = .undoing first n) :
    FlowInvariant ((s.setFlow k ((s.channels k).discharge n)).setQueue k
      (.after first false)) := by
  have hself := h.balances k
  rw [FlowState.inTransit, hk] at hself
  refine h.connectionMoves k ?_ fun _ _ _ hcharged =>
    absurd hcharged (QueueStep.after_uncharged _ _ _ _ _)
  rw [QueueStep.after_share]
  exact Balances.discharge hself

theorem subscribeExited (h : FlowInvariant s) {k : Nat} (hk : s.connections k = .subscribing) :
    FlowInvariant ((s.setFlow k ((s.channels k).send .exited).1).setQueue k .attached) := by
  have hself := h.balances k
  rw [FlowState.inTransit, hk] at hself
  have hexited : TerminalSubscriberMessage.Exact .exited := trivial
  exact h.connectionMoves k (hself.notice rfl hexited) fun _ _ _ hcharged => by cases hcharged

theorem subscribe (h : FlowInvariant s) {k : Nat} (hk : s.connections k = .subscribing) :
    FlowInvariant { s.setQueue k .attached with subscribers := s.subscribers ++ [k] } := by
  have hself := h.balances k
  rw [FlowState.inTransit, hk] at hself
  have hattached : Balances (s.channels k) (s.owed k)
      (s.reader.share k + QueueStep.attached.share) := hself
  have hmoved := h.connectionMoves k hattached fun _ _ _ hcharged => by cases hcharged
  rw [FlowState.setFlow, Function.update_eq_self] at hmoved
  exact ⟨hmoved.balances, hmoved.charged⟩

theorem step (h : FlowInvariant s) {a : FlowAction} {s' : FlowState}
    (hstep : flowStep s a = some s') : FlowInvariant s' := by
  cases a with
  | append chunk =>
    obtain ⟨hidle, rfl⟩ := Option.ite_some_none_eq_some.mp hstep
    exact h.append hidle chunk
  | chargeChunk =>
    simp only [flowStep] at hstep
    split at hstep
    · next hreader =>
        obtain rfl := Option.some.inj hstep
        exact h.chargeChunk hreader
    · cases hstep
  | queueChunk =>
    simp only [flowStep] at hstep
    split at hstep
    · next hreader =>
        obtain rfl := Option.some.inj hstep
        exact h.queueChunk hreader
    · cases hstep
  | readCounter =>
    simp only [flowStep] at hstep
    split at hstep
    · next hreader =>
        split at hstep
        · obtain rfl := Option.some.inj hstep
          exact h.overLimit hreader
        · obtain rfl := Option.some.inj hstep
          exact h.withinLimit hreader
    · cases hstep
  | undoChunk =>
    simp only [flowStep] at hstep
    split at hstep
    · next hreader =>
        obtain rfl := Option.some.inj hstep
        exact h.undoChunk hreader
    · cases hstep
  | queueOverflow =>
    simp only [flowStep] at hstep
    split at hstep
    · next hreader =>
        obtain rfl := Option.some.inj hstep
        exact h.queueOverflow hreader
    · cases hstep
  | readerEnds =>
    obtain ⟨hidle, rfl⟩ := Option.ite_some_none_eq_some.mp hstep
    exact h.readerEnds hidle
  | notifyExited =>
    obtain ⟨hending, rfl⟩ := Option.ite_some_none_eq_some.mp hstep
    exact h.notifyExited hending
  | chargeReplay k history cols rows =>
    simp only [flowStep] at hstep
    split at hstep
    · next hk =>
        obtain rfl := Option.some.inj hstep
        have hshare : (s.connections k).share = 0 := by
          rw [hk]
          rfl
        exact h.chargeReplay hshare true ⟨1, cols, rows, true, history⟩
    · next hk =>
        obtain rfl := Option.some.inj hstep
        have hshare : (s.connections k).share = 0 := by
          rw [hk]
          rfl
        exact h.chargeReplay hshare false ⟨0, cols, rows, true, history⟩
    · cases hstep
  | queueReplay k =>
    simp only [flowStep] at hstep
    split at hstep
    · next first frame n hk =>
        obtain rfl := Option.some.inj hstep
        exact h.queueReplay hk
    · cases hstep
  | undoReplay k =>
    simp only [flowStep] at hstep
    split at hstep
    · next hk =>
        obtain rfl := Option.some.inj hstep
        exact h.undoReplay hk
    · cases hstep
  | subscribe k =>
    simp only [flowStep] at hstep
    split at hstep
    · cases hstep
    · next hk _ =>
        split at hstep
        · obtain rfl := Option.some.inj hstep
          exact h.subscribeExited hk
        · obtain rfl := Option.some.inj hstep
          exact h.subscribe hk
    · cases hstep
  | writerTakes k =>
    simp only [flowStep] at hstep
    split at hstep
    · obtain ⟨channel, htake, rfl⟩ := Option.map_eq_some_iff.mp hstep
      have hmoved := h.writerMoves k ((h.balances k).take htake)
      rwa [FlowState.setOwed, show (s.setFlow k channel).owed = s.owed from rfl,
        Function.update_eq_self] at hmoved
    · cases hstep
  | writerWrites k accepted =>
    simp only [flowStep] at hstep
    split at hstep
    · next hready =>
        obtain ⟨result, hwrite, rfl⟩ := Option.map_eq_some_iff.mp hstep
        have hself := h.balances k
        rw [hready.2] at hself
        exact h.writerMoves k (hself.finishWrite hwrite)
    · cases hstep
  | writerSubtracts k =>
    obtain ⟨n, howed, rfl⟩ := Option.map_eq_some_iff.mp hstep
    have hself := h.balances k
    rw [howed] at hself
    exact h.writerMoves k hself.settle

end FlowInvariant

/-- In every reachable state the counter is the weight of what was queued and not
yet subtracted as written, with what was charged ahead of its send on top, and a
step that subtracts takes away a part of that. -/
theorem pendingBytes_balances {s : FlowState} (h : flow.Reachable s) :
    (∀ k, (s.channels k).pendingBytes = (s.unwritten k + s.inTransit k) % 2 ^ 64) ∧
    ∀ a k n, s.subtracts a = some (k, n) → n ≤ s.unwritten k + s.inTransit k ∧
      (s.unwritten k + s.inTransit k < 2 ^ 64 → n ≤ (s.channels k).pendingBytes) := by
  have hinv : FlowInvariant s := by
    refine h.invariant ?_ ?_
    · rintro _ rfl
      exact .start
    · exact fun _ _ _ _ hinv _ hstep => hinv.step hstep
  have hcounter (k : Nat) :
      (s.channels k).pendingBytes = (s.unwritten k + s.inTransit k) % 2 ^ 64 :=
    (hinv.balances k).counter
  have hpart (a : FlowAction) (k n : Nat) (hsub : s.subtracts a = some (k, n)) :
      n ≤ s.unwritten k + s.inTransit k := by
    unfold FlowState.subtracts at hsub
    split at hsub
    · split at hsub
      · next hreader =>
          obtain ⟨rfl, rfl⟩ := Prod.mk.inj (Option.some.inj hsub)
          simp only [FlowState.inTransit, hreader, FlowReader.share, if_true]
          omega
      · cases hsub
    · split at hsub
      · next hk =>
          obtain ⟨rfl, rfl⟩ := Prod.mk.inj (Option.some.inj hsub)
          simp only [FlowState.inTransit, hk, QueueStep.share]
          omega
      · cases hsub
    · obtain ⟨m, howed, heq⟩ := Option.map_eq_some_iff.mp hsub
      obtain ⟨rfl, rfl⟩ := Prod.mk.inj heq
      simp only [FlowState.unwritten, howed, Option.getD_some]
      omega
    · cases hsub
  refine ⟨hcounter, fun a k n hsub => ⟨hpart a k n hsub, fun hlt => ?_⟩⟩
  rw [hcounter k, Nat.mod_eq_of_lt hlt]
  exact hpart a k n hsub

/-- The payload bytes queued or at the writer. -/
def Channel.unwrittenPayload (channel : Channel) : Nat :=
  ((channel.sent.drop channel.taken).map (·.payload.length)).sum +
    (channel.writing.map (·.payload.length)).getD 0

/-- The first attach to a terminal that has printed nothing. -/
def attachEmpty : List FlowAction :=
  [.chargeReplay 0 [] 80 24, .queueReplay 0, .subscribe 0]

/-- The counter is at one while no payload is queued and nothing is on its way. -/
theorem attachEmpty_charged :
    ∃ s, flow.Reachable s ∧ s.reader = .idle ∧ s.connections 0 = .attached ∧
      s.owed 0 = none ∧ (s.channels 0).unwrittenPayload = 0 ∧
      (s.channels 0).pendingBytes = 1 := by
  have hrun : (flow.run .start attachEmpty).isSome := by decide
  refine ⟨_, System.reachable_get rfl hrun, ?_⟩
  decide +revert

/-- A chunk is queued while the writer is at the replay, and a re-attach is under
way. -/
def busyClient : List FlowAction :=
  [.chargeReplay 0 [1, 2] 80 24, .queueReplay 0, .subscribe 0, .writerTakes 0,
    .append [3, 4, 5], .chargeChunk, .writerWrites 0 true, .queueChunk, .readCounter,
    .chargeReplay 0 [1, 2, 3, 4, 5] 80 24]

theorem busyClient_balances :
    ∃ s, flow.run .start busyClient = some s ∧ s.unwritten 0 = 5 ∧
      s.inTransit 0 = 5 ∧ (s.channels 0).pendingBytes = 10 := by
  have hrun : (flow.run .start busyClient).isSome := by decide
  have hunwritten : ((flow.run .start busyClient).get hrun).unwritten 0 = 5 := by
    decide +revert
  have htransit : ((flow.run .start busyClient).get hrun).inTransit 0 = 5 := by
    decide +revert
  refine ⟨_, (Option.some_get hrun).symm, hunwritten, htransit, ?_⟩
  rw [(pendingBytes_balances (System.reachable_get rfl hrun)).1 0, hunwritten, htransit]
  norm_num

end HerdrWebui.Terminal
