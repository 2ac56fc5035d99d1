import HerdrWebui.Concurrency.System
import HerdrWebui.Terminal.Runtime

/-!
Attaching clients against the reader thread of one terminal, one step for each
lock hold or atomic access. The reader extends the scrollback under one lock and
fans the chunk out under another; a connection handling its first
`AttachTerminal` copies the scrollback under the first lock, queues the copy as
a replay and subscribes under the second.

Any number of connections attach, and their writer threads drain the channels at
their own pace.
-/

namespace HerdrWebui.Terminal

open Concurrency

/-- Where the reader thread is: between two reads, between the two lock holds
of an `append_output`, or past the end of its input. -/
inductive ReaderPhase where
  | reading
  | extended (chunk : Bytes)
  | ending
  | ended
  deriving DecidableEq

/-- Where a connection is in its first `AttachTerminal`. `chunks` is the number
of chunks the scrollback had been given when it was copied. -/
inductive ConnectionPhase where
  | waiting
  | snapshotTaken (history : Bytes) (chunks : Nat)
  | replayQueued (chunks : Nat)
  | subscribing (chunks : Nat)
  | attached
  deriving DecidableEq

structure TerminalState where
  scrollback : Bytes
  exited : Bool
  subscribers : List Nat
  channels : Nat → Channel
  reader : ReaderPhase
  connections : Nat → ConnectionPhase
  /-- Every chunk the scrollback was given. -/
  chunks : List Bytes
  /-- How many of them have been fanned out. -/
  fannedOut : Nat

def TerminalState.start : TerminalState where
  scrollback := []
  exited := false
  subscribers := []
  channels _ := .new
  reader := .reading
  connections _ := .waiting
  chunks := []
  fannedOut := 0

inductive TerminalAction where
  | readChunk (chunk : Bytes)
  | fanOut
  | readerEnds
  | notifyExited
  | takeSnapshot (k : Nat)
  | queueReplay (k cols rows : Nat)
  | checkExited (k : Nat)
  | subscribe (k : Nat)
  | writerTakes (k : Nat)
  | writerWrites (k : Nat) (accepted : Bool)

def TerminalState.setConnection (s : TerminalState) (k : Nat)
    (phase : ConnectionPhase) : TerminalState :=
  { s with connections := Function.update s.connections k phase }

def TerminalState.setChannel (s : TerminalState) (k : Nat) (channel : Channel) :
    TerminalState :=
  { s with channels := Function.update s.channels k channel }

theorem TerminalState.setChannel_self (s : TerminalState) (k : Nat) :
    s.setChannel k (s.channels k) = s := by
  simp [TerminalState.setChannel]

/-- Run `visit` on the subscribers under their lock. -/
def TerminalState.visitSubscribers (s : TerminalState)
    (visit : Channel → Channel × Bool) : TerminalState :=
  let visited := retainSubscribers visit s.channels s.subscribers
  { s with channels := visited.1, subscribers := visited.2 }

def terminalStep (s : TerminalState) : TerminalAction → Option TerminalState
  | .readChunk chunk =>
    -- A read of no bytes is the end of the input.
    if s.reader = .reading ∧ chunk ≠ [] then
      some { s with
        scrollback := extendScrollback s.scrollback chunk
        reader := .extended chunk
        chunks := s.chunks ++ [chunk] }
    else none
  | .fanOut =>
    match s.reader with
    | .extended chunk =>
      some { s.visitSubscribers (·.deliver chunk) with
        reader := .reading
        fannedOut := s.fannedOut + 1 }
    | _ => none
  | .readerEnds =>
    if s.reader = .reading then some { s with exited := true, reader := .ending }
    else none
  | .notifyExited =>
    if s.reader = .ending then
      some { s.visitSubscribers (·.send .exited) with reader := .ended }
    else none
  | .takeSnapshot k =>
    if s.connections k = .waiting then
      some (s.setConnection k (.snapshotTaken s.scrollback s.chunks.length))
    else none
  | .queueReplay k cols rows =>
    match s.connections k with
    | .snapshotTaken history chunks =>
      some ((s.setChannel k ((s.channels k).queueReplay history cols rows)
        ).setConnection k (.replayQueued chunks))
    | _ => none
  | .checkExited k =>
    match s.connections k with
    | .replayQueued chunks =>
      if s.exited then
        some ((s.setChannel k ((s.channels k).send .exited).1
          ).setConnection k .attached)
      else some (s.setConnection k (.subscribing chunks))
    | _ => none
  | .subscribe k =>
    match s.connections k with
    | .subscribing _ =>
      some { s.setConnection k .attached with
        subscribers := s.subscribers ++ [k] }
    | _ => none
  | .writerTakes k =>
    if s.connections k = .attached then
      (s.channels k).take.map (s.setChannel k)
    else none
  | .writerWrites k accepted =>
    if s.connections k = .attached then
      ((s.channels k).written accepted).map (s.setChannel k)
    else none

def terminal : System TerminalState TerminalAction where
  init s := s = .start
  step := terminalStep

/-- All output so far is within the scrollback bound. -/
def TerminalState.Fits (s : TerminalState) : Prop :=
  s.chunks.flatten.length ≤ maxScrollbackBytes

instance (s : TerminalState) : Decidable s.Fits :=
  inferInstanceAs (Decidable (_ ≤ _))

/-- The bytes of the chunks whose `append_output` is over. -/
def TerminalState.appended (s : TerminalState) : Bytes :=
  (s.chunks.take s.fannedOut).flatten

/-- A connection subscribes when exactly the chunks in its replay have been
fanned out: none of them is still on its way, and no later one has gone by. -/
def subscribesInStep (s : TerminalState) : TerminalAction → Bool
  | .subscribe k =>
    match s.connections k with
    | .subscribing chunks => chunks == s.fannedOut
    | _ => true
  | _ => true

/-- The chunk between the two lock holds of an `append_output`. -/
def ReaderPhase.inFlight : ReaderPhase → List Bytes
  | .extended chunk => [chunk]
  | _ => []

structure AttachInvariant (s : TerminalState) : Prop where
  fannedOut_le : s.fannedOut ≤ s.chunks.length
  inFlight : s.chunks.drop s.fannedOut = s.reader.inFlight
  scrollback : s.scrollback = s.chunks.flatten.rtake maxScrollbackBytes
  nodup : s.subscribers.Nodup
  registered : ∀ k ∈ s.subscribers, s.connections k = .attached
  waiting : ∀ k, s.connections k = .waiting → s.channels k = .new
  snapshot : ∀ k history n, s.connections k = .snapshotTaken history n →
    s.channels k = .new ∧ n ≤ s.chunks.length ∧
      (s.Fits → history = (s.chunks.take n).flatten)
  queued : ∀ k n, s.connections k = .replayQueued n ∨
      s.connections k = .subscribing n →
    n ≤ s.chunks.length ∧
      (s.Fits → (s.channels k).payload = (s.chunks.take n).flatten)
  delivered : s.Fits → ∀ k ∈ s.subscribers, (s.channels k).payload = s.appended

namespace AttachInvariant

variable {s : TerminalState}

theorem start : AttachInvariant .start where
  fannedOut_le := le_rfl
  inFlight := rfl
  scrollback := (List.rtake_nil _).symm
  nodup := List.nodup_nil
  registered k h := by cases h
  waiting k _ := rfl
  snapshot k history n h := by cases h
  queued k n h := by rcases h with h | h <;> cases h
  delivered _ k h := by cases h

theorem extendScrollback_eq (scrollback chunk : Bytes) :
    extendScrollback scrollback chunk =
      (scrollback ++ chunk).rtake maxScrollbackBytes := rfl

theorem readChunk (h : AttachInvariant s) (hreading : s.reader = .reading)
    (chunk : Bytes) :
    AttachInvariant { s with
      scrollback := extendScrollback s.scrollback chunk
      reader := .extended chunk
      chunks := s.chunks ++ [chunk] } := by
  have hfits (hlong : (s.chunks ++ [chunk]).flatten.length ≤ maxScrollbackBytes) :
      s.Fits := by
    rw [List.flatten_append, List.length_append] at hlong
    exact le_trans (Nat.le_add_right _ _) hlong
  have htake {n : Nat} (hn : n ≤ s.chunks.length) :
      (s.chunks ++ [chunk]).take n = s.chunks.take n :=
    List.take_append_of_le_length hn
  have hlength : s.chunks.length ≤ (s.chunks ++ [chunk]).length := by simp
  have hdone := h.inFlight
  rw [hreading] at hdone
  change s.chunks.drop s.fannedOut = [] at hdone
  rw [List.drop_eq_nil_iff] at hdone
  constructor
  case fannedOut_le => exact h.fannedOut_le.trans hlength
  case inFlight =>
    have hall : s.fannedOut = s.chunks.length := le_antisymm h.fannedOut_le hdone
    change (s.chunks ++ [chunk]).drop s.fannedOut = [chunk]
    rw [hall, List.drop_left]
  case scrollback =>
    dsimp only
    rw [extendScrollback_eq, h.scrollback, rtake_rtake_append, List.flatten_append,
      List.flatten_singleton]
  case nodup => exact h.nodup
  case registered => exact h.registered
  case waiting => exact h.waiting
  case snapshot =>
    intro k history n hk
    obtain ⟨hnew, hn, hhistory⟩ := h.snapshot k history n hk
    exact ⟨hnew, hn.trans hlength, fun hlong => (htake hn) ▸ hhistory (hfits hlong)⟩
  case queued =>
    intro k n hk
    obtain ⟨hn, hpayload⟩ := h.queued k n hk
    exact ⟨hn.trans hlength, fun hlong => (htake hn) ▸ hpayload (hfits hlong)⟩
  case delivered =>
    intro hlong k hk
    have hold := h.delivered (hfits hlong) k hk
    rwa [TerminalState.appended, ← htake h.fannedOut_le] at hold

theorem visit_other (h : AttachInvariant s) (visit : Channel → Channel × Bool)
    {k : Nat} (hk : s.connections k ≠ .attached) :
    (s.visitSubscribers visit).channels k = s.channels k :=
  retainSubscribers_of_notMem visit s.channels fun hmem => hk (h.registered k hmem)

theorem visit_subscribers_subset (s : TerminalState)
    (visit : Channel → Channel × Bool) :
    (s.visitSubscribers visit).subscribers ⊆ s.subscribers :=
  (retainSubscribers_sublist visit s.channels s.subscribers).subset

theorem visit_delivered (h : AttachInvariant s) {visit : Channel → Channel × Bool}
    {added : Bytes}
    (hvisit : ∀ channel, (visit channel).2 = true →
      (visit channel).1.payload = channel.payload ++ added)
    (hfits : s.Fits) {k : Nat} (hk : k ∈ (s.visitSubscribers visit).subscribers) :
    ((s.visitSubscribers visit).channels k).payload = s.appended ++ added := by
  obtain ⟨hkept, hchannel⟩ := retainSubscribers_of_mem visit s.channels h.nodup hk
  have hold := h.delivered hfits k (visit_subscribers_subset s visit hk)
  change ((retainSubscribers visit s.channels s.subscribers).1 k).payload = _
  rw [hchannel, hvisit _ hkept, hold]

/-- A visit of the subscribers that hands the same bytes to all it keeps, with
the reader's progress moved along. -/
theorem visit (h : AttachInvariant s) {visit : Channel → Channel × Bool}
    (added : Bytes)
    (hvisit : ∀ channel, (visit channel).2 = true →
      (visit channel).1.payload = channel.payload ++ added)
    {reader : ReaderPhase} {fannedOut : Nat} (hle : fannedOut ≤ s.chunks.length)
    (hflight : s.chunks.drop fannedOut = reader.inFlight)
    (happended : (s.chunks.take fannedOut).flatten = s.appended ++ added) :
    AttachInvariant { s.visitSubscribers visit with
      reader := reader, fannedOut := fannedOut } where
  fannedOut_le := hle
  inFlight := hflight
  scrollback := h.scrollback
  nodup := (retainSubscribers_sublist _ s.channels s.subscribers).nodup h.nodup
  registered k hk := h.registered k (visit_subscribers_subset s _ hk)
  waiting k hk := by
    have hother : s.connections k ≠ .attached := by
      rw [show s.connections k = .waiting from hk]
      simp
    exact (h.visit_other visit hother).trans (h.waiting k hk)
  snapshot k history n hk := by
    have hother : s.connections k ≠ .attached := by
      rw [show s.connections k = .snapshotTaken history n from hk]
      simp
    obtain ⟨hnew, hrest⟩ := h.snapshot k history n hk
    exact ⟨(h.visit_other visit hother).trans hnew, hrest⟩
  queued k n hk := by
    have hother : s.connections k ≠ .attached := by
      rcases hk with hk | hk
      · rw [show s.connections k = .replayQueued n from hk]
        simp
      · rw [show s.connections k = .subscribing n from hk]
        simp
    obtain ⟨hn, hpayload⟩ := h.queued k n hk
    exact ⟨hn, fun hfits => h.visit_other visit hother ▸ hpayload hfits⟩
  delivered hfits k hk :=
    (h.visit_delivered hvisit hfits hk).trans happended.symm

theorem fanOut (h : AttachInvariant s) {chunk : Bytes}
    (hextended : s.reader = .extended chunk) :
    AttachInvariant { s.visitSubscribers (·.deliver chunk) with
      reader := .reading, fannedOut := s.fannedOut + 1 } := by
  have hdrop := h.inFlight
  rw [hextended] at hdrop
  change s.chunks.drop s.fannedOut = [chunk] at hdrop
  have hlength := congrArg List.length hdrop
  rw [List.length_drop, List.length_singleton] at hlength
  have happended : (s.chunks.take (s.fannedOut + 1)).flatten =
      s.appended ++ chunk := by
    rw [List.take_add, List.flatten_append, hdrop]
    simp [TerminalState.appended]
  refine h.visit chunk (fun _ => Channel.payload_deliver) (by omega) ?_ happended
  exact List.drop_eq_nil_of_le (by omega)

theorem notifyExited (h : AttachInvariant s) (hending : s.reader = .ending) :
    AttachInvariant { s.visitSubscribers (·.send .exited) with
      reader := .ended } := by
  have hdrop := h.inFlight
  rw [hending] at hdrop
  refine h.visit [] (fun channel _ => ?_) h.fannedOut_le hdrop
    (List.append_nil _).symm
  rw [Channel.payload_exited, List.append_nil]

theorem readerEnds (h : AttachInvariant s) (hreading : s.reader = .reading) :
    AttachInvariant { s with exited := true, reader := .ending } where
  fannedOut_le := h.fannedOut_le
  inFlight := by rw [h.inFlight, hreading]; rfl
  scrollback := h.scrollback
  nodup := h.nodup
  registered := h.registered
  waiting := h.waiting
  snapshot := h.snapshot
  queued := h.queued
  delivered := h.delivered

/-- A step of one connection that is not subscribed before it: the others keep
their phases and channels. -/
theorem connect (h : AttachInvariant s) {k : Nat}
    (hk : s.connections k ≠ .attached) {channel : Channel} {phase : ConnectionPhase}
    (hwaiting : phase = .waiting → channel = .new)
    (hsnapshot : ∀ history n, phase = .snapshotTaken history n →
      channel = .new ∧ n ≤ s.chunks.length ∧
        (s.Fits → history = (s.chunks.take n).flatten))
    (hqueued : ∀ n, phase = .replayQueued n ∨ phase = .subscribing n →
      n ≤ s.chunks.length ∧
        (s.Fits → channel.payload = (s.chunks.take n).flatten)) :
    AttachInvariant ((s.setChannel k channel).setConnection k phase) := by
  have hout : k ∉ s.subscribers := fun hmem => hk (h.registered k hmem)
  constructor
  case fannedOut_le => exact h.fannedOut_le
  case inFlight => exact h.inFlight
  case scrollback => exact h.scrollback
  case nodup => exact h.nodup
  case registered =>
    intro j hj
    have hne : j ≠ k := fun heq => hout (heq ▸ hj)
    exact (Function.update_of_ne hne phase s.connections).trans (h.registered j hj)
  case waiting =>
    intro j hj
    rcases eq_or_ne j k with rfl | hne
    · simp only [TerminalState.setConnection, TerminalState.setChannel,
        Function.update_self] at hj ⊢
      exact hwaiting hj
    · simp only [TerminalState.setConnection, TerminalState.setChannel,
        Function.update_of_ne hne] at hj ⊢
      exact h.waiting j hj
  case snapshot =>
    intro j history n hj
    rcases eq_or_ne j k with rfl | hne
    · simp only [TerminalState.setConnection, TerminalState.setChannel,
        Function.update_self] at hj ⊢
      exact hsnapshot history n hj
    · simp only [TerminalState.setConnection, TerminalState.setChannel,
        Function.update_of_ne hne] at hj ⊢
      exact h.snapshot j history n hj
  case queued =>
    intro j n hj
    rcases eq_or_ne j k with rfl | hne
    · simp only [TerminalState.setConnection, TerminalState.setChannel,
        Function.update_self] at hj ⊢
      exact hqueued n hj
    · simp only [TerminalState.setConnection, TerminalState.setChannel,
        Function.update_of_ne hne] at hj ⊢
      exact h.queued j n hj
  case delivered =>
    intro hfits j hj
    have hne : j ≠ k := fun heq => hout (heq ▸ hj)
    change ((Function.update s.channels k channel) j).payload = s.appended
    rw [Function.update_of_ne hne]
    exact h.delivered hfits j hj

theorem setConnection (h : AttachInvariant s) {k : Nat}
    (hk : s.connections k ≠ .attached) {phase : ConnectionPhase}
    (hwaiting : phase ≠ .waiting)
    (hsnapshot : ∀ history n, phase = .snapshotTaken history n →
      s.channels k = .new ∧ n ≤ s.chunks.length ∧
        (s.Fits → history = (s.chunks.take n).flatten))
    (hqueued : ∀ n, phase = .replayQueued n ∨ phase = .subscribing n →
      n ≤ s.chunks.length ∧
        (s.Fits → (s.channels k).payload = (s.chunks.take n).flatten)) :
    AttachInvariant (s.setConnection k phase) := by
  have hconnect := h.connect hk (fun heq => absurd heq hwaiting) hsnapshot hqueued
  rwa [TerminalState.setChannel_self] at hconnect

theorem takeSnapshot (h : AttachInvariant s) {k : Nat}
    (hk : s.connections k = .waiting) :
    AttachInvariant
      (s.setConnection k (.snapshotTaken s.scrollback s.chunks.length)) := by
  refine h.setConnection (by simp [hk]) (by simp) ?_ (by simp)
  rintro history n hphase
  obtain ⟨rfl, rfl⟩ := ConnectionPhase.snapshotTaken.inj hphase
  refine ⟨h.waiting k hk, le_rfl, fun hfits => ?_⟩
  rw [h.scrollback, List.take_length]
  exact rtake_of_length_le hfits

theorem queueReplay (h : AttachInvariant s) {k : Nat} {history : Bytes} {n : Nat}
    (hk : s.connections k = .snapshotTaken history n) (cols rows : Nat) :
    AttachInvariant ((s.setChannel k ((s.channels k).queueReplay history cols rows)
      ).setConnection k (.replayQueued n)) := by
  obtain ⟨hnew, hn, hhistory⟩ := h.snapshot k history n hk
  apply h.connect (by simp [hk]) (by simp) (by simp)
  intro m hphase
  obtain rfl : n = m := by simpa using hphase
  refine ⟨hn, fun hfits => ?_⟩
  rw [hnew, Channel.payload_queueReplay]
  exact hhistory hfits

theorem foundExited (h : AttachInvariant s) {k n : Nat}
    (hk : s.connections k = .replayQueued n) :
    AttachInvariant ((s.setChannel k ((s.channels k).send .exited).1
      ).setConnection k .attached) :=
  h.connect (by simp [hk]) (by simp) (by simp) (by simp)

theorem notExited (h : AttachInvariant s) {k n : Nat}
    (hk : s.connections k = .replayQueued n) :
    AttachInvariant (s.setConnection k (.subscribing n)) := by
  apply h.setConnection (by simp [hk]) (by simp) (by simp)
  intro m hphase
  obtain rfl : n = m := by simpa using hphase
  exact h.queued k n (.inl hk)

/-- The replay holds the chunks fanned out so far, and every later one will come
through the subscription. -/
theorem subscribe (h : AttachInvariant s) {k : Nat}
    (hk : s.connections k = .subscribing s.fannedOut) :
    AttachInvariant { s.setConnection k .attached with
      subscribers := s.subscribers ++ [k] } := by
  have hout : k ∉ s.subscribers := fun hmem => by
    simpa [hk] using h.registered k hmem
  have hconnect : AttachInvariant (s.setConnection k .attached) :=
    h.setConnection (by simp [hk]) (by simp) (by simp) (by simp)
  constructor
  case fannedOut_le => exact hconnect.fannedOut_le
  case inFlight => exact hconnect.inFlight
  case scrollback => exact hconnect.scrollback
  case nodup =>
    exact h.nodup.append (List.nodup_singleton k) (by simpa using hout)
  case registered =>
    intro j hj
    rcases List.mem_append.mp hj with hold | hnew
    · exact hconnect.registered j hold
    · rw [List.mem_singleton.mp hnew]
      exact Function.update_self k .attached s.connections
  case waiting => exact hconnect.waiting
  case snapshot => exact hconnect.snapshot
  case queued => exact hconnect.queued
  case delivered =>
    intro hfits j hj
    rcases List.mem_append.mp hj with hold | hnew
    · exact hconnect.delivered hfits j hold
    · rw [List.mem_singleton.mp hnew]
      exact (h.queued k _ (.inr hk)).2 hfits

theorem drain (h : AttachInvariant s) {k : Nat} (hk : s.connections k = .attached)
    {channel : Channel} (hpayload : channel.payload = (s.channels k).payload) :
    AttachInvariant (s.setChannel k channel) := by
  have hother {j : Nat} (hj : s.connections j ≠ .attached) :
      (s.setChannel k channel).channels j = s.channels j := by
    have hne : j ≠ k := fun heq => hj (heq ▸ hk)
    exact Function.update_of_ne hne channel s.channels
  constructor
  case fannedOut_le => exact h.fannedOut_le
  case inFlight => exact h.inFlight
  case scrollback => exact h.scrollback
  case nodup => exact h.nodup
  case registered => exact h.registered
  case waiting =>
    intro j hj
    rw [hother (by simp [show s.connections j = _ from hj])]
    exact h.waiting j hj
  case snapshot =>
    intro j history n hj
    rw [hother (by simp [show s.connections j = _ from hj])]
    exact h.snapshot j history n hj
  case queued =>
    intro j n hj
    rw [hother (by rcases hj with hj | hj <;> simp [show s.connections j = _ from hj])]
    exact h.queued j n hj
  case delivered =>
    intro hfits j hj
    have hold := h.delivered hfits j hj
    rcases eq_or_ne j k with rfl | hne
    · change ((Function.update s.channels j channel) j).payload = s.appended
      rw [Function.update_self, hpayload, hold]
    · change ((Function.update s.channels k channel) j).payload = s.appended
      rw [Function.update_of_ne hne, hold]

theorem step (h : AttachInvariant s) {a : TerminalAction}
    (hok : subscribesInStep s a = true) {s' : TerminalState}
    (hstep : terminalStep s a = some s') : AttachInvariant s' := by
  cases a with
  | readChunk chunk =>
    simp only [terminalStep] at hstep
    split at hstep
    · next hcond =>
        obtain rfl := Option.some.inj hstep
        exact h.readChunk hcond.1 chunk
    · cases hstep
  | fanOut =>
    simp only [terminalStep] at hstep
    split at hstep
    · next hextended =>
        obtain rfl := Option.some.inj hstep
        exact h.fanOut hextended
    · cases hstep
  | readerEnds =>
    simp only [terminalStep] at hstep
    split at hstep
    · next hreading =>
        obtain rfl := Option.some.inj hstep
        exact h.readerEnds hreading
    · cases hstep
  | notifyExited =>
    simp only [terminalStep] at hstep
    split at hstep
    · next hending =>
        obtain rfl := Option.some.inj hstep
        exact h.notifyExited hending
    · cases hstep
  | takeSnapshot k =>
    simp only [terminalStep] at hstep
    split at hstep
    · next hk =>
        obtain rfl := Option.some.inj hstep
        exact h.takeSnapshot hk
    · cases hstep
  | queueReplay k cols rows =>
    simp only [terminalStep] at hstep
    split at hstep
    · next hk =>
        obtain rfl := Option.some.inj hstep
        exact h.queueReplay hk cols rows
    · cases hstep
  | checkExited k =>
    simp only [terminalStep] at hstep
    split at hstep
    · next hk =>
        split at hstep
        · obtain rfl := Option.some.inj hstep
          exact h.foundExited hk
        · obtain rfl := Option.some.inj hstep
          exact h.notExited hk
    · cases hstep
  | subscribe k =>
    simp only [terminalStep] at hstep
    split at hstep
    · next n hk =>
        obtain rfl := Option.some.inj hstep
        simp only [subscribesInStep, hk, beq_iff_eq] at hok
        exact h.subscribe (hok ▸ hk)
    · cases hstep
  | writerTakes k =>
    simp only [terminalStep] at hstep
    split at hstep
    · next hk =>
        obtain ⟨channel, htake, rfl⟩ := Option.map_eq_some_iff.mp hstep
        exact h.drain hk (Channel.payload_take htake)
    · cases hstep
  | writerWrites k accepted =>
    simp only [terminalStep] at hstep
    split at hstep
    · next hk =>
        obtain ⟨channel, hwritten, rfl⟩ := Option.map_eq_some_iff.mp hstep
        exact h.drain hk (Channel.payload_written hwritten)
    · cases hstep

end AttachInvariant

/-- In a run in which every connection subscribes in step with the fan-out, a
subscriber's channel carries exactly the chunks appended so far, in order. -/
theorem attach_exactlyOnce {s : TerminalState}
    (h : terminal.ReachVia (fun s a => subscribesInStep s a = true) s)
    (hfits : s.Fits) {k : Nat} (hk : k ∈ s.subscribers) :
    (s.channels k).payload = s.appended := by
  have hinv : AttachInvariant s := by
    refine h.invariant ?_ ?_
    · rintro _ rfl
      exact .start
    · exact fun _ _ _ _ hinv hok hstep => hinv.step hok hstep
  exact hinv.delivered hfits k hk

/-- The chunk is appended in full between the copy and the subscription. -/
def appendInGap : List TerminalAction :=
  [.takeSnapshot 0, .readChunk [120], .fanOut, .queueReplay 0 80 24, .checkExited 0,
    .subscribe 0]

/-- The chunk is in the copy and fanned out after the subscription. -/
def subscribeInAppend : List TerminalAction :=
  [.readChunk [120], .takeSnapshot 0, .queueReplay 0 80 24, .checkExited 0,
    .subscribe 0, .fanOut]

/-- Both orders go wrong: one loses the chunk, the other delivers it twice. -/
theorem appendInGap_lost_subscribeInAppend_doubled :
    (∃ s, terminal.Reachable s ∧ s.Fits ∧ s.reader = .reading ∧
      s.subscribers = [0] ∧ s.appended = [120] ∧ (s.channels 0).payload = []) ∧
    ∃ s, terminal.Reachable s ∧ s.Fits ∧ s.reader = .reading ∧
      s.subscribers = [0] ∧ s.appended = [120] ∧
      (s.channels 0).payload = [120, 120] := by
  have hgap : (terminal.run .start appendInGap).isSome := by decide
  have happend : (terminal.run .start subscribeInAppend).isSome := by decide
  exact ⟨⟨_, System.reachable_get rfl hgap, by decide +revert, by decide +revert,
      by decide +revert, by decide +revert, by decide +revert⟩,
    ⟨_, System.reachable_get rfl happend, by decide +revert, by decide +revert,
      by decide +revert, by decide +revert, by decide +revert⟩⟩

/-- A connection that attaches between two appends. -/
def attachBetween : List TerminalAction :=
  [.readChunk [1], .fanOut, .takeSnapshot 0, .queueReplay 0 80 24, .checkExited 0,
    .subscribe 0, .writerTakes 0, .readChunk [2], .fanOut, .writerWrites 0 true]

theorem attachBetween_exactlyOnce :
    ∃ s, terminal.runVia (fun s a => subscribesInStep s a = true) .start
        attachBetween = some s ∧
      s.appended = [1, 2] ∧ (s.channels 0).payload = s.appended := by
  have hrun : (terminal.runVia (fun s a => subscribesInStep s a = true) .start
      attachBetween).isSome := by decide
  refine ⟨_, (Option.some_get hrun).symm, by decide +revert, ?_⟩
  exact attach_exactlyOnce (System.reachVia_get rfl hrun) (by decide +revert)
    (by decide +revert)

end HerdrWebui.Terminal
