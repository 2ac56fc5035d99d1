import HerdrWebui.Hub.ReplayRing

/-!
What the reader thread of a shared attach does to the replay ring, message by
message, against the stream the backend considers current: the bytes of the last
full frame and of every frame after it.
-/

namespace HerdrWebui.Hub

/-- The events a joined client can receive. -/
inductive HubClientEvent where
  | bytes (bytes : Bytes)
  | error (kind message : String) (suggestsBuiltin : Bool)
  deriving DecidableEq

/-- The first half of `publish`: bytes go into the ring, an error does not. -/
def recordEvent (ring : ReplayRing) : HubClientEvent → ReplayRing
  | .bytes bytes => ring.pushBytes bytes
  | .error _ _ _ => ring

/-- One round of the reader loop. A full frame is written into the ring and
then published like any other frame. -/
def readMessage (ring : ReplayRing) : ServerMessage → ReplayRing
  | .terminal frame =>
    let ring := if frame.full then ring.replaceWith frame.bytes else ring
    recordEvent ring (.bytes frame.bytes)
  | .graphics bytes => recordEvent ring (.bytes bytes)
  | .serverShutdown _ => ring
  | .other => ring

def isShutdown : ServerMessage → Bool
  | .serverShutdown _ => true
  | _ => false

/-- The messages the loop gets to: it ends at a shutdown. -/
def processed (messages : List ServerMessage) : List ServerMessage :=
  messages.takeWhile fun message => !isShutdown message

def readerLoop (ring : ReplayRing) (messages : List ServerMessage) : ReplayRing :=
  (processed messages).foldl readMessage ring

def extendStream (stream : Bytes) : ServerMessage → Bytes
  | .terminal frame => if frame.full then frame.bytes else stream ++ frame.bytes
  | .graphics bytes => stream ++ bytes
  | .serverShutdown _ => stream
  | .other => stream

/-- The bytes of the last full frame, if any, and of every frame after it. -/
def currentStream (messages : List ServerMessage) : Bytes :=
  (processed messages).foldl extendStream []

/-- The ring and the stream agree on this message: a full frame is empty, or so
long that writing it twice leaves nothing of the first copy. -/
def RecordedOnce (cap : Nat) : ServerMessage → Prop
  | .terminal frame => frame.full → frame.bytes = [] ∨ cap ≤ frame.bytes.length
  | _ => True

theorem readMessage_cap (ring : ReplayRing) (message : ServerMessage) :
    (readMessage ring message).cap = ring.cap := by
  cases message with
  | terminal frame =>
    simp only [readMessage, recordEvent, ReplayRing.pushBytes_cap]
    split
    · exact ReplayRing.replaceWith_cap _ _
    · rfl
  | graphics bytes => exact ReplayRing.pushBytes_cap _ _
  | serverShutdown reason => rfl
  | other => rfl

theorem readMessage_full_snapshot (ring : ReplayRing) {frame : TerminalFrame}
    (hfull : frame.full = true) :
    (readMessage ring (.terminal frame)).snapshot =
      (frame.bytes ++ frame.bytes).rtake ring.cap := by
  simp only [readMessage, recordEvent, hfull, if_true]
  rw [ReplayRing.pushBytes_snapshot, ReplayRing.replaceWith_snapshot,
    ReplayRing.replaceWith_cap, rtake_rtake_append]

/-- Two copies of a full frame trim to one exactly when there is nothing to
trim or no room for the first copy. -/
theorem rtake_twice_iff (cap : Nat) (bytes : Bytes) :
    (bytes ++ bytes).rtake cap = bytes.rtake cap ↔
      bytes = [] ∨ cap ≤ bytes.length := by
  constructor
  · intro h
    have hlen := congrArg List.length h
    rw [length_rtake, length_rtake, List.length_append] at hlen
    rcases Nat.lt_or_ge bytes.length cap with hlt | hge
    · exact .inl (List.length_eq_zero_iff.mp (by omega))
    · exact .inr hge
  · rintro (rfl | h)
    · rfl
    · exact rtake_append_of_le _ _ h

/-- One round keeps ring and stream together exactly on the messages that are
recorded once. -/
theorem readMessage_snapshot_iff {ring : ReplayRing} {stream : Bytes}
    (h : ring.snapshot = stream.rtake ring.cap) (message : ServerMessage) :
    (readMessage ring message).snapshot =
        (extendStream stream message).rtake ring.cap ↔
      RecordedOnce ring.cap message := by
  cases message with
  | terminal frame =>
    cases hfull : frame.full with
    | true =>
      rw [readMessage_full_snapshot ring hfull]
      simp only [extendStream, RecordedOnce, hfull, if_true, forall_const]
      exact rtake_twice_iff ring.cap frame.bytes
    | false =>
      simp only [readMessage, recordEvent, extendStream, RecordedOnce, hfull,
        Bool.false_eq_true, if_false, false_implies, iff_true]
      rw [ReplayRing.pushBytes_snapshot, h, rtake_rtake_append]
  | graphics bytes =>
    simp only [readMessage, recordEvent, extendStream, RecordedOnce, iff_true]
    rw [ReplayRing.pushBytes_snapshot, h, rtake_rtake_append]
  | serverShutdown reason => exact iff_of_true h trivial
  | other => exact iff_of_true h trivial

/-- Over a run of the loop: the ring follows the stream after every message
exactly when every message is recorded once. -/
theorem foldl_readMessage_snapshot_iff {ring : ReplayRing} {stream : Bytes}
    (h : ring.snapshot = stream.rtake ring.cap) (messages : List ServerMessage) :
    (∀ n, ((messages.take n).foldl readMessage ring).snapshot =
        ((messages.take n).foldl extendStream stream).rtake ring.cap) ↔
      ∀ message ∈ messages, RecordedOnce ring.cap message := by
  induction messages generalizing ring stream with
  | nil => simpa using h
  | cons message messages ih =>
    rw [List.forall_mem_cons, ← readMessage_cap ring message]
    constructor
    · intro hall
      have hfirst : (readMessage ring message).snapshot =
          (extendStream stream message).rtake (readMessage ring message).cap := by
        simpa using hall 1
      have honce := (readMessage_snapshot_iff h message).mp
        (readMessage_cap ring message ▸ hfirst)
      refine ⟨(readMessage_cap ring message).symm ▸ honce, (ih hfirst).mp fun n => ?_⟩
      simpa using hall (n + 1)
    · rintro ⟨honce, hrest⟩ n
      have hfirst := (readMessage_snapshot_iff h message).mpr
        (readMessage_cap ring message ▸ honce)
      rw [← readMessage_cap ring message] at hfirst
      cases n with
      | zero => simpa [readMessage_cap] using h
      | succ n => simpa using (ih hfirst).mpr hrest n

theorem processed_take (messages : List ServerMessage) (n : Nat) :
    processed (messages.take n) = (processed messages).take n :=
  List.take_takeWhile.symm

/-- The ring equals the backend's stream after every message of a run exactly
when every full frame in it is empty or fills the ring on its own. -/
theorem readerLoop_snapshot_iff (cap : Nat) (messages : List ServerMessage) :
    (∀ n, (readerLoop (.new cap) (messages.take n)).snapshot =
        (currentStream (messages.take n)).rtake (max cap 1)) ↔
      ∀ frame, .terminal frame ∈ processed messages → frame.full = true →
        frame.bytes = [] ∨ max cap 1 ≤ frame.bytes.length := by
  have hempty : (ReplayRing.new cap).snapshot =
      List.rtake [] (ReplayRing.new cap).cap := by
    rw [List.rtake_nil]
    rfl
  have hiff := foldl_readMessage_snapshot_iff hempty (processed messages)
  simp only [readerLoop, currentStream, processed_take]
  refine hiff.trans ⟨fun h frame hmem => h _ hmem, fun h message hmem => ?_⟩
  cases message with
  | terminal frame => exact h frame hmem
  | graphics bytes => trivial
  | serverShutdown reason => trivial
  | other => trivial

/-- A full frame shorter than the ring is in it twice. -/
theorem readerLoop_fullFrame_twice :
    (readerLoop (.new 16) [.terminal ⟨1, 80, 24, true, [104, 105]⟩]).snapshot =
        [104, 105, 104, 105] ∧
      (readerLoop (.new 16) [.terminal ⟨1, 80, 24, true, [104, 105]⟩]).snapshot ≠
        (currentStream [.terminal ⟨1, 80, 24, true, [104, 105]⟩]).rtake 16 := by
  decide

end HerdrWebui.Hub
