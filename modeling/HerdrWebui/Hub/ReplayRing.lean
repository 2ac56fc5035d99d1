import HerdrWebui.Data.Tail
import HerdrWebui.Terminal.Frames

/-!
The bounded byte ring of a shared attach (`ReplayRing`). The capacity and the
bound on the content are fields, so each of the four ways `push_bytes` goes has
to establish the bound where it builds the new ring.
-/

namespace HerdrWebui.Hub

@[ext] structure ReplayRing where
  bytes : Bytes
  cap : Nat
  cap_pos : 0 < cap
  bounded : bytes.length ≤ cap

namespace ReplayRing

def new (cap : Nat) : ReplayRing where
  bytes := []
  cap := max cap 1
  cap_pos := by omega
  bounded := Nat.zero_le _

def snapshot (ring : ReplayRing) : Bytes := ring.bytes

def pushBytes (ring : ReplayRing) (chunk : Bytes) : ReplayRing :=
  if chunk.isEmpty then ring
  else if hlong : ring.cap ≤ chunk.length then
    { ring with
      bytes := chunk.drop (chunk.length - ring.cap)
      bounded := by rw [List.length_drop]; omega }
  else if hfits : ring.bytes.length + chunk.length ≤ ring.cap then
    { ring with
      bytes := ring.bytes ++ chunk
      bounded := by rw [List.length_append]; exact hfits }
  else
    let overflow := ring.bytes.length + chunk.length - ring.cap
    { ring with
      bytes := ring.bytes.drop overflow ++ chunk
      bounded := by rw [List.length_append, List.length_drop]; omega }

def replaceWith (ring : ReplayRing) (chunk : Bytes) : ReplayRing :=
  pushBytes { ring with bytes := [], bounded := Nat.zero_le _ } chunk

variable (ring : ReplayRing) (chunk : Bytes)

@[simp] theorem pushBytes_cap : (ring.pushBytes chunk).cap = ring.cap := by
  unfold pushBytes
  split
  · rfl
  · split
    · rfl
    · split <;> rfl

@[simp] theorem replaceWith_cap : (ring.replaceWith chunk).cap = ring.cap :=
  pushBytes_cap _ _

theorem pushBytes_snapshot :
    (ring.pushBytes chunk).snapshot = (ring.snapshot ++ chunk).rtake ring.cap := by
  have hbound := ring.bounded
  unfold pushBytes snapshot
  split
  · next hempty =>
      rw [List.isEmpty_iff.mp hempty, List.append_nil, rtake_of_length_le hbound]
  · split
    · next hlong => exact (rtake_append_of_le ring.bytes chunk hlong).symm
    · split
      · next hfits =>
          refine (rtake_of_length_le ?_).symm
          rw [List.length_append]
          exact hfits
      · next hshort hover =>
          have hoverflow : ring.bytes.length + chunk.length - ring.cap =
              ring.bytes.length - (ring.cap - chunk.length) := by omega
          change ring.bytes.drop (ring.bytes.length + chunk.length - ring.cap) ++
            chunk = _
          rw [rtake_append_of_ge _ _ (by omega), List.rtake, hoverflow]

theorem replaceWith_snapshot :
    (ring.replaceWith chunk).snapshot = chunk.rtake ring.cap :=
  pushBytes_snapshot _ _

end ReplayRing

end HerdrWebui.Hub
