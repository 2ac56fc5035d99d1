import HerdrWebui.Data.Result
import HerdrWebui.Data.Text

/-!
Messages as frames of a byte stream: a length of four bytes and the encoding. What one
side writes the other side reads, at whatever byte the stream ends.
-/

namespace HerdrWebui.Terminal

/-- `bincode` for one type of messages. A decoder says how many bytes it used. -/
structure Bincode (M : Type) where
  encode : M → Except String (List UInt8)
  decode : List UInt8 → Except String (M × Nat)

/-- An encoding is decoded to what it encodes, whatever follows it. -/
def Bincode.DecodesOwn {M : Type} (bincode : Bincode M) : Prop :=
  ∀ msg payload rest, bincode.encode msg = .ok payload →
    bincode.decode (payload ++ rest) = .ok (msg, payload.length)

def toLeBytes (len : Nat) : List UInt8 :=
  [UInt8.ofNat len, UInt8.ofNat (len / 256), UInt8.ofNat (len / 65536),
    UInt8.ofNat (len / 16777216)]

def fromLeBytes (bytes : List UInt8) : Nat :=
  bytes.foldr (fun byte len => byte.toNat + 256 * len) 0

/-- `read_exact` from the bytes that are left, and the error at their end. The text of the
error is the standard library's. -/
def readExact (eof stage : String) (n : Nat) (bytes : List UInt8) :
    Except String (List UInt8 × List UInt8) :=
  if n ≤ bytes.length then .ok (bytes.take n, bytes.drop n)
  else .error s!"{stage}: {eof} (kind UnexpectedEof)"

/-- The format `{:02x?}` of some bytes. -/
def debugHex (bytes : List UInt8) : String :=
  let digit (n : Nat) : Char := (Nat.toDigits 16 n).headD '0'
  "[" ++ ", ".intercalate (bytes.map fun byte =>
    String.ofList [digit (byte.toNat / 16), digit (byte.toNat % 16)]) ++ "]"

section Codec

variable {M : Type} (bincode : Bincode M)

def writeMessage (written : List UInt8) (msg : M) : Except String (List UInt8) := do
  let payload ← bincode.encode msg
  if payload.length < 2 ^ 32 then .ok (written ++ toLeBytes payload.length ++ payload)
  else .error "payload too large"

variable (eof : String) (maxFrameSize : Nat)

/-- A message and the bytes that are left after it. -/
def readMessage (bytes : List UInt8) : Except String (M × List UInt8) := do
  let (lenBuf, bytes) ← readExact eof "read frame length" 4 bytes
  let len := fromLeBytes lenBuf
  if len > maxFrameSize then .error s!"frame size {len} exceeds maximum {maxFrameSize}"
  else
    let (payload, bytes) ← readExact eof s!"read {len}-byte frame body" len bytes
    let (msg, consumed) ← bincode.decode payload
    let head := debugHex (payload.take 16)
    if consumed ≠ len then
      .error s!"trailing bytes in frame: decoded {consumed} of {len}, head {head}"
    else .ok (msg, bytes)

end Codec

def isClientDisconnect (err : String) : Bool := hasInfix "(kind UnexpectedEof)" err

theorem fromLeBytes_toLeBytes {len : Nat} (h : len < 2 ^ 32) :
    fromLeBytes (toLeBytes len) = len := by
  simp [fromLeBytes, toLeBytes]
  omega

theorem readExact_append {eof stage : String} {n : Nat} {part : List UInt8}
    (rest : List UInt8) (h : part.length = n) :
    readExact eof stage n (part ++ rest) = .ok (part, rest) := by
  have hlength : n ≤ (part ++ rest).length := by
    rw [List.length_append]
    omega
  rw [readExact, if_pos hlength, List.take_left' h, List.drop_left' h]

theorem readExact_short {eof stage : String} {n : Nat} {bytes : List UInt8}
    (h : bytes.length < n) :
    readExact eof stage n bytes = .error s!"{stage}: {eof} (kind UnexpectedEof)" := by
  rw [readExact, if_neg (not_le.mpr h)]

@[simp] theorem length_toLeBytes (len : Nat) : (toLeBytes len).length = 4 := rfl

section Reading

variable {M : Type} {bincode : Bincode M} {eof : String} {maxFrameSize : Nat}

theorem readMessage_overlong {len : Nat} (rest : List UInt8) (h : len < 2 ^ 32)
    (hlong : len > maxFrameSize) :
    readMessage bincode eof maxFrameSize (toLeBytes len ++ rest) =
      .error s!"frame size {len} exceeds maximum {maxFrameSize}" := by
  rw [readMessage, readExact_append rest (length_toLeBytes len)]
  simp only [bind, Except.bind, fromLeBytes_toLeBytes h, if_pos hlong]

theorem readMessage_frame {payload : List UInt8} (rest : List UInt8)
    (h : payload.length < 2 ^ 32) (hfits : payload.length ≤ maxFrameSize) :
    readMessage bincode eof maxFrameSize (toLeBytes payload.length ++ (payload ++ rest)) =
      (bincode.decode payload).bind fun (msg, consumed) =>
        let len := payload.length
        let head := debugHex (payload.take 16)
        if consumed ≠ len then
          .error s!"trailing bytes in frame: decoded {consumed} of {len}, head {head}"
        else .ok (msg, rest) := by
  rw [readMessage, readExact_append _ (length_toLeBytes payload.length)]
  simp only [bind, Except.bind, fromLeBytes_toLeBytes h, if_neg (not_lt.mpr hfits),
    readExact_append rest (rfl : payload.length = payload.length)]

theorem readExact_ok {stage : String} {n : Nat} {bytes part rest : List UInt8}
    (h : readExact eof stage n bytes = .ok (part, rest)) : rest.length + n = bytes.length := by
  rw [readExact] at h
  split at h
  · next hle =>
      obtain ⟨-, rfl⟩ := Prod.mk.inj (Except.ok.inj h)
      rw [List.length_drop]
      omega
  · cases h

theorem readMessage_length {bytes rest : List UInt8} {msg : M}
    (h : readMessage bincode eof maxFrameSize bytes = .ok (msg, rest)) :
    rest.length < bytes.length := by
  rw [readMessage] at h
  obtain ⟨⟨lenBuf, body⟩, hlen, h⟩ := bind_eq_ok.mp h
  dsimp only at h
  split at h
  · cases h
  · obtain ⟨⟨payload, rest'⟩, hbody, h⟩ := bind_eq_ok.mp h
    obtain ⟨⟨msg', consumed⟩, -, h⟩ := bind_eq_ok.mp h
    dsimp only at h
    split at h
    · cases h
    · obtain ⟨-, rfl⟩ := Prod.mk.inj (Except.ok.inj h)
      have hhead := readExact_ok hlen
      have htail := readExact_ok hbody
      omega

theorem isClientDisconnect_eof (stage eof : String) :
    isClientDisconnect s!"{stage}: {eof} (kind UnexpectedEof)" = true := by
  rw [isClientDisconnect, hasInfix, decide_eq_true_iff]
  exact ⟨(stage ++ ": " ++ eof ++ " ").toList, [], by simp [toString]⟩

variable (bincode eof maxFrameSize) in
/-- Messages are read until there is an error. -/
def readMessages (bytes : List UInt8) : List M × String :=
  match _h : readMessage bincode eof maxFrameSize bytes with
  | .error err => ([], err)
  | .ok (msg, rest) => (msg :: (readMessages rest).1, (readMessages rest).2)
termination_by bytes.length
decreasing_by all_goals exact readMessage_length _h

/-- Messages are written until there is an error. -/
def writeMessages (bincode : Bincode M) (written : List UInt8) (messages : List M) :
    Except String (List UInt8) :=
  messages.foldlM (writeMessage bincode) written

/-- The messages whose frames are in the first `n` bytes. -/
def completeMessages (bincode : Bincode M) : (n : Nat) → List M → List M
  | _, [] => []
  | n, msg :: messages =>
    match writeMessage bincode [] msg with
    | .ok frame =>
      if frame.length ≤ n then msg :: completeMessages bincode (n - frame.length) messages
      else []
    | .error _ => []

/-- A frame that is too long, that is not the encoding of a message, or that is more than
one. -/
inductive BadFrame (bincode : Bincode M) (maxFrameSize : Nat) : List UInt8 → Prop
  | overlong (len : Nat) (rest : List UInt8) :
      len < 2 ^ 32 → len > maxFrameSize → BadFrame bincode maxFrameSize (toLeBytes len ++ rest)
  | undecodable (payload rest : List UInt8) (err : String) :
      payload.length < 2 ^ 32 → bincode.decode payload = .error err →
      BadFrame bincode maxFrameSize (toLeBytes payload.length ++ (payload ++ rest))
  | trailing (payload rest : List UInt8) (msg : M) (consumed : Nat) :
      payload.length < 2 ^ 32 → bincode.decode payload = .ok (msg, consumed) →
      consumed ≠ payload.length →
      BadFrame bincode maxFrameSize (toLeBytes payload.length ++ (payload ++ rest))

theorem readMessages_ok {bytes rest : List UInt8} {msg : M}
    (h : readMessage bincode eof maxFrameSize bytes = .ok (msg, rest)) :
    readMessages bincode eof maxFrameSize bytes =
      (msg :: (readMessages bincode eof maxFrameSize rest).1,
        (readMessages bincode eof maxFrameSize rest).2) := by
  rw [readMessages]
  split
  · next herr => cases herr.symm.trans h
  · next hok =>
      obtain ⟨rfl, rfl⟩ := Prod.mk.inj (Except.ok.inj (hok.symm.trans h))
      rfl

theorem readMessages_error {bytes : List UInt8} {err : String}
    (h : readMessage bincode eof maxFrameSize bytes = .error err) :
    readMessages bincode eof maxFrameSize bytes = ([], err) := by
  rw [readMessages]
  split
  · next herr =>
      obtain rfl := Except.error.inj (herr.symm.trans h)
      rfl
  · next hok => cases hok.symm.trans h

theorem writeMessage_eq_ok {frame : List UInt8} {msg : M} :
    writeMessage bincode [] msg = .ok frame ↔
      ∃ payload, bincode.encode msg = .ok payload ∧ payload.length < 2 ^ 32 ∧
        frame = toLeBytes payload.length ++ payload := by
  rw [writeMessage, bind_eq_ok]
  apply exists_congr
  intro payload
  apply and_congr_right
  intro _
  split
  · next hlt => simp only [hlt, true_and, Except.ok.injEq, List.nil_append, eq_comm]
  · next hge => simp only [hge, false_and, reduceCtorEq]

theorem writeMessage_map (written : List UInt8) (msg : M) :
    writeMessage bincode written msg = (writeMessage bincode [] msg).map (written ++ ·) := by
  unfold writeMessage
  cases bincode.encode msg with
  | error err => rfl
  | ok payload =>
    simp only [bind, Except.bind]
    split
    · simp [Except.map]
    · rfl

theorem writeMessages_map (written : List UInt8) (messages : List M) :
    writeMessages bincode written messages =
      (writeMessages bincode [] messages).map (written ++ ·) := by
  induction messages generalizing written with
  | nil => simp [writeMessages, pure, Except.pure, Except.map]
  | cons msg messages ih =>
    have hcons (written : List UInt8) : writeMessages bincode written (msg :: messages) =
        (writeMessage bincode written msg).bind (writeMessages bincode · messages) := rfl
    rw [hcons, hcons, writeMessage_map]
    cases writeMessage bincode [] msg with
    | error err => rfl
    | ok frame =>
      simp only [Except.map, Except.bind]
      rw [ih (written ++ frame), ih frame]
      cases writeMessages bincode [] messages <;> simp [Except.map]

theorem writeMessages_cons {bytes : List UInt8} {msg : M} {messages : List M} :
    writeMessages bincode [] (msg :: messages) = .ok bytes ↔
      ∃ payload frames, bincode.encode msg = .ok payload ∧ payload.length < 2 ^ 32 ∧
        writeMessages bincode [] messages = .ok frames ∧
        bytes = toLeBytes payload.length ++ (payload ++ frames) := by
  have hcons : writeMessages bincode [] (msg :: messages) =
      writeMessage bincode [] msg >>= (writeMessages bincode · messages) := rfl
  rw [hcons, bind_eq_ok]
  simp only [writeMessage_eq_ok]
  constructor
  · rintro ⟨_, ⟨payload, hencode, hlength, rfl⟩, hrest⟩
    rw [writeMessages_map] at hrest
    cases hframes : writeMessages bincode [] messages with
    | error err =>
      rw [hframes] at hrest
      cases hrest
    | ok frames =>
      rw [hframes] at hrest
      obtain rfl := Except.ok.inj hrest
      exact ⟨payload, frames, hencode, hlength, rfl, List.append_assoc ..⟩
  · rintro ⟨payload, frames, hencode, hlength, hframes, rfl⟩
    refine ⟨_, ⟨payload, hencode, hlength, rfl⟩, ?_⟩
    rw [writeMessages_map, hframes]
    exact congrArg Except.ok (List.append_assoc ..)

theorem readMessage_written {payload : List UInt8} {msg : M} (h : bincode.DecodesOwn)
    (rest : List UInt8) (hencode : bincode.encode msg = .ok payload) (hlength : payload.length < 2 ^ 32)
    (hfits : payload.length ≤ maxFrameSize) :
    readMessage bincode eof maxFrameSize (toLeBytes payload.length ++ (payload ++ rest)) =
      .ok (msg, rest) := by
  have hdecode := h msg payload [] hencode
  rw [List.append_nil] at hdecode
  rw [readMessage_frame rest hlength hfits, hdecode]
  simp [Except.bind]

theorem readMessage_cut {bytes : List UInt8}
    (h : bytes.length < 4 ∨ ∃ payload cut : List UInt8, payload.length < 2 ^ 32 ∧
      payload.length ≤ maxFrameSize ∧ bytes = toLeBytes payload.length ++ cut ∧
      cut.length < payload.length) :
    ∃ err, readMessage bincode eof maxFrameSize bytes = .error err ∧
      isClientDisconnect err = true := by
  rcases h with hshort | ⟨payload, cut, hpayload, hfits, rfl, hcut⟩
  · rw [readMessage, readExact_short hshort]
    exact ⟨_, rfl, isClientDisconnect_eof _ _⟩
  · rw [readMessage, readExact_append _ (length_toLeBytes payload.length)]
    simp only [bind, Except.bind, fromLeBytes_toLeBytes hpayload, if_neg (not_lt.mpr hfits),
      readExact_short hcut]
    exact ⟨_, rfl, isClientDisconnect_eof _ _⟩

variable {messages : List M} {bytes : List UInt8}

theorem readMessages_append (h : bincode.DecodesOwn)
    (hfits : ∀ msg ∈ messages, ∀ payload, bincode.encode msg = .ok payload →
      payload.length ≤ maxFrameSize)
    (hwritten : writeMessages bincode [] messages = .ok bytes) (rest : List UInt8) :
    readMessages bincode eof maxFrameSize (bytes ++ rest) =
      (messages ++ (readMessages bincode eof maxFrameSize rest).1,
        (readMessages bincode eof maxFrameSize rest).2) := by
  induction messages generalizing bytes with
  | nil =>
    obtain rfl : [] = bytes := Except.ok.inj hwritten
    rfl
  | cons msg messages ih =>
    rw [List.forall_mem_cons] at hfits
    obtain ⟨payload, frames, hencode, hlength, hframes, rfl⟩ := writeMessages_cons.mp hwritten
    rw [List.append_assoc, List.append_assoc, readMessages_ok
      (readMessage_written h (frames ++ rest) hencode hlength (hfits.1 payload hencode)),
      ih hfits.2 hframes]
    rfl

theorem readMessages_prefix (h : bincode.DecodesOwn)
    (hfits : ∀ msg ∈ messages, ∀ payload, bincode.encode msg = .ok payload →
      payload.length ≤ maxFrameSize)
    (hwritten : writeMessages bincode [] messages = .ok bytes) {cut : List UInt8}
    (hcut : cut <+: bytes) :
    ∃ err, readMessages bincode eof maxFrameSize cut =
      (completeMessages bincode cut.length messages, err) ∧ isClientDisconnect err = true := by
  induction messages generalizing bytes cut with
  | nil =>
    obtain rfl : [] = bytes := Except.ok.inj hwritten
    obtain rfl := List.prefix_nil.mp hcut
    obtain ⟨err, herr, hclosed⟩ : ∃ err, readMessage bincode eof maxFrameSize [] =
        .error err ∧ isClientDisconnect err = true := readMessage_cut (.inl (by decide))
    exact ⟨err, readMessages_error herr, hclosed⟩
  | cons msg messages ih =>
    rw [List.forall_mem_cons] at hfits
    obtain ⟨payload, frames, hencode, hlength, hframes, rfl⟩ := writeMessages_cons.mp hwritten
    have hframe : writeMessage bincode [] msg = .ok (toLeBytes payload.length ++ payload) :=
      writeMessage_eq_ok.mpr ⟨payload, hencode, hlength, rfl⟩
    have hsize : (toLeBytes payload.length ++ payload).length = 4 + payload.length := by simp
    rw [completeMessages, hframe]
    dsimp only
    rw [hsize]
    split
    · next hwhole =>
        -- The frame is whole, and the cut is in what follows it.
        have hprefix : toLeBytes payload.length ++ payload <+: cut := by
          apply List.prefix_of_prefix_length_le _ hcut (hsize.trans_le hwhole)
          exact ⟨frames, List.append_assoc ..⟩
        obtain ⟨cut, rfl⟩ := hprefix
        rw [← List.append_assoc, List.prefix_append_right_inj] at hcut
        obtain ⟨err, hrest, hclosed⟩ := ih hfits.2 hframes hcut
        have hleft : (toLeBytes payload.length ++ payload ++ cut).length -
            (4 + payload.length) = cut.length := by
          rw [List.length_append, hsize, Nat.add_sub_cancel_left]
        rw [List.append_assoc, readMessages_ok
          (readMessage_written h cut hencode hlength (hfits.1 payload hencode)), hrest,
          ← List.append_assoc, hleft]
        exact ⟨err, rfl, hclosed⟩
    · next hpart =>
        have hshort : cut.length < 4 ∨ ∃ payload cut' : List UInt8, payload.length < 2 ^ 32 ∧
            payload.length ≤ maxFrameSize ∧ cut = toLeBytes payload.length ++ cut' ∧
            cut'.length < payload.length := by
          rcases lt_or_ge cut.length 4 with hlen | hlen
          · exact .inl hlen
          · have hprefix : toLeBytes payload.length <+: cut :=
              List.prefix_of_prefix_length_le ⟨payload ++ frames, rfl⟩ hcut hlen
            obtain ⟨cut, rfl⟩ := hprefix
            rw [List.length_append, length_toLeBytes] at hpart
            exact .inr ⟨payload, cut, hlength, hfits.1 payload hencode, rfl, by omega⟩
        obtain ⟨err, herr, hclosed⟩ : ∃ err, readMessage bincode eof maxFrameSize cut =
            .error err ∧ isClientDisconnect err = true := readMessage_cut hshort
        exact ⟨err, readMessages_error herr, hclosed⟩

theorem readMessage_bad (h : BadFrame bincode maxFrameSize bytes) :
    ∃ err, readMessage bincode eof maxFrameSize bytes = .error err := by
  cases h with
  | overlong len rest hlen hlong => exact ⟨_, readMessage_overlong rest hlen hlong⟩
  | undecodable payload rest err hlen hdecode =>
    rcases lt_or_ge maxFrameSize payload.length with hlong | hfits
    · exact ⟨_, readMessage_overlong _ hlen hlong⟩
    · rw [readMessage_frame rest hlen hfits, hdecode]
      exact ⟨_, rfl⟩
  | trailing payload rest msg consumed hlen hdecode hconsumed =>
    rcases lt_or_ge maxFrameSize payload.length with hlong | hfits
    · exact ⟨_, readMessage_overlong _ hlen hlong⟩
    · rw [readMessage_frame rest hlen hfits, hdecode]
      exact ⟨_, if_pos hconsumed⟩

/-- A stream of frames is read as the messages that were written, up to where it ends or
goes wrong. -/
theorem readMessages_stream (h : bincode.DecodesOwn)
    (hfits : ∀ msg ∈ messages, ∀ payload, bincode.encode msg = .ok payload →
      payload.length ≤ maxFrameSize)
    (hwritten : writeMessages bincode [] messages = .ok bytes) :
    readMessages bincode eof maxFrameSize bytes =
        (messages, s!"read frame length: {eof} (kind UnexpectedEof)") ∧
      (∀ cut, cut <+: bytes → cut ≠ bytes → ∃ err,
        readMessages bincode eof maxFrameSize cut =
          (completeMessages bincode cut.length messages, err) ∧
        isClientDisconnect err = true) ∧
      ∀ bad, BadFrame bincode maxFrameSize bad → ∃ err,
        readMessages bincode eof maxFrameSize (bytes ++ bad) = (messages, err) := by
  refine ⟨?_, ?_, ?_⟩
  · have hend : readMessages bincode eof maxFrameSize [] =
        ([], s!"read frame length: {eof} (kind UnexpectedEof)") := by
      apply readMessages_error
      rw [readMessage, readExact_short (by decide)]
      rfl
    have hwhole : readMessages bincode eof maxFrameSize (bytes ++ []) = _ :=
      readMessages_append h hfits hwritten []
    rwa [List.append_nil, hend, List.append_nil] at hwhole
  · exact fun cut hcut _ => readMessages_prefix h hfits hwritten hcut
  · intro bad hbad
    obtain ⟨err, herr⟩ : ∃ err, readMessage bincode eof maxFrameSize bad = .error err :=
      readMessage_bad hbad
    rw [readMessages_append h hfits hwritten, readMessages_error herr, List.append_nil]
    exact ⟨err, rfl⟩

end Reading

section Example

inductive RenderEncoding where
  | semanticFrame
  | terminalAnsi
deriving DecidableEq

def renderBincode : Bincode RenderEncoding where
  encode
    | .semanticFrame => .ok [0]
    | .terminalAnsi => .ok [1]
  decode
    | 0 :: _ => .ok (.semanticFrame, 1)
    | 1 :: _ => .ok (.terminalAnsi, 1)
    | _ :: _ => .error "UnexpectedVariant"
    | [] => .error "UnexpectedEnd"

theorem renderBincode_decodesOwn : renderBincode.DecodesOwn := by
  intro msg payload rest hencode
  cases msg <;> obtain rfl := Except.ok.inj hencode <;> rfl

theorem readMessages_renderEncodings :
    readMessages renderBincode "failed to fill whole buffer" 1 [1, 0, 0, 0, 1, 1, 0, 0, 0, 0] =
      ([.terminalAnsi, .semanticFrame],
        "read frame length: failed to fill whole buffer (kind UnexpectedEof)") := by
  have hfits : ∀ msg ∈ [RenderEncoding.terminalAnsi, .semanticFrame], ∀ payload,
      renderBincode.encode msg = .ok payload → payload.length ≤ 1 := by
    intro msg _ payload hencode
    cases msg <;> obtain rfl := Except.ok.inj hencode <;> decide
  exact (readMessages_stream renderBincode_decodesOwn hfits rfl).1

end Example

end HerdrWebui.Terminal
