import HerdrWebui.Terminal.OscTracker

/-!
The sequences that terminal output is made of, and those of which the tracker sees just
the OSC sequences.
-/

namespace HerdrWebui.Terminal

def latin (byte : UInt8) : Char := Char.ofNat byte.toNat

/-- What an output is made of: bytes that are no escapes, pairs of an escape and a byte
that starts nothing longer, and longer sequences. -/
inductive VtItem where
  | plain (byte : UInt8)
  | escape (next : UInt8)
  | csi (params : List UInt8) (finalByte : UInt8)
  | string (kind : UInt8) (payload : List UInt8)
  | osc (body : List UInt8) (bel : Bool)

/-- What an output may end in. -/
inductive VtRest where
  | nothing
  | escape
  | csi (params : List UInt8)
  | string (kind : UInt8) (payload : List UInt8)
  | osc (body : List UInt8)

def terminator (bel : Bool) : List UInt8 := if bel then [0x07] else [0x1b, 0x5c]

def VtItem.bytes : VtItem → List UInt8
  | .plain byte => [byte]
  | .escape next => [0x1b, next]
  | .csi params finalByte => 0x1b :: 0x5b :: (params ++ [finalByte])
  | .string kind payload => 0x1b :: kind :: (payload ++ terminator false)
  | .osc body bel => 0x1b :: 0x5d :: (body ++ terminator bel)

def VtRest.bytes : VtRest → List UInt8
  | .nothing => []
  | .escape => [0x1b]
  | .csi params => 0x1b :: 0x5b :: params
  | .string kind payload => 0x1b :: kind :: payload
  | .osc body => 0x1b :: 0x5d :: body

/-- What starts a sequence that only a string terminator ends. -/
def stringKinds : List UInt8 := [0x50, 0x58, 0x5e, 0x5f]

def Unended (bel : Bool) (bytes : List UInt8) : Prop :=
  (bel = true → 0x07 ∉ bytes) ∧ ¬terminator false <:+: bytes

def VtItem.IsWhole : VtItem → Prop
  | .plain byte => byte ≠ 0x1b
  | .escape next => next ∉ 0x5b :: 0x5d :: stringKinds
  | .csi params finalByte =>
    (∀ param ∈ params, endsCsi (latin param) = false) ∧ endsCsi (latin finalByte) = true
  | .string kind payload => kind ∈ stringKinds ∧ Unended false payload
  | .osc body _ => Unended true body

def VtRest.IsOpen : VtRest → Prop
  | .nothing | .escape => True
  | .csi params => ∀ param ∈ params, endsCsi (latin param) = false
  | .string kind payload => kind ∈ stringKinds ∧ Unended false payload
  | .osc body => Unended true body

/-- A stream cut into its sequences. -/
structure VtCut (bytes : List UInt8) where
  items : List VtItem
  rest : VtRest
  bytes_eq : bytes = items.flatMap VtItem.bytes ++ rest.bytes
  isWhole : ∀ item ∈ items, item.IsWhole
  isOpen : rest.IsOpen

/-- No escape is in front of a `]`, the one before the bytes counted in. -/
def Quiet (escaped : Bool) (bytes : List UInt8) : Prop :=
  ¬[0x1b, 0x5d] <:+: if escaped then 0x1b :: bytes else bytes

/-- Whether an escape at the end of a body is left over, if each escape takes the byte
behind it. -/
def pendingEscape : Bool → List UInt8 → Bool
  | pending, [] => pending
  | pending, byte :: bytes => pendingEscape (byte == 0x1b && !pending) bytes

/-- A body that the tracker keeps, and in front of whose terminator it has no escape left
over; outside of OSC sequences, no start of one. -/
def VtItem.IsCalm (escaped : Bool) : VtItem → Prop
  | .osc body _ => pendingEscape false body = false ∧ body.length ≤ 4096
  | item => Quiet escaped item.bytes

def VtRest.IsCalm (escaped : Bool) : VtRest → Prop
  | .osc body => body.length ≤ 4096 + (pendingEscape false body).toNat
  | rest => Quiet escaped rest.bytes

def IsCalm (rest : VtRest) : (escaped : Bool) → List VtItem → Prop
  | escaped, [] => rest.IsCalm escaped
  | escaped, item :: items =>
    item.IsCalm escaped ∧ IsCalm rest (item.bytes.getLast? = some 0x1b) items

/-- The OSC sequences of a stream that is cut. -/
def cutSpans (rest : VtRest) : (pos : Nat) → List VtItem → List OscSpan
  | pos, [] =>
    match rest with
    | .osc _ => [⟨pos, .unfinished⟩]
    | _ => []
  | pos, item :: items =>
    let stop := pos + item.bytes.length
    match item with
    | .osc _ _ => ⟨pos, .terminated stop⟩ :: cutSpans rest stop items
    | _ => cutSpans rest stop items

theorem trackerScanner_inOsc (tracker : Osc9Tracker) : trackerScanner.inOsc tracker =
    decide (tracker.state = .oscBody ∨ tracker.state = .oscEscape) := rfl

theorem trackerScanner_closes (tracker : Osc9Tracker) (byte : UInt8) :
    trackerScanner.closes tracker byte =
      decide (tracker.state = .oscBody ∧ byte = 0x07 ∨
        tracker.state = .oscEscape ∧ byte = 0x5c) := rfl

/-- A pair is in a list behind its first symbol if the second is next, or further on. -/
theorem pair_infix_cons {α : Type} [DecidableEq α] {first second symbol : α} {seen : Bool}
    {symbols : List α} :
    ([first, second] <:+: if seen then first :: symbol :: symbols else symbol :: symbols) ↔
      seen = true ∧ symbol = second ∨
        [first, second] <:+: if symbol == first then first :: symbols else symbols := by
  have hplain : [first, second] <:+: symbol :: symbols ↔
      [first, second] <:+: if symbol == first then first :: symbols else symbols := by
    by_cases hfirst : symbol = first
    · rw [hfirst, if_pos (beq_self_eq_true first)]
    · rw [if_neg (by simpa using hfirst), List.infix_cons_iff, List.cons_prefix_cons]
      simp [Ne.symm hfirst]
  cases seen with
  | false => simpa using hplain
  | true =>
    have hnext : [first, second] <+: first :: symbol :: symbols ↔ symbol = second := by
      rw [List.cons_prefix_cons, List.cons_prefix_cons]
      exact ⟨fun h => h.2.1.symm, fun h => ⟨rfl, h.symm, List.nil_prefix⟩⟩
    rw [if_pos rfl, List.infix_cons_iff, hplain, hnext, and_iff_right rfl]

theorem quiet_cons {escaped : Bool} {byte : UInt8} {bytes : List UInt8} :
    Quiet escaped (byte :: bytes) ↔
      ¬(escaped = true ∧ byte = 0x5d) ∧ Quiet (byte == 0x1b) bytes := by
  unfold Quiet
  rw [pair_infix_cons, not_or]

/-- Whether the last byte read is an escape. -/
def escapedAfter (escaped : Bool) (bytes : List UInt8) : Bool :=
  bytes.foldl (fun _ byte => byte == 0x1b) escaped

structure Outside (escaped : Bool) (tracker : Osc9Tracker) : Prop where
  body : tracker.body = []
  state : tracker.state = if escaped then .escape else .ground

section Tracker

variable {escaped : Bool} {tracker : Osc9Tracker}

theorem Outside.not_inOsc (h : Outside escaped tracker) :
    trackerScanner.inOsc tracker = false := by
  rw [trackerScanner_inOsc, h.state]
  cases escaped <;> rfl

theorem Outside.step (h : Outside escaped tracker) {byte : UInt8}
    (hbyte : ¬(escaped = true ∧ byte = 0x5d)) :
    Outside (byte == 0x1b) (tracker.observeByte byte) := by
  obtain ⟨hbody, hstate⟩ := h
  have hnext : Outside (byte == 0x1b) (tracker.transition byte) := by
    unfold Osc9Tracker.transition
    rw [hstate]
    cases escaped with
    | false =>
      by_cases hescape : byte = 0x1b
      · constructor <;> simp [hescape, hbody]
      · constructor <;> simp [hescape, hbody, hstate]
    | true =>
      have hopen : byte ≠ 0x5d := fun heq => hbyte ⟨rfl, heq⟩
      by_cases hescape : byte = 0x1b
      · constructor <;> simp [hescape, hbody]
      · constructor <;> simp [hescape, hbody, hopen]
  rwa [Osc9Tracker.observeByte_of_le (by simp [hnext.body])]

theorem Outside.opens (h : Outside true tracker) :
    (tracker.observeByte 0x5d).state = .oscBody ∧ (tracker.observeByte 0x5d).body = [] := by
  have hnext : tracker.transition 0x5d = { tracker with body := [], state := .oscBody } := by
    unfold Osc9Tracker.transition
    rw [h.state]
    rfl
  rw [Osc9Tracker.observeByte_of_le (by simp [hnext]), hnext]
  exact ⟨rfl, rfl⟩

theorem Outside.spans_cons (h : Outside escaped tracker) (start pos : Nat) (byte : UInt8)
    (bytes : List UInt8) :
    trackerScanner.spans tracker start pos (byte :: bytes) =
      trackerScanner.spans (tracker.observeByte byte) (pos - 1) (pos + 1) bytes := by
  rw [Scanner.spans, h.not_inOsc]
  rfl

theorem Outside.spans_quiet (h : Outside escaped tracker) {bytes : List UInt8}
    (hquiet : Quiet escaped bytes) (start pos : Nat) :
    ∃ tracker' start', Outside (escapedAfter escaped bytes) tracker' ∧
      ∀ more, trackerScanner.spans tracker start pos (bytes ++ more) =
        trackerScanner.spans tracker' start' (pos + bytes.length) more := by
  induction bytes generalizing escaped tracker start pos with
  | nil => exact ⟨tracker, start, h, fun more => rfl⟩
  | cons byte bytes ih =>
    rw [quiet_cons] at hquiet
    obtain ⟨tracker', start', houtside, hspans⟩ :=
      ih (h.step hquiet.1) hquiet.2 (pos - 1) (pos + 1)
    apply Exists.intro tracker'
    apply Exists.intro start'
    apply And.intro houtside
    intro more
    rw [List.cons_append, h.spans_cons, hspans, List.length_cons]
    congr 1
    omega

theorem Outside.spans_not_quiet (h : Outside escaped tracker) {bytes : List UInt8}
    (hquiet : ¬Quiet escaped bytes) (start pos : Nat) (more : List UInt8) :
    ∃ span spans, trackerScanner.spans tracker start pos (bytes ++ more) = span :: spans ∧
      span.start < pos + bytes.length := by
  induction bytes generalizing escaped tracker start pos with
  | nil =>
    apply absurd _ hquiet
    unfold Quiet
    cases escaped <;> decide
  | cons byte bytes ih =>
    rw [List.cons_append, h.spans_cons, List.length_cons]
    by_cases hopen : escaped = true ∧ byte = 0x5d
    · obtain ⟨rfl, rfl⟩ := hopen
      have hinOsc : trackerScanner.inOsc (tracker.observeByte 0x5d) = true := by
        rw [trackerScanner_inOsc, h.opens.1]
        rfl
      obtain ⟨ending, spans, heq, -⟩ :=
        spans_of_inOsc hinOsc (pos - 1) (pos + 1) (fun _ => Nat.one_pos) (bytes ++ more)
      exact ⟨_, spans, heq, by dsimp only; omega⟩
    · have hrest : ¬Quiet (byte == 0x1b) bytes := fun hrest =>
        hquiet (quiet_cons.mpr ⟨hopen, hrest⟩)
      obtain ⟨span, spans, heq, hstart⟩ := ih (h.step hopen) hrest (pos - 1) (pos + 1)
      exact ⟨span, spans, heq, by omega⟩

structure InBody (pending : Bool) (tracker : Osc9Tracker) : Prop where
  state : tracker.state = if pending then .oscEscape else .oscBody
  length : tracker.body.length ≤ 4096

variable {pending : Bool} {byte : UInt8}

theorem InBody.inOsc (h : InBody pending tracker) : trackerScanner.inOsc tracker = true := by
  rw [trackerScanner_inOsc, h.state]
  cases pending <;> rfl

theorem pendingEscape_le (pending : Bool) (bytes : List UInt8) :
    (pendingEscape pending bytes).toNat ≤ pending.toNat + bytes.length := by
  induction bytes generalizing pending with
  | nil => exact le_rfl
  | cons byte bytes ih =>
    rw [pendingEscape, List.length_cons]
    have hrest := ih (byte == 0x1b && !pending)
    have hone := (byte == 0x1b && !pending).toNat_le
    omega

theorem InBody.transition (h : InBody pending tracker)
    (hbyte : byte ≠ if pending then 0x5c else 0x07) :
    (tracker.transition byte).state =
        (if byte == 0x1b && !pending then .oscEscape else .oscBody) ∧
      (tracker.transition byte).body.length + (byte == 0x1b && !pending).toNat =
        tracker.body.length + pending.toNat + 1 := by
  unfold Osc9Tracker.transition
  rw [h.state]
  cases pending with
  | false =>
    have hbel : byte ≠ 0x07 := hbyte
    by_cases hescape : byte = 0x1b <;> simp [hescape, hbel]
  | true =>
    have hterminator : byte ≠ 0x5c := hbyte
    simp [hterminator]

theorem InBody.spans_cons (h : InBody pending tracker) (start pos : Nat) (bytes : List UInt8)
    (hnext : trackerScanner.inOsc (tracker.observeByte byte) = true) :
    trackerScanner.spans tracker start pos (byte :: bytes) =
      trackerScanner.spans (tracker.observeByte byte) start (pos + 1) bytes := by
  rw [Scanner.spans, if_pos h.inOsc]
  exact if_pos hnext

theorem InBody.kept (h : InBody pending tracker)
    (hbyte : byte ≠ if pending then 0x5c else 0x07)
    (hfits : (tracker.transition byte).body.length ≤ 4096) :
    InBody (byte == 0x1b && !pending) (tracker.observeByte byte) := by
  rw [Osc9Tracker.observeByte_of_le hfits]
  exact ⟨(h.transition hbyte).1, hfits⟩

/-- Behind a byte that ends nothing the tracker is in the body still, or it gave it up. -/
theorem InBody.step (h : InBody pending tracker)
    (hbyte : byte ≠ if pending then 0x5c else 0x07) (start pos : Nat) (bytes : List UInt8) :
    (InBody (byte == 0x1b && !pending) (tracker.observeByte byte) ∧
      (tracker.observeByte byte).body.length + (byte == 0x1b && !pending).toNat =
        tracker.body.length + pending.toNat + 1 ∧
      trackerScanner.spans tracker start pos (byte :: bytes) =
        trackerScanner.spans (tracker.observeByte byte) start (pos + 1) bytes) ∨
    ∃ stop spans, trackerScanner.spans tracker start pos (byte :: bytes) =
      ⟨start, .abandoned stop⟩ :: spans := by
  by_cases hfits : (tracker.transition byte).body.length ≤ 4096
  · left
    have hnext := h.kept hbyte hfits
    refine ⟨hnext, ?_, h.spans_cons start pos bytes hnext.inOsc⟩
    rw [Osc9Tracker.observeByte_of_le hfits]
    exact (h.transition hbyte).2
  · right
    have hgone : trackerScanner.inOsc (tracker.observeByte byte) = false := by
      rw [Osc9Tracker.observeByte_of_lt (not_le.mp hfits), trackerScanner_inOsc]
      rfl
    have hopen : trackerScanner.closes tracker byte = false := by
      rw [trackerScanner_closes, h.state]
      cases pending with
      | false =>
        have hbel : byte ≠ 0x07 := hbyte
        simp [hbel]
      | true =>
        have hterminator : byte ≠ 0x5c := hbyte
        simp [hterminator]
    have hspans : trackerScanner.spans tracker start pos (byte :: bytes) =
        ⟨start, .abandoned (pos + 1)⟩ ::
          trackerScanner.spans (tracker.observeByte byte) start (pos + 1) bytes := by
      rw [Scanner.spans, if_pos h.inOsc, hopen]
      exact if_neg (Bool.eq_false_iff.mp hgone)
    exact ⟨_, _, hspans⟩

theorem InBody.closes (h : InBody pending tracker)
    (hbyte : byte = if pending then 0x5c else 0x07) (start pos : Nat) :
    ∃ tracker', Outside false tracker' ∧
      ∀ bytes, trackerScanner.spans tracker start pos (byte :: bytes) =
        ⟨start, .terminated (pos + 1)⟩ :: trackerScanner.spans tracker' start (pos + 1) bytes := by
  have hnext : tracker.transition byte = { tracker.finalize with state := .ground } := by
    unfold Osc9Tracker.transition
    rw [h.state]
    cases pending <;> exact if_pos hbyte
  have hbody : tracker.finalize.body = [] := rfl
  have hobserve : tracker.observeByte byte = { tracker.finalize with state := .ground } := by
    rw [Osc9Tracker.observeByte_of_le (by simp [hnext, hbody]), hnext]
  refine ⟨{ tracker.finalize with state := .ground }, ⟨hbody, rfl⟩, fun bytes => ?_⟩
  have hgone : ¬trackerScanner.inOsc (tracker.observeByte byte) = true := by
    rw [hobserve, trackerScanner_inOsc]
    exact (by decide : ¬decide (Osc9State.ground = .oscBody ∨ Osc9State.ground = .oscEscape) = true)
  have hcloses : trackerScanner.closes tracker byte = true := by
    rw [trackerScanner_closes, h.state]
    cases pending <;> simp_all
  rw [Scanner.spans, if_pos h.inOsc, hcloses, ← hobserve]
  exact if_neg hgone

theorem unended_cons {body : List UInt8}
    (h : 0x07 ∉ byte :: body ∧
      ¬terminator false <:+: if pending then 0x1b :: byte :: body else byte :: body) :
    byte ≠ (if pending then 0x5c else 0x07) ∧ 0x07 ∉ body ∧
      ¬terminator false <:+: if byte == 0x1b && !pending then 0x1b :: body else body := by
  obtain ⟨hbel, hst⟩ := h
  rw [List.mem_cons, not_or] at hbel
  have hpair := mt pair_infix_cons.mpr hst
  rw [not_or] at hpair
  refine ⟨?_, hbel.2, ?_⟩
  · cases pending with
    | false => exact Ne.symm hbel.1
    | true => exact fun heq => hpair.1 ⟨rfl, heq⟩
  · cases pending with
    | false =>
      rw [Bool.not_false, Bool.and_true]
      exact hpair.2
    | true =>
      intro hinfix
      apply hpair.2
      split
      · rw [Bool.not_true, Bool.and_false] at hinfix
        exact List.infix_cons hinfix
      · rw [Bool.not_true, Bool.and_false] at hinfix
        exact hinfix

theorem InBody.spans_kept (h : InBody pending tracker) {body : List UInt8}
    (hbody : 0x07 ∉ body ∧ ¬terminator false <:+: if pending then 0x1b :: body else body)
    (hroom : tracker.body.length + pending.toNat + body.length ≤
      4096 + (pendingEscape pending body).toNat) (start pos : Nat) :
    ∃ tracker', InBody (pendingEscape pending body) tracker' ∧
      tracker'.body.length + (pendingEscape pending body).toNat =
        tracker.body.length + pending.toNat + body.length ∧
      ∀ more, trackerScanner.spans tracker start pos (body ++ more) =
        trackerScanner.spans tracker' start (pos + body.length) more := by
  induction body generalizing pending tracker pos with
  | nil => exact ⟨tracker, h, rfl, fun more => rfl⟩
  | cons byte body ih =>
    obtain ⟨hbyte, hrest⟩ := unended_cons hbody
    obtain ⟨hstate, hlength⟩ := h.transition hbyte
    rw [pendingEscape, List.length_cons] at hroom ⊢
    have hle := pendingEscape_le (byte == 0x1b && !pending) body
    have hfits : (tracker.transition byte).body.length ≤ 4096 := by omega
    have hnext := h.kept hbyte hfits
    rw [← Osc9Tracker.observeByte_of_le hfits] at hlength
    obtain ⟨tracker', hin, htotal, hspans⟩ := ih hnext hrest (by omega) (pos + 1)
    refine ⟨tracker', hin, by omega, fun more => ?_⟩
    rw [List.cons_append, h.spans_cons start pos _ hnext.inOsc, hspans]
    congr 1
    omega

theorem InBody.spans_dropped (h : InBody pending tracker) {body : List UInt8}
    (hbody : 0x07 ∉ body ∧ ¬terminator false <:+: if pending then 0x1b :: body else body)
    (hroom : 4096 + (pendingEscape pending body).toNat <
      tracker.body.length + pending.toNat + body.length) (start pos : Nat)
    (more : List UInt8) :
    ∃ stop spans, trackerScanner.spans tracker start pos (body ++ more) =
      ⟨start, .abandoned stop⟩ :: spans := by
  induction body generalizing pending tracker pos with
  | nil =>
    have hlength := h.length
    rw [pendingEscape, List.length_nil] at hroom
    omega
  | cons byte body ih =>
    obtain ⟨hbyte, hrest⟩ := unended_cons hbody
    rw [pendingEscape, List.length_cons] at hroom
    rw [List.cons_append]
    rcases h.step hbyte start pos (body ++ more) with ⟨hnext, hlength, hspans⟩ | hdropped
    · rw [hspans]
      exact ih hnext hrest (by omega) (pos + 1)
    · exact hdropped
theorem InBody.spans_terminator (h : InBody false tracker) (bel : Bool) (start pos : Nat) :
    ∃ tracker', Outside false tracker' ∧
      ∀ more, trackerScanner.spans tracker start pos (terminator bel ++ more) =
        ⟨start, .terminated (pos + (terminator bel).length)⟩ ::
          trackerScanner.spans tracker' start (pos + (terminator bel).length) more := by
  cases bel with
  | true => exact h.closes rfl start pos
  | false =>
    have hescape : (0x1b : UInt8) ≠ if false then 0x5c else 0x07 := by decide
    have hlength : (tracker.transition 0x1b).body.length ≤ 4096 := by
      have hsum := (h.transition hescape).2
      have hbound := h.length
      have hone : (((0x1b : UInt8) == 0x1b) && !false).toNat = 1 := rfl
      have hzero : false.toNat = 0 := rfl
      omega
    have hnext : InBody true (tracker.observeByte 0x1b) := h.kept hescape hlength
    obtain ⟨tracker', houtside, hspans⟩ := hnext.closes (rfl : (0x5c : UInt8) = _) start (pos + 1)
    refine ⟨tracker', houtside, fun more => ?_⟩
    exact (h.spans_cons start pos _ hnext.inOsc).trans (hspans more)

theorem InBody.spans_pending (h : InBody true tracker) (bel : Bool) (start pos : Nat)
    (more : List UInt8) :
    ∃ ending spans, trackerScanner.spans tracker start pos (terminator bel ++ more) =
      ⟨start, ending⟩ :: spans ∧ ending ≠ .terminated (pos + (terminator bel).length) := by
  have hlater {pending : Bool} {tracker : Osc9Tracker} (h : InBody pending tracker) (pos : Nat)
      (more : List UInt8) : ∃ ending spans,
        trackerScanner.spans tracker start pos more = ⟨start, ending⟩ :: spans ∧
          ending ≠ .terminated pos := by
    obtain ⟨ending, spans, heq, hstop⟩ :=
      spans_of_inOsc h.inOsc start pos (fun _ => Nat.one_pos) more
    exact ⟨ending, spans, heq, fun hend => lt_irrefl pos (hstop pos hend)⟩
  cases bel with
  | true =>
    rcases h.step (by decide : (0x07 : UInt8) ≠ _) start pos more with
      ⟨hnext, -, hspans⟩ | ⟨stop, spans, hspans⟩
    · obtain ⟨ending, spans, heq, hend⟩ := hlater hnext (pos + 1) more
      exact ⟨ending, spans, hspans.trans heq, hend⟩
    · exact ⟨_, spans, hspans, nofun⟩
  | false =>
    rcases h.step (by decide : (0x1b : UInt8) ≠ _) start pos (0x5c :: more) with
      ⟨hnext, -, hspans⟩ | ⟨stop, spans, hspans⟩
    · rcases hnext.step (by decide : (0x5c : UInt8) ≠ _) start (pos + 1) more with
        ⟨hlast, -, hspans'⟩ | ⟨stop, spans, hspans'⟩
      · obtain ⟨ending, spans, heq, hend⟩ := hlater hlast (pos + 2) more
        exact ⟨ending, spans, hspans.trans (hspans'.trans heq), hend⟩
      · exact ⟨_, spans, hspans.trans hspans', nofun⟩
    · exact ⟨_, spans, hspans, nofun⟩

theorem Outside.spans_start (h : Outside escaped tracker) (start pos : Nat) :
    ∃ tracker', InBody false tracker' ∧ tracker'.body = [] ∧
      ∀ body, trackerScanner.spans tracker start pos (0x1b :: 0x5d :: body) =
        trackerScanner.spans tracker' pos (pos + 2) body := by
  have hescape : Outside true (tracker.observeByte 0x1b) :=
    h.step fun hopen => absurd hopen.2 (by decide : (0x1b : UInt8) ≠ 0x5d)
  obtain ⟨hstate, hbody⟩ := hescape.opens
  refine ⟨(tracker.observeByte 0x1b).observeByte 0x5d, ⟨hstate, by simp [hbody]⟩, hbody,
    fun body => ?_⟩
  rw [h.spans_cons, hescape.spans_cons, Nat.add_sub_cancel]

end Tracker

section Cut

variable {rest : VtRest}

theorem le_start_of_mem_cutSpans {pos : Nat} {items : List VtItem} {span : OscSpan}
    (h : span ∈ cutSpans rest pos items) : pos ≤ span.start := by
  induction items generalizing pos with
  | nil =>
    unfold cutSpans at h
    split at h
    · rw [List.mem_singleton.mp h]
    · exact absurd h List.not_mem_nil
  | cons item items ih =>
    unfold cutSpans at h
    dsimp only at h
    split at h
    · rcases List.mem_cons.mp h with rfl | hmore
      · exact le_rfl
      · exact (Nat.le_add_right _ _).trans (ih hmore)
    · exact (Nat.le_add_right _ _).trans (ih h)

theorem ne_cutSpans {pos : Nat} {items : List VtItem} {span : OscSpan} {spans : List OscSpan}
    (h : span.start < pos) : span :: spans ≠ cutSpans rest pos items := by
  intro heq
  have hmem : span ∈ cutSpans rest pos items := heq ▸ List.mem_cons_self
  exact absurd (le_start_of_mem_cutSpans hmem) (not_le.mpr h)

theorem escapedAfter_eq (escaped : Bool) {bytes : List UInt8} (h : bytes ≠ []) :
    escapedAfter escaped bytes = decide (bytes.getLast? = some 0x1b) := by
  rcases List.eq_nil_or_concat bytes with rfl | ⟨front, last, rfl⟩
  · exact absurd rfl h
  · rw [List.concat_eq_append, escapedAfter, List.foldl_append, List.getLast?_concat]
    simp [BEq.beq]

theorem VtItem.bytes_ne_nil (item : VtItem) : item.bytes ≠ [] := by
  cases item <;> exact List.cons_ne_nil _ _

theorem Outside.spans_nil {escaped : Bool} {tracker : Osc9Tracker}
    (h : Outside escaped tracker) (start pos : Nat) :
    trackerScanner.spans tracker start pos [] = [] := by
  rw [Scanner.spans, h.not_inOsc]
  rfl

theorem spans_rest (hopen : rest.IsOpen) {escaped : Bool} {tracker : Osc9Tracker}
    (h : Outside escaped tracker) (start pos : Nat) :
    trackerScanner.spans tracker start pos rest.bytes = cutSpans rest pos [] ↔
      rest.IsCalm escaped := by
  have hother (hcalm : rest.IsCalm escaped ↔ Quiet escaped rest.bytes)
      (hcut : cutSpans rest pos [] = []) :
      trackerScanner.spans tracker start pos rest.bytes = cutSpans rest pos [] ↔
        rest.IsCalm escaped := by
    rw [hcalm, hcut, ← List.append_nil rest.bytes]
    by_cases hquiet : Quiet escaped rest.bytes
    · obtain ⟨tracker', start', houtside, hspans⟩ := h.spans_quiet hquiet start pos
      rw [hspans, houtside.spans_nil, List.append_nil]
      exact iff_of_true rfl hquiet
    · obtain ⟨span, spans, heq, -⟩ := h.spans_not_quiet hquiet start pos []
      rw [heq, List.append_nil]
      exact iff_of_false (List.cons_ne_nil _ _) hquiet
  cases rest with
  | nothing => exact hother Iff.rfl rfl
  | escape => exact hother Iff.rfl rfl
  | csi params => exact hother Iff.rfl rfl
  | string kind payload => exact hother Iff.rfl rfl
  | osc body =>
    obtain ⟨tracker', hin, hempty, hspans⟩ := h.spans_start start pos
    have hbody : 0x07 ∉ body ∧ ¬terminator false <:+: if false then 0x1b :: body else body :=
      ⟨hopen.1 rfl, hopen.2⟩
    have htotal : tracker'.body.length + false.toNat + body.length = body.length := by
      rw [hempty, List.length_nil, Nat.zero_add]
      exact Nat.zero_add _
    have hstart : trackerScanner.spans tracker start pos (VtRest.osc body).bytes =
        trackerScanner.spans tracker' pos (pos + 2) (body ++ []) := by
      rw [List.append_nil]
      exact hspans body
    rw [hstart, VtRest.IsCalm]
    by_cases hroom : body.length ≤ 4096 + (pendingEscape false body).toNat
    · obtain ⟨last, hlast, -, hkept⟩ :=
        hin.spans_kept hbody (htotal.le.trans hroom) pos (pos + 2)
      rw [hkept, Scanner.spans, if_pos hlast.inOsc]
      exact iff_of_true rfl hroom
    · obtain ⟨stop, spans, hdropped⟩ :=
        hin.spans_dropped hbody ((not_le.mp hroom).trans_eq htotal.symm) pos (pos + 2) []
      rw [hdropped]
      exact iff_of_false (by simp [cutSpans]) hroom

/-- The tracker sees a whole sequence as it is just if it has room for the body and no
escape is left over at its end. -/
theorem spans_osc {body : List UInt8} (hbody : Unended true body) (bel : Bool) {escaped : Bool}
    {tracker : Osc9Tracker} (h : Outside escaped tracker) (start pos : Nat) :
    if pendingEscape false body = false ∧ body.length ≤ 4096 then
      ∃ tracker', Outside false tracker' ∧ ∀ more,
        trackerScanner.spans tracker start pos ((VtItem.osc body bel).bytes ++ more) =
          ⟨pos, .terminated (pos + (VtItem.osc body bel).bytes.length)⟩ ::
            trackerScanner.spans tracker' pos (pos + (VtItem.osc body bel).bytes.length) more
    else
      ∀ more, ∃ ending spans,
        trackerScanner.spans tracker start pos ((VtItem.osc body bel).bytes ++ more) =
          ⟨pos, ending⟩ :: spans ∧
        ending ≠ .terminated (pos + (VtItem.osc body bel).bytes.length) := by
  obtain ⟨first, hin, hempty, hspans⟩ := h.spans_start start pos
  have hended : 0x07 ∉ body ∧ ¬terminator false <:+: if false then 0x1b :: body else body :=
    ⟨hbody.1 rfl, hbody.2⟩
  have htotal : first.body.length + false.toNat + body.length = body.length := by
    rw [hempty, List.length_nil, Nat.zero_add]
    exact Nat.zero_add _
  have hstart (more : List UInt8) :
      trackerScanner.spans tracker start pos ((VtItem.osc body bel).bytes ++ more) =
        trackerScanner.spans first pos (pos + 2) (body ++ (terminator bel ++ more)) := by
    rw [← hspans, ← List.append_assoc]
    rfl
  have hstop : pos + (VtItem.osc body bel).bytes.length =
      pos + 2 + body.length + (terminator bel).length := by
    rw [VtItem.bytes, List.length_cons, List.length_cons, List.length_append]
    omega
  rw [hstop]
  by_cases hroom : body.length ≤ 4096 + (pendingEscape false body).toNat
  · obtain ⟨last, hlast, -, hkept⟩ :=
      hin.spans_kept hended (htotal.le.trans hroom) pos (pos + 2)
    cases hpending : pendingEscape false body with
    | false =>
      rw [hpending] at hlast hroom
      rw [if_pos ⟨rfl, hroom⟩]
      obtain ⟨after, hafter, hclosed⟩ :=
        hlast.spans_terminator bel pos (pos + 2 + body.length)
      refine ⟨after, hafter, fun more => ?_⟩
      rw [hstart, hkept, hclosed]
    | true =>
      rw [hpending] at hlast
      rw [if_neg fun hand => Bool.false_ne_true hand.1.symm]
      intro more
      obtain ⟨ending, spans, heq, hend⟩ :=
        hlast.spans_pending bel pos (pos + 2 + body.length) more
      exact ⟨ending, spans, (hstart more).trans ((hkept _).trans heq), hend⟩
  · rw [if_neg fun hand => hroom (hand.2.trans (Nat.le_add_right _ _))]
    intro more
    obtain ⟨stop, spans, hdropped⟩ := hin.spans_dropped hended
      ((not_le.mp hroom).trans_eq htotal.symm) pos (pos + 2) (terminator bel ++ more)
    exact ⟨_, spans, (hstart more).trans hdropped, nofun⟩

theorem spans_cut_iff (hopen : rest.IsOpen) (items : List VtItem)
    (hwhole : ∀ item ∈ items, item.IsWhole) {escaped : Bool} {tracker : Osc9Tracker}
    (h : Outside escaped tracker) (start pos : Nat) :
    trackerScanner.spans tracker start pos (items.flatMap VtItem.bytes ++ rest.bytes) =
        cutSpans rest pos items ↔ IsCalm rest escaped items := by
  induction items generalizing escaped tracker start pos with
  | nil => exact spans_rest hopen h start pos
  | cons item items ih =>
    rw [List.forall_mem_cons] at hwhole
    rw [List.flatMap_cons, List.append_assoc, IsCalm]
    have hother (hcalm : item.IsCalm escaped ↔ Quiet escaped item.bytes)
        (hcut : cutSpans rest pos (item :: items) =
          cutSpans rest (pos + item.bytes.length) items) :
        trackerScanner.spans tracker start pos (item.bytes ++
            (items.flatMap VtItem.bytes ++ rest.bytes)) = cutSpans rest pos (item :: items) ↔
          item.IsCalm escaped ∧ IsCalm rest (item.bytes.getLast? = some 0x1b) items := by
      rw [hcalm, hcut]
      by_cases hquiet : Quiet escaped item.bytes
      · obtain ⟨tracker', start', houtside, hspans⟩ := h.spans_quiet hquiet start pos
        rw [escapedAfter_eq escaped item.bytes_ne_nil] at houtside
        rw [hspans, ih hwhole.2 houtside]
        exact (and_iff_right hquiet).symm
      · obtain ⟨span, spans, heq, hstart⟩ := h.spans_not_quiet hquiet start pos
          (items.flatMap VtItem.bytes ++ rest.bytes)
        rw [heq]
        exact iff_of_false (ne_cutSpans hstart) fun hand => hquiet hand.1
    cases item with
    | plain byte => exact hother Iff.rfl rfl
    | escape next => exact hother Iff.rfl rfl
    | csi params finalByte => exact hother Iff.rfl rfl
    | string kind payload => exact hother Iff.rfl rfl
    | osc body bel =>
      have hosc := spans_osc hwhole.1 bel h start pos
      have hlast : decide ((VtItem.osc body bel).bytes.getLast? = some 0x1b) = false := by
        have hsplit : (VtItem.osc body bel).bytes =
            (0x1b :: 0x5d :: body) ++ terminator bel := rfl
        rw [hsplit, List.getLast?_append]
        cases bel <;> rfl
      rw [hlast, cutSpans]
      by_cases hcalm : pendingEscape false body = false ∧ body.length ≤ 4096
      · rw [if_pos hcalm] at hosc
        obtain ⟨tracker', houtside, hspans⟩ := hosc
        rw [hspans, List.cons_eq_cons, ih hwhole.2 houtside]
        exact (and_iff_right rfl).trans (and_iff_right hcalm).symm
      · rw [if_neg hcalm] at hosc
        obtain ⟨ending, spans, heq, hend⟩ :=
          hosc (items.flatMap VtItem.bytes ++ rest.bytes)
        rw [heq, List.cons_eq_cons]
        apply iff_of_false
        · rintro ⟨hspan, -⟩
          exact hend (OscSpan.mk.inj hspan).2
        · exact fun hand => hcalm hand.1

end Cut

end HerdrWebui.Terminal
