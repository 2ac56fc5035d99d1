import HerdrWebui.Data.Utf8Lossy
import HerdrWebui.Terminal.VtText

/-!
The tracker of OSC sequences, which reads the raw bytes of a terminal as they arrive, and
where it and the renderer see such a sequence.
-/

namespace HerdrWebui.Terminal

inductive Osc9State where
  | ground
  | escape
  | oscBody
  | oscEscape
  deriving DecidableEq

structure Osc9Tracker where
  state : Osc9State := .ground
  body : List UInt8 := []
  latestPayload : Option String := none
  latestTitle : Option String := none
  deriving DecidableEq

/-- The command before the first `;` and the payload behind it. -/
def parseOscBody (body : List UInt8) : Option (List UInt8 × List UInt8) :=
  (body.idxOf? 0x3b).map fun sep => (body.take sep, body.drop (sep + 1))

/-- The text of a payload that is recorded, if it has one. -/
def sanitizedPayload (payload : List UInt8) : Option String :=
  let sanitized := (fromUtf8Lossy payload).toList.filter (!isControl ·)
  if sanitized = [] then none else some (String.ofList sanitized)

namespace Osc9Tracker

def finalize (tracker : Osc9Tracker) : Osc9Tracker :=
  let recorded :=
    match parseOscBody tracker.body with
    | none => tracker
    | some (command, payload) =>
      if command = [0x39] then
        { tracker with latestPayload := (sanitizedPayload payload).or tracker.latestPayload }
      else if command = [0x30] ∨ command = [0x32] then
        { tracker with latestTitle := (sanitizedPayload payload).or tracker.latestTitle }
      else tracker
  { recorded with body := [] }

/-- The state behind a byte, before its body is measured. -/
def transition (tracker : Osc9Tracker) (byte : UInt8) : Osc9Tracker :=
  match tracker.state with
  | .ground => if byte = 0x1b then { tracker with state := .escape } else tracker
  | .escape =>
    if byte = 0x5d then { tracker with body := [], state := .oscBody }
    else if byte = 0x1b then { tracker with state := .escape }
    else { tracker with state := .ground }
  | .oscBody =>
    if byte = 0x07 then { tracker.finalize with state := .ground }
    else if byte = 0x1b then { tracker with state := .oscEscape }
    else { tracker with body := tracker.body ++ [byte] }
  | .oscEscape =>
    if byte = 0x5c then { tracker.finalize with state := .ground }
    else { tracker with body := tracker.body ++ [0x1b, byte], state := .oscBody }

/-- A body that grows too long is given up. -/
def observeByte (tracker : Osc9Tracker) (byte : UInt8) : Osc9Tracker :=
  let tracker := tracker.transition byte
  if tracker.body.length > 4096 then { tracker with body := [], state := .ground } else tracker

def observe (tracker : Osc9Tracker) (bytes : List UInt8) : Osc9Tracker :=
  bytes.foldl observeByte tracker

theorem observeByte_of_le {tracker : Osc9Tracker} {byte : UInt8}
    (h : (tracker.transition byte).body.length ≤ 4096) :
    tracker.observeByte byte = tracker.transition byte := if_neg (not_lt.mpr h)

theorem observeByte_of_lt {tracker : Osc9Tracker} {byte : UInt8}
    (h : 4096 < (tracker.transition byte).body.length) :
    tracker.observeByte byte = { tracker.transition byte with body := [], state := .ground } :=
  if_pos h

theorem foldl_observe (tracker : Osc9Tracker) (chunks : List (List UInt8)) :
    chunks.foldl observe tracker = tracker.observe chunks.flatten := by
  induction chunks generalizing tracker with
  | nil => rfl
  | cons chunk chunks ih =>
    rw [List.foldl_cons, ih, List.flatten_cons]
    unfold observe
    rw [List.foldl_append]

end Osc9Tracker

inductive OscEnd where
  | terminated (stop : Nat)
  | abandoned (stop : Nat)
  | unfinished
  deriving DecidableEq

/-- A sequence, from its escape up to behind its last byte. -/
structure OscSpan where
  start : Nat
  ending : OscEnd
  deriving DecidableEq

/-- What reads a stream one symbol at a time: when it is inside a sequence, and what
symbol ends that. -/
structure Scanner (σ α : Type) where
  step : σ → α → σ
  inOsc : σ → Bool
  closes : σ → α → Bool
  size : α → Nat

/-- The sequences a scanner is inside of on its way. The escape in front of the symbol
that opens one is a byte of its own. -/
def Scanner.spans {σ α : Type} (scanner : Scanner σ α) (state : σ) (start pos : Nat) :
    List α → List OscSpan
  | [] => if scanner.inOsc state then [⟨start, .unfinished⟩] else []
  | symbol :: symbols =>
    let next := scanner.step state symbol
    let stop := pos + scanner.size symbol
    if scanner.inOsc state then
      if scanner.inOsc next then scanner.spans next start stop symbols
      else
        ⟨start, if scanner.closes state symbol then .terminated stop else .abandoned stop⟩ ::
          scanner.spans next start stop symbols
    else scanner.spans next (pos - 1) stop symbols

def trackerScanner : Scanner Osc9Tracker UInt8 where
  step := Osc9Tracker.observeByte
  inOsc tracker := tracker.state = .oscBody ∨ tracker.state = .oscEscape
  closes tracker byte :=
    tracker.state = .oscBody ∧ byte = 0x07 ∨ tracker.state = .oscEscape ∧ byte = 0x5c
  size _ := 1

def trackerSpans (bytes : List UInt8) : List OscSpan := trackerScanner.spans {} 0 0 bytes

/-- How many characters a token takes off the output. -/
def VtToken.length : VtToken → Nat
  | .csi sequence => sequence.length + 2
  | .osc body => body.length + 2
  | .stringSequence payload => payload.length + 2
  | .escape next => next.toList.length + 1
  | .char _ => 1

/-- What is skipped of a sequence has a terminator, or the output ends in it. -/
def oscTerminated (body : List Char) : Bool :=
  '\x07' ∈ body ∨ ['\x1b', '\\'] <:+: body

/-- The sequences that are skipped, by the sizes of the characters. -/
def tokenSpans (pos : Nat) (sizes : List Nat) : List VtToken → List OscSpan
  | [] => []
  | token :: tokens =>
    let stop := pos + (sizes.take token.length).sum
    let rest := tokenSpans stop (sizes.drop token.length) tokens
    match token with
    | .osc body =>
      ⟨pos, if oscTerminated body then .terminated stop else .unfinished⟩ :: rest
    | _ => rest

theorem tokenSpans_cons (token : VtToken) (h : ∀ body, token ≠ .osc body) (pos : Nat)
    (sizes : List Nat) (tokens : List VtToken) :
    tokenSpans pos sizes (token :: tokens) =
      tokenSpans (pos + (sizes.take token.length).sum) (sizes.drop token.length) tokens := by
  cases token with
  | osc body => exact absurd rfl (h body)
  | csi sequence => rfl
  | stringSequence payload => rfl
  | escape next => rfl
  | char ch => rfl

/-- What the renderer hides as OSC sequences, of the bytes that it is given. -/
def rendererSpans (bytes : List UInt8) : List OscSpan :=
  tokenSpans 0 ((lossyPieces bytes).map (·.2.length)) (vtTokens ((lossyPieces bytes).map (·.1)))

/-- The tracker and the renderer see the same sequences in a stream, and the tracker is
left the same by all its chunks. -/
def OscAgrees (bytes : List UInt8) : Prop :=
  trackerSpans bytes = rendererSpans bytes ∧
    ∀ chunks : List (List UInt8), chunks.flatten = bytes →
      chunks.foldl Osc9Tracker.observe {} = Osc9Tracker.observe {} bytes

section Spans

variable {σ α : Type} {scanner : Scanner σ α}

theorem spans_of_inOsc {state : σ} (h : scanner.inOsc state = true) (start pos : Nat)
    (hsize : ∀ symbol, 0 < scanner.size symbol) (symbols : List α) :
    ∃ ending spans, scanner.spans state start pos symbols = ⟨start, ending⟩ :: spans ∧
      ∀ stop, ending = .terminated stop → pos < stop := by
  induction symbols generalizing state pos with
  | nil => exact ⟨.unfinished, [], by rw [Scanner.spans, if_pos h], fun stop heq => nomatch heq⟩
  | cons symbol symbols ih =>
    have hpos := hsize symbol
    rw [Scanner.spans, if_pos h]
    by_cases hnext : scanner.inOsc (scanner.step state symbol) = true
    · rw [if_pos hnext]
      obtain ⟨ending, spans, heq, hstop⟩ := ih hnext (pos + scanner.size symbol)
      exact ⟨ending, spans, heq, fun stop hend =>
        (Nat.lt_add_of_pos_right hpos).trans (hstop stop hend)⟩
    · rw [if_neg hnext]
      refine ⟨_, _, rfl, fun stop hend => ?_⟩
      split at hend
      · cases hend
        omega
      · cases hend

theorem spans_start (state : σ) (h : scanner.inOsc state = false) (start start' pos : Nat)
    (symbols : List α) :
    scanner.spans state start pos symbols = scanner.spans state start' pos symbols := by
  cases symbols with
  | nil => rw [Scanner.spans, Scanner.spans, h, if_neg Bool.false_ne_true,
      if_neg Bool.false_ne_true]
  | cons symbol symbols => rw [Scanner.spans, Scanner.spans, h, if_neg Bool.false_ne_true,
      if_neg Bool.false_ne_true]

theorem spans_opens {state : σ} (h : scanner.inOsc state = false) (symbol : α)
    (start pos : Nat) (symbols : List α) :
    scanner.spans state start pos (symbol :: symbols) =
      scanner.spans (scanner.step state symbol) (pos - 1) (pos + scanner.size symbol) symbols := by
  rw [Scanner.spans, h, if_neg Bool.false_ne_true]

theorem spans_outside {state : σ} {symbol : α} (h : scanner.inOsc state = false)
    (hnext : scanner.inOsc (scanner.step state symbol) = false) (start start' pos : Nat)
    (symbols : List α) :
    scanner.spans state start pos (symbol :: symbols) =
      scanner.spans (scanner.step state symbol) start' (pos + scanner.size symbol) symbols := by
  rw [spans_opens h]
  exact spans_start _ hnext _ _ _ _

theorem spans_inside {state : σ} {symbol : α} (h : scanner.inOsc state = true)
    (hnext : scanner.inOsc (scanner.step state symbol) = true) (start pos : Nat)
    (symbols : List α) :
    scanner.spans state start pos (symbol :: symbols) =
      scanner.spans (scanner.step state symbol) start (pos + scanner.size symbol) symbols := by
  rw [Scanner.spans, if_pos h]
  exact if_pos hnext

theorem spans_closes {state : σ} {symbol : α} (h : scanner.inOsc state = true)
    (hnext : scanner.inOsc (scanner.step state symbol) = false)
    (hcloses : scanner.closes state symbol = true) (start start' pos : Nat)
    (symbols : List α) :
    scanner.spans state start pos (symbol :: symbols) =
      ⟨start, .terminated (pos + scanner.size symbol)⟩ ::
        scanner.spans (scanner.step state symbol) start' (pos + scanner.size symbol) symbols := by
  rw [Scanner.spans, if_pos h, hcloses, hnext, if_neg Bool.false_ne_true, if_pos rfl,
    spans_start _ hnext start start']

end Spans

end HerdrWebui.Terminal
