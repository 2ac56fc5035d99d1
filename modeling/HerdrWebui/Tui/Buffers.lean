import HerdrWebui.Data.Utf8Lossy
import HerdrWebui.Terminal.StyledText
import HerdrWebui.Tui.Selection

/-!
The lines of the selected pane as the interface holds them (`tui/mod.rs`,
`tui/lens.rs`): the tail of the last read, the deeper history a scroll fetches,
the raw output of an attached terminal, and the reading lens over them.

How a terminal's output becomes lines is a parameter here.
-/

namespace HerdrWebui.Tui

open Terminal (TuiTextSpan)

/-- `strip_ansi_lossy` with carriage returns dropped, and
`terminal_output_styled_lines_for_width`. -/
structure TerminalText where
  stripAnsiLossy : String → String
  styledLinesForWidth : List Char → Nat → List (List TuiTextSpan)

/-- What `pane.read` answers is the text to show. -/
def readText (value : Json) : String :=
  ((((value.get "read").bind (·.get "text")).bind Json.asStr).or (value.getStr "text")).getD ""

structure LensState where
  active : Bool
  follow : Bool
  unread : Bool
  scrollUp : Nat
  lastLen : Nat
  deriving DecidableEq

namespace LensState

/-- `LensState::default`. -/
def default : LensState := ⟨false, false, false, 0, 0⟩

def «open» (_ : LensState) : LensState := ⟨true, true, false, 0, 0⟩

def close (_ : LensState) : LensState := ⟨false, true, false, 0, 0⟩

def toggle (lens : LensState) : LensState := if lens.active then lens.close else lens.open

def observeLen (len : Nat) (lens : LensState) : LensState :=
  { lens with
    unread := lens.unread || (lens.active && !lens.follow && decide (lens.lastLen < len))
    lastLen := len }

def scrollLines (delta len : Nat) (lens : LensState) : LensState :=
  { lens with follow := false, scrollUp := min (lens.scrollUp + delta) (len - 1) }

def scrollDown (delta : Nat) (lens : LensState) : LensState :=
  if lens.scrollUp - delta = 0 then
    { lens with scrollUp := 0, follow := true, unread := false }
  else { lens with scrollUp := lens.scrollUp - delta }

end LensState

def tailLines : Nat := 240
def paneHistoryStartLines : Nat := 2000
def paneHistoryMaxLines : Nat := 40000

structure PaneBuffers where
  paneTail : List String
  paneTailStyles : List (List TuiTextSpan)
  paneScroll : Nat
  paneHistory : List String
  paneBuffersPaneId : Option String
  paneHistoryExhausted : Bool
  lens : LensState

namespace PaneBuffers

/-- `pane_scrollback_lines`. -/
def scrollback (b : PaneBuffers) : List String :=
  if b.paneHistory = [] then b.paneTail else b.paneHistory

def syncHistorySuffix (b : PaneBuffers) : PaneBuffers :=
  let synced :=
    if b.paneTail.length < b.paneHistory.length then
      { b with
        paneHistory :=
          b.paneHistory.take (b.paneHistory.length - b.paneTail.length) ++ b.paneTail }
    else b
  { synced with lens := synced.lens.observeLen synced.scrollback.length }

/-- `set_pane_tail_from_text`. -/
def setTailFromText (text : String) (b : PaneBuffers) : PaneBuffers :=
  let tail := (lines text).drop ((lines text).length - tailLines)
  syncHistorySuffix
    { b with paneTail := tail, paneTailStyles := List.replicate tail.length [] }

/-- `set_pane_tail_from_styled_lines`. -/
def setTailFromStyledLines (styled : List (List TuiTextSpan)) (b : PaneBuffers) :
    PaneBuffers :=
  let styles := styled.drop (styled.length - tailLines)
  syncHistorySuffix
    { b with
      paneTailStyles := styles
      paneTail := styles.map fun line => String.ofList (line.flatMap (·.text)) }

def cleared (b : PaneBuffers) : PaneBuffers :=
  { b with
    paneTail := [], paneTailStyles := [], paneScroll := 0, paneHistory := []
    paneHistoryExhausted := false, paneBuffersPaneId := none }

/-- The buffers belong to a pane: another pane's offset and history are dropped. -/
def switchedTo (paneId : String) (b : PaneBuffers) : PaneBuffers :=
  if b.paneBuffersPaneId = some paneId then b
  else
    { b with
      paneScroll := 0, paneHistory := [], paneHistoryExhausted := false
      paneBuffersPaneId := some paneId }

/-- `deepen_pane_history`, with the answer of its read; none where it gives up. -/
def deepen (text : TerminalText) (read : Option Json) (b : PaneBuffers) :
    PaneBuffers × Nat :=
  match read with
  | none => (b, 0)
  | some value =>
    let want :=
      if b.paneHistory = [] then paneHistoryStartLines
      else min (b.paneHistory.length * 2) paneHistoryMaxLines
    let all := lines (text.stripAnsiLossy (readText value))
    let held := all.drop (all.length - want)
    ({ b with
        paneHistory := held
        paneHistoryExhausted :=
          b.paneHistoryExhausted || decide (held.length < want) ||
            decide (paneHistoryMaxLines ≤ held.length) },
      held.length - b.scrollback.length)

/-- `scroll_pane_up`. The reads answer one deep fetch after the other; where no
further fetch is possible the list is not looked at. -/
def scrollPaneUp (text : TerminalText) (hasPane : Bool) :
    List (Option Json) → Nat → PaneBuffers → PaneBuffers
  | reads, delta, b =>
    let max := b.scrollback.length - 1
    if b.paneScroll + delta ≤ max then { b with paneScroll := b.paneScroll + delta }
    else
      let top := { b with paneScroll := max }
      if b.paneHistoryExhausted || !hasPane then top
      else
        match reads with
        | [] => top
        | read :: reads =>
          let (deeper, grew) := top.deepen text read
          if grew = 0 then deeper
          else scrollPaneUp text hasPane reads (delta - (max - b.paneScroll)) deeper

def scrollPaneDown (delta : Nat) (b : PaneBuffers) : PaneBuffers :=
  { b with paneScroll := b.paneScroll - delta }

def scrollLensUp (text : TerminalText) (hasPane : Bool) :
    List (Option Json) → Nat → PaneBuffers → PaneBuffers
  | reads, delta, b =>
    let len := b.scrollback.length
    if b.lens.scrollUp + delta ≤ len - 1 then
      { b with lens := (b.lens.scrollLines delta len).observeLen len }
    else
      let advance := (len - 1) - b.lens.scrollUp
      let top := { b with lens := b.lens.scrollLines advance len }
      if b.paneHistoryExhausted || !hasPane then
        { top with lens := top.lens.observeLen len }
      else
        match reads with
        | [] => { top with lens := top.lens.observeLen len }
        | read :: reads =>
          let (deeper, grew) := top.deepen text read
          if grew = 0 then { deeper with lens := deeper.lens.observeLen len }
          else scrollLensUp text hasPane reads (delta - advance) deeper

end PaneBuffers

def terminalRawBufferBytes : Nat := 512 * 1024

/-- Characters from the first whose offset is at least `excess` bytes. -/
def dropBytes : Nat → List Char → List Char
  | 0, chars => chars
  | _, [] => []
  | excess + 1, c :: chars => dropBytes (excess + 1 - c.utf8Size) chars

def trimTerminalRawOutput (output : List Char) : List Char :=
  dropBytes ((output.map (·.utf8Size)).sum - terminalRawBufferBytes) output

structure TerminalOutput where
  width : Nat
  full : Bool
  bytes : List UInt8

/-- `terminal_raw_output` and `terminal_raw_terminal_id`. -/
structure RawOutput where
  output : List Char
  terminalId : Option String
  deriving DecidableEq

namespace RawOutput

/-- `reset_terminal_output_buffer`. -/
def empty : RawOutput := ⟨[], none⟩

/-- The buffer part of `ingest_terminal_output`. -/
def ingested (selected : Option String) (output : TerminalOutput) (raw : RawOutput) :
    RawOutput :=
  let kept :=
    if output.full ∨ raw.terminalId ≠ selected then ⟨[], selected⟩ else raw
  { kept with
    output :=
      trimTerminalRawOutput (kept.output ++ (fromUtf8Lossy output.bytes).toList) }

end RawOutput

end HerdrWebui.Tui
