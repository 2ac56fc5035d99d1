import HerdrWebui.Concurrency.System
import HerdrWebui.Data.Utf8Text

/-!
The inline image filter in front of the browser terminal. The terminal cannot show raster
images, so iTerm2, Kitty and SIXEL sequences are replaced by a line of text. Output comes in
chunks of bytes. A chunk with no sign of an image goes to the terminal as it is, and the
terminal decodes what it is given as one stream; any other chunk is decoded on its own, and
what may be the start of a sequence is held back for the next one.

Texts are lists of characters. Positions behind a character outside the basic plane differ
from those of the source by one, and every position that is compared with a number stands
behind ASCII only.
-/

namespace HerdrWebui.Terminal

open Concurrency

/-- The three protocols whose sequences are replaced. -/
inductive ImageProtocol where
  | iterm2
  | kitty
  | sixel
  deriving DecidableEq

def ImageProtocol.label : ImageProtocol → String
  | iterm2 => "iTerm2"
  | kitty => "Kitty"
  | sixel => "SIXEL"

def iterm2Start : List Char :=
  ['\x1b', ']', '1', '3', '3', '7', ';', 'F', 'i', 'l', 'e', '=']

def kittyStart : List Char := ['\x1b', '_', 'G']

def sixelStart : List Char := ['\x1b', 'P']

def inlineImageStarts : List (List Char) := [iterm2Start, kittyStart, sixelStart]

def inlineImageSt : List Char := ['\x1b', '\\']

def bel : List Char := ['\x07']

/-- Index and length of what ends an operating system command. -/
def endOfOscSequence (text : List Char) : Option (Nat × Nat) :=
  match indexOf bel text, indexOf inlineImageSt text with
  | none, none => none
  | none, some st => some (st, inlineImageSt.length)
  | some bel, none => some (bel, 1)
  | some bel, some st => if bel < st then some (bel, 1) else some (st, inlineImageSt.length)

/-- The better of the best so far and another marker. -/
def closerStart (text : List Char) (best : Option (Nat × List Char)) (marker : List Char) :
    Option (Nat × List Char) :=
  match indexOf marker text, best with
  | none, best => best
  | some index, none => some (index, marker)
  | some index, some best => if index < best.1 then some (index, marker) else some best

/-- The first marker of a text and where it stands. -/
def findNextInlineImageStart (text : List Char) : Option (Nat × List Char) :=
  inlineImageStarts.foldl (closerStart text) none

def pendingPrefixGo (text : List Char) : Nat → Nat
  | 0 => 0
  | length + 1 =>
    let suffix := text.drop (text.length - (length + 1))
    if inlineImageStarts.any (suffix.isPrefixOf ·) then length + 1
    else pendingPrefixGo text length

/-- How many of the last characters may be the start of a marker. -/
def pendingInlineImagePrefixLength (text : List Char) : Nat :=
  let maxLength := inlineImageStarts.foldl (fun max marker => Nat.max max marker.length) 0
  pendingPrefixGo text (min (maxLength - 1) text.length)

/-- The white space of the scripting language. -/
def isScriptSpace (c : Char) : Bool :=
  (isWhitespace c && c != '\u0085') || c == '\ufeff'

def utf16Length (text : List Char) : Nat := (text.map fun c => if c.toNat < 0x10000 then 1 else 2).sum

def approxBase64Bytes (value : List Char) : Nat :=
  let cleaned := value.filter (!isScriptSpace ·)
  if cleaned = [] then 0
  else
    let padding :=
      if ['=', '='].isSuffixOf cleaned then 2 else if ['='].isSuffixOf cleaned then 1 else 0
    utf16Length cleaned * 3 / 4 - padding

/-- Megabytes have one digit behind the point, halves are rounded up. -/
def formatByteSize (value : Nat) : String :=
  if 1024 * 1024 ≤ value then
    let tenths := (value * 20 + 1024 * 1024) / (2 * 1024 * 1024)
    s!"{tenths / 10}.{tenths % 10} MB"
  else if 1024 ≤ value then s!"{(value + 512) / 1024} KB"
  else s!"{value} B"

def payloadDetail (payload : List Char) : String :=
  if payload = [] then "" else s!", payload {formatByteSize (approxBase64Bytes payload)}"

def summaryDetail (protocol : ImageProtocol) (sequence : List Char) : String :=
  match protocol with
  | .iterm2 =>
    match indexOf [':'] sequence with
    | none => ""
    | some colon =>
      payloadDetail
        ((sequence.drop (colon + 1)).rdropWhile fun c => c ∈ ['\x07', '\x1b', '\\'])
  | .kitty =>
    let fields := (sequence.drop 3).take (sequence.length - 5)
    payloadDetail (fields.rtakeWhile (· ≠ ';'))
  | .sixel => s!", {formatByteSize (utf16Length sequence)} escape data"

def terminalImageProtocolSummary (protocol : ImageProtocol) (sequence : List Char) :
    List Char :=
  (s!"\r\n[inline image omitted: {protocol.label} graphics{summaryDetail protocol sequence}" ++
    "; wterm does not render raster image protocols yet. Use chafa --symbols=braille " ++
    "--colors=full for text previews.]\r\n").toList

/-- Parameters, and then a `q` not too far behind. -/
def isSixelSequence (sequence : List Char) : Bool :=
  sixelStart.isPrefixOf sequence && inlineImageSt.isSuffixOf sequence &&
    match indexOf ['q'] (sequence.drop 2) with
    | none => false
    | some index =>
      decide (index + 2 ≤ 40) &&
        ((sequence.drop 2).take index).all fun c => c.isDigit || c == ';' || c == '?'

/-- Where the sequence that starts with a marker stops. -/
def sequenceStop (marker tail : List Char) : Option Nat :=
  if marker = iterm2Start then (endOfOscSequence tail).map fun stop => stop.1 + stop.2
  else (indexOf inlineImageSt tail).map (· + inlineImageSt.length)

/-- A core that draws Kitty graphics is given them, and not every device control string is an
image. -/
def shownSequence (allowKittyGraphics : Bool) (marker sequence : List Char) : List Char :=
  if marker = iterm2Start then terminalImageProtocolSummary .iterm2 sequence
  else if marker = kittyStart then
    if allowKittyGraphics then sequence else terminalImageProtocolSummary .kitty sequence
  else if isSixelSequence sequence then terminalImageProtocolSummary .sixel sequence
  else sequence

theorem sequenceStop_pos {marker tail : List Char} {stop : Nat}
    (h : sequenceStop marker tail = some stop) : 0 < stop := by
  unfold sequenceStop endOfOscSequence at h
  split at h
  · split at h
    · simp at h
    · simp [inlineImageSt] at h
      omega
    · simp at h
      omega
    · split at h
      · simp at h
        omega
      · simp [inlineImageSt] at h
        omega
  · simp [inlineImageSt] at h
    omega

/-- The loop from a cursor on: what it puts out, and what it leaves in the buffer. -/
def filterLoop (allowKittyGraphics : Bool) : List Char → List Char × List Char
  | [] => ([], [])
  | c :: rest =>
    match findNextInlineImageStart (c :: rest) with
    | none =>
      let hold := pendingInlineImagePrefixLength (c :: rest)
      ((c :: rest).take ((c :: rest).length - hold),
        (c :: rest).drop ((c :: rest).length - hold))
    | some (index, marker) =>
      match _h : sequenceStop marker ((c :: rest).drop index) with
      | none => ((c :: rest).take index, (c :: rest).drop index)
      | some stop =>
        let more := filterLoop allowKittyGraphics (((c :: rest).drop index).drop stop)
        ((c :: rest).take index ++
          shownSequence allowKittyGraphics marker (((c :: rest).drop index).take stop) ++
          more.1, more.2)
termination_by text => text.length
decreasing_by
  have hpos := sequenceStop_pos _h
  simp only [List.length_drop, List.length_cons]
  omega

/-- What the terminal is written: texts, or the bytes of its output. -/
inductive TerminalData where
  | text (chars : List Char)
  | bytes (data : List UInt8)
  deriving DecidableEq

structure ImageState where
  imageEscapeBuffer : List Char
  allowKittyGraphics : Bool
  deriving DecidableEq

def asciiBytes (value : List Char) : List UInt8 := value.map Char.toUInt8

def inlineImageStartBytes : List (List UInt8) := inlineImageStarts.map asciiBytes

def byteOrderMark : List UInt8 := [0xef, 0xbb, 0xbf]

/-- The decoder of the browser drops a byte order mark in front. -/
def decodeTerminalBytes (data : List UInt8) : List Char :=
  lossyChars (if byteOrderMark.isPrefixOf data then data.drop byteOrderMark.length else data)

def bytesContainNeedle (bytes needle : List UInt8) : Bool :=
  (List.range (bytes.length + 1 - needle.length)).any fun i => needle.isPrefixOf (bytes.drop i)

def bytesEndWithInlineImagePrefix (bytes : List UInt8) : Bool :=
  inlineImageStartBytes.any fun marker =>
    (List.range (min (marker.length - 1) bytes.length)).any fun i =>
      bytes.drop (bytes.length - (i + 1)) == marker.take (i + 1)

def dataMayContainInlineImage (data : TerminalData) (state : ImageState) : Bool :=
  if state.imageEscapeBuffer ≠ [] then true
  else
    match data with
    | .text chars =>
      inlineImageStarts.any (fun start => (indexOf start chars).isSome) ||
        decide (0 < pendingInlineImagePrefixLength chars)
    | .bytes data =>
      inlineImageStartBytes.any (bytesContainNeedle data) || bytesEndWithInlineImagePrefix data

def TerminalData.decoded : TerminalData → List Char
  | text chars => chars
  | bytes data => decodeTerminalBytes data

def filterTerminalImageSequences (data : TerminalData) (state : ImageState) :
    TerminalData × ImageState :=
  if dataMayContainInlineImage data state then
    let filtered := filterLoop state.allowKittyGraphics (state.imageEscapeBuffer ++ data.decoded)
    (.text filtered.1, { state with imageEscapeBuffer := filtered.2 })
  else (data, state)

def terminators (marker : List Char) : List (List Char) :=
  if marker = iterm2Start then [bel, inlineImageSt] else [inlineImageSt]

theorem indexOf_st_iff {text : List Char} {i : Nat} :
    indexOf inlineImageSt text = some i ↔ EndsFirst [inlineImageSt] text (i + 2) :=
  indexOf_eq_some_iff_endsFirst (by decide)

theorem indexOf_bel_iff {text : List Char} {i : Nat} :
    indexOf bel text = some i ↔ EndsFirst [bel] text (i + 1) :=
  indexOf_eq_some_iff_endsFirst (by decide)

theorem le_of_endsFirst {word text : List Char} {n : Nat} (h : EndsFirst [word] text n) :
    word.length ≤ n := by
  obtain ⟨first, hfirst, hend⟩ := h.2.1
  obtain rfl := List.mem_singleton.mp hfirst
  have hlength := hend.length_le
  rw [List.length_take] at hlength
  omega

theorem endsFirst_st {text : List Char} {n : Nat} (h : EndsFirst [inlineImageSt] text n) :
    ∃ i, n = i + 2 ∧ indexOf inlineImageSt text = some i := by
  have hle : 2 ≤ n := le_of_endsFirst h
  refine ⟨n - 2, by omega, indexOf_st_iff.mpr ?_⟩
  rwa [Nat.sub_add_cancel hle]

theorem endsFirst_bel {text : List Char} {n : Nat} (h : EndsFirst [bel] text n) :
    ∃ i, n = i + 1 ∧ indexOf bel text = some i := by
  have hle : 1 ≤ n := le_of_endsFirst h
  refine ⟨n - 1, by omega, indexOf_bel_iff.mpr ?_⟩
  rwa [Nat.sub_add_cancel hle]

theorem bel_ne_st {text : List Char} {i j : Nat} (hbel : indexOf bel text = some i)
    (hst : indexOf inlineImageSt text = some j) : i ≠ j := by
  rintro rfl
  obtain ⟨hbel, -⟩ := (indexOf_eq_some_iff (by decide)).mp hbel
  obtain ⟨hst, -⟩ := (indexOf_eq_some_iff (by decide)).mp hst
  cases hdrop : text.drop i with
  | nil =>
    rw [hdrop] at hbel
    exact absurd (List.prefix_nil.mp hbel) (by decide)
  | cons c rest =>
    rw [hdrop] at hbel hst
    have hc := (List.cons_prefix_cons.mp hbel).1
    have hc' := (List.cons_prefix_cons.mp hst).1
    exact absurd (hc.trans hc'.symm) (by decide)

theorem endsFirst_endOfOscSequence {text : List Char} {stop : Nat × Nat}
    (h : endOfOscSequence text = some stop) :
    EndsFirst [bel, inlineImageSt] text (stop.1 + stop.2) := by
  unfold endOfOscSequence at h
  cases hbel : indexOf bel text with
  | none =>
    have hlater (m : Nat) (hm : EndsFirst [bel] text m) (n : Nat) : n ≤ m := by
      obtain ⟨i, -, hindex⟩ := endsFirst_bel hm
      rw [hbel] at hindex
      cases hindex
    cases hst : indexOf inlineImageSt text with
    | none =>
      rw [hbel, hst] at h
      cases h
    | some st =>
      rw [hbel, hst] at h
      obtain rfl := Option.some.inj h
      exact ((indexOf_st_iff.mp hst).pair fun m hm => hlater m hm _).2
  | some bel =>
    cases hst : indexOf inlineImageSt text with
    | none =>
      rw [hbel, hst] at h
      obtain rfl := Option.some.inj h
      refine ((indexOf_bel_iff.mp hbel).pair fun m hm => ?_).1
      obtain ⟨i, -, hindex⟩ := endsFirst_st hm
      rw [hst] at hindex
      cases hindex
    | some st =>
      have hne := bel_ne_st hbel hst
      rw [hbel, hst] at h
      dsimp only at h
      split at h
      · obtain rfl := Option.some.inj h
        refine ((indexOf_bel_iff.mp hbel).pair fun m hm => ?_).1
        obtain rfl := (indexOf_st_iff.mp hst).unique hm
        omega
      · obtain rfl := Option.some.inj h
        refine ((indexOf_st_iff.mp hst).pair fun m hm => ?_).2
        obtain rfl := (indexOf_bel_iff.mp hbel).unique hm
        omega

theorem sequenceStop_eq_some_iff {marker tail : List Char} {n : Nat} :
    sequenceStop marker tail = some n ↔ EndsFirst (terminators marker) tail n := by
  unfold sequenceStop terminators
  split
  · rw [Option.map_eq_some_iff]
    constructor
    · rintro ⟨stop, hstop, rfl⟩
      exact endsFirst_endOfOscSequence hstop
    · intro hends
      cases hstop : endOfOscSequence tail with
      | some stop => exact ⟨stop, rfl, (endsFirst_endOfOscSequence hstop).unique hends⟩
      | none =>
        obtain ⟨word, hword, hend⟩ := hends.2.1
        obtain ⟨m, -, hm⟩ := EndsFirst.exists_le hends.1 (List.mem_singleton_self word) hend
        unfold endOfOscSequence at hstop
        rw [List.mem_pair] at hword
        rcases hword with rfl | rfl
        · obtain ⟨i, -, hindex⟩ := endsFirst_bel hm
          rw [hindex] at hstop
          cases hst : indexOf inlineImageSt tail with
          | none =>
            rw [hst] at hstop
            cases hstop
          | some st =>
            rw [hst] at hstop
            dsimp only at hstop
            split at hstop <;> cases hstop
        · obtain ⟨i, -, hindex⟩ := endsFirst_st hm
          rw [hindex] at hstop
          cases hbel : indexOf bel tail with
          | none =>
            rw [hbel] at hstop
            cases hstop
          | some bel =>
            rw [hbel] at hstop
            dsimp only at hstop
            split at hstop <;> cases hstop
  · rw [Option.map_eq_some_iff]
    constructor
    · rintro ⟨i, hi, rfl⟩
      exact indexOf_st_iff.mp hi
    · intro hends
      obtain ⟨i, rfl, hi⟩ := endsFirst_st hends
      exact ⟨i, hi, rfl⟩

def markerOf (text : List Char) : Option (List Char) :=
  inlineImageStarts.find? (·.isPrefixOf text)

theorem starts_incomparable {marker marker' : List Char} (h : marker ∈ inlineImageStarts)
    (h' : marker' ∈ inlineImageStarts) (hpre : marker <+: marker') : marker = marker' := by
  have hall : ∀ marker ∈ inlineImageStarts, ∀ marker' ∈ inlineImageStarts,
      marker.isPrefixOf marker' = true → marker = marker' := by decide
  exact hall marker h marker' h' (List.isPrefixOf_iff_prefix.mpr hpre)

theorem markerOf_eq_some_iff {text marker : List Char} :
    markerOf text = some marker ↔ marker ∈ inlineImageStarts ∧ marker <+: text := by
  constructor
  · intro h
    have hstart := List.find?_some (p := fun start : List Char => start.isPrefixOf text) h
    exact ⟨List.mem_of_find?_eq_some h, List.isPrefixOf_iff_prefix.mp hstart⟩
  · rintro ⟨hmem, hpre⟩
    rw [markerOf]
    cases hfind : inlineImageStarts.find? (·.isPrefixOf text) with
    | none =>
      have hnone := List.find?_eq_none.mp hfind marker hmem
      exact absurd (List.isPrefixOf_iff_prefix.mpr hpre) hnone
    | some other =>
      have hother := List.mem_of_find?_eq_some hfind
      have hstart := List.find?_some (p := fun start : List Char => start.isPrefixOf text) hfind
      have hpre' := List.isPrefixOf_iff_prefix.mp hstart
      rcases List.prefix_or_prefix_of_prefix hpre hpre' with h | h
      · rw [starts_incomparable hmem hother h]
      · rw [starts_incomparable hother hmem h]

theorem terminators_not_in_start {marker word : List Char} (h : marker ∈ inlineImageStarts)
    (hword : word ∈ terminators marker) : ¬word <:+: marker := by
  have hall : ∀ marker ∈ inlineImageStarts, ∀ word ∈ terminators marker, ¬word <:+: marker := by
    decide
  exact hall marker h word hword

theorem length_le_sequenceStop {marker text : List Char} {n : Nat}
    (hmem : marker ∈ inlineImageStarts) (hpre : marker <+: text)
    (h : EndsFirst (terminators marker) text n) : marker.length ≤ n := by
  by_contra hlt
  obtain ⟨word, hword, hend⟩ := h.2.1
  obtain ⟨rest, rfl⟩ := hpre
  rw [List.take_append_of_le_length (by omega)] at hend
  exact terminators_not_in_start hmem hword
    (hend.isInfix.trans (List.take_prefix n marker).isInfix)

/-- How long the sequence is that a text starts with. -/
def imageEnd (text : List Char) : Option Nat :=
  (markerOf text).bind fun marker => sequenceStop marker text

def shownImage (allowKittyGraphics : Bool) (sequence : List Char) : List Char :=
  match markerOf sequence with
  | none => sequence
  | some marker => shownSequence allowKittyGraphics marker sequence

theorem imageEnd_eq_some_iff {text : List Char} {n : Nat} :
    imageEnd text = some n ↔
      ∃ marker ∈ inlineImageStarts, marker <+: text ∧ EndsFirst (terminators marker) text n := by
  rw [imageEnd, Option.bind_eq_some_iff]
  constructor
  · rintro ⟨marker, hmarker, hstop⟩
    obtain ⟨hmem, hpre⟩ := markerOf_eq_some_iff.mp hmarker
    exact ⟨marker, hmem, hpre, sequenceStop_eq_some_iff.mp hstop⟩
  · rintro ⟨marker, hmem, hpre, hends⟩
    exact ⟨marker, markerOf_eq_some_iff.mpr ⟨hmem, hpre⟩, sequenceStop_eq_some_iff.mpr hends⟩

theorem imageEnd_append {text : List Char} {n : Nat} (h : imageEnd text = some n)
    (more : List Char) : imageEnd (text ++ more) = some n := by
  obtain ⟨marker, hmem, hpre, hends⟩ := imageEnd_eq_some_iff.mp h
  exact imageEnd_eq_some_iff.mpr
    ⟨marker, hmem, hpre.trans (List.prefix_append _ _), hends.append more⟩

theorem imageEnd_take {text word : List Char} {n : Nat} (hword : word ∈ inlineImageStarts)
    (hpre : word <+: text) (h : imageEnd text = some n) :
    word <+: text.take n ∧ imageEnd (text.take n) = some n := by
  obtain ⟨marker, hmem, hmarker, hends⟩ := imageEnd_eq_some_iff.mp h
  obtain rfl : marker = word := by
    have hfirst := markerOf_eq_some_iff.mpr ⟨hmem, hmarker⟩
    rw [markerOf_eq_some_iff.mpr ⟨hword, hpre⟩] at hfirst
    exact (Option.some.inj hfirst).symm
  have htake : marker <+: text.take n :=
    List.prefix_take_iff.mpr ⟨hpre, length_le_sequenceStop hmem hpre hends⟩
  exact ⟨htake, imageEnd_eq_some_iff.mpr ⟨marker, hmem, htake, hends.take⟩⟩

def imageScanner (allowKittyGraphics : Bool) : Scanner Char where
  starts := inlineImageStarts
  seqEnd := imageEnd
  replaced := shownImage allowKittyGraphics
  starts_ne_nil := by decide
  seqEnd_pos := by
    intro text n h
    obtain ⟨marker, hmem, hpre, hends⟩ := imageEnd_eq_some_iff.mp h
    have hpos : ∀ marker ∈ inlineImageStarts, 0 < marker.length := by decide
    exact (hpos marker hmem).trans_le (length_le_sequenceStop hmem hpre hends)
  seqEnd_le := by
    intro text n h
    obtain ⟨marker, hmem, hpre, hends⟩ := imageEnd_eq_some_iff.mp h
    exact hends.1
  seqEnd_append := imageEnd_append
  take_sequence := imageEnd_take

/-- The closest of a place and the places of some markers. -/
def Closest (text : List Char) (best : Option (Nat × List Char)) (markers : List (List Char)) :
    Option (Nat × List Char) → Prop
  | none => best = none ∧ ∀ marker ∈ markers, indexOf marker text = none
  | some found =>
    (best = some found ∨ (found.2 ∈ markers ∧ indexOf found.2 text = some found.1)) ∧
      (∀ earlier, best = some earlier → found.1 ≤ earlier.1) ∧
      ∀ marker ∈ markers, ∀ i, indexOf marker text = some i → found.1 ≤ i

theorem closest_closerStart (text : List Char) (best : Option (Nat × List Char))
    (marker : List Char) : Closest text best [marker] (closerStart text best marker) := by
  unfold closerStart
  cases hindex : indexOf marker text with
  | none =>
    cases best with
    | none => simp [Closest, hindex]
    | some earlier => simp [Closest, hindex]
  | some i =>
    cases best with
    | none => simp [Closest, hindex]
    | some earlier =>
      dsimp only
      split
      · next hlt =>
          simp [Closest, hindex]
          omega
      · next hge =>
          simp [Closest, hindex]
          omega

theorem Closest.trans {text marker : List Char} {best mid found : Option (Nat × List Char)}
    {markers : List (List Char)} (h : Closest text best [marker] mid)
    (hmore : Closest text mid markers found) : Closest text best (marker :: markers) found := by
  cases found with
  | none =>
    obtain ⟨rfl, hnone⟩ := hmore
    refine ⟨h.1, ?_⟩
    rw [List.forall_mem_cons]
    exact ⟨h.2 marker List.mem_cons_self, hnone⟩
  | some found =>
    obtain ⟨hfound, hle, hall⟩ := hmore
    cases mid with
    | none =>
      rcases hfound with hfound | ⟨hmem, hindex⟩
      · cases hfound
      · refine ⟨.inr ⟨List.mem_cons_of_mem _ hmem, hindex⟩, by simp [h.1], ?_⟩
        rw [List.forall_mem_cons]
        refine ⟨fun i hi => ?_, hall⟩
        rw [h.2 marker List.mem_cons_self] at hi
        cases hi
    | some mid =>
      obtain ⟨hmid, hmidle, hmidall⟩ := h
      have hle := hle mid rfl
      refine ⟨?_, fun earlier hearlier => hle.trans (hmidle earlier hearlier), ?_⟩
      · rcases hfound with hfound | ⟨hmem, hindex⟩
        · obtain rfl := Option.some.inj hfound
          rcases hmid with hbest | ⟨hmem, hindex⟩
          · exact .inl hbest
          · rw [List.mem_singleton] at hmem
            exact .inr ⟨hmem ▸ List.mem_cons_self, hindex⟩
        · exact .inr ⟨List.mem_cons_of_mem _ hmem, hindex⟩
      · rw [List.forall_mem_cons]
        exact ⟨fun i hi => hle.trans (hmidall marker List.mem_cons_self i hi), hall⟩

theorem closest_foldl (text : List Char) (best : Option (Nat × List Char))
    (markers : List (List Char)) :
    Closest text best markers (markers.foldl (closerStart text) best) := by
  induction markers generalizing best with
  | nil => cases best <;> simp [Closest]
  | cons marker markers ih => exact (closest_closerStart text best marker).trans (ih _)

theorem findNext_eq_none {text : List Char} (h : findNextInlineImageStart text = none) :
    ∀ marker ∈ inlineImageStarts, indexOf marker text = none := by
  have hclosest := closest_foldl text none inlineImageStarts
  rw [← findNextInlineImageStart, h] at hclosest
  exact hclosest.2

theorem findNext_eq_some {text marker : List Char} {index : Nat}
    (h : findNextInlineImageStart text = some (index, marker)) :
    marker ∈ inlineImageStarts ∧ indexOf marker text = some index ∧
      ∀ marker ∈ inlineImageStarts, ∀ i, indexOf marker text = some i → index ≤ i := by
  have hclosest := closest_foldl text none inlineImageStarts
  rw [← findNextInlineImageStart, h] at hclosest
  obtain ⟨hfound, -, hall⟩ := hclosest
  rcases hfound with hnone | ⟨hmem, hsome⟩
  · cases hnone
  · exact ⟨hmem, hsome, hall⟩

theorem marker_ne_nil {marker : List Char} (h : marker ∈ inlineImageStarts) : marker ≠ [] := by
  rintro rfl
  exact absurd h (by decide)

theorem pendingPrefixGo_spec (text : List Char) (limit : Nat) :
    pendingPrefixGo text limit ≤ limit ∧
      (0 < pendingPrefixGo text limit → ∃ marker ∈ inlineImageStarts,
        text.drop (text.length - pendingPrefixGo text limit) <+: marker) ∧
      ∀ length ≤ limit, pendingPrefixGo text limit < length →
        ∀ marker ∈ inlineImageStarts, ¬text.drop (text.length - length) <+: marker := by
  induction limit with
  | zero =>
    refine ⟨Nat.le_refl 0, fun h => absurd h (Nat.lt_irrefl 0), fun length hle hlt => ?_⟩
    rw [pendingPrefixGo] at hlt
    omega
  | succ limit ih =>
    obtain ⟨hle, hpending, hlonger⟩ := ih
    rw [pendingPrefixGo]
    split
    · next hany =>
        rw [List.any_eq_true] at hany
        obtain ⟨marker, hmem, hpre⟩ := hany
        refine ⟨Nat.le_refl _, fun _ => ⟨marker, hmem, List.isPrefixOf_iff_prefix.mp hpre⟩,
          fun length hlength hlt => ?_⟩
        omega
    · next hnone =>
        refine ⟨by omega, hpending, fun length hlength hlt marker hmem hpre => ?_⟩
        by_cases hlast : length = limit + 1
        · subst hlast
          apply hnone
          rw [List.any_eq_true]
          exact ⟨marker, hmem, List.isPrefixOf_iff_prefix.mpr hpre⟩
        · exact hlonger length (by omega) hlt marker hmem hpre

theorem pending_of_no_marker {text : List Char}
    (h : ∀ marker ∈ inlineImageStarts, indexOf marker text = none) :
    pendingInlineImagePrefixLength text ≤ text.length ∧
      (0 < pendingInlineImagePrefixLength text → ∃ marker ∈ inlineImageStarts,
        text.drop (text.length - pendingInlineImagePrefixLength text) <+: marker) ∧
      ∀ i < text.length - pendingInlineImagePrefixLength text, ∀ marker ∈ inlineImageStarts,
        ¬text.drop i <+: marker := by
  have hspec := pendingPrefixGo_spec text (min 11 text.length)
  have hlimit : pendingPrefixGo text (min 11 text.length) = pendingInlineImagePrefixLength text :=
    rfl
  rw [hlimit] at hspec
  obtain ⟨hle, hpending, hlonger⟩ := hspec
  refine ⟨by omega, hpending, fun i hi marker hmem hpre => ?_⟩
  have hshort := hpre.length_le
  rw [List.length_drop] at hshort
  have hlengths : ∀ marker ∈ inlineImageStarts, marker.length ≤ 12 := by decide
  have hmarker := hlengths marker hmem
  by_cases hwhole : text.length - i = 12
  · -- the whole of the longest marker stands at the end
    have heq : text.drop i = marker := by
      apply hpre.eq_of_length
      rw [List.length_drop]
      omega
    exact (indexOf_eq_none_iff (marker_ne_nil hmem)).mp (h marker hmem) i (heq ▸ List.prefix_rfl)
  · apply hlonger (text.length - i) (by omega) (by omega) marker hmem
    rwa [Nat.sub_sub_self (by omega)]

theorem escape_only_first {marker rest : List Char} {c : Char} (h : marker ∈ inlineImageStarts)
    (hpre : c :: rest <+: marker) : '\x1b' ∉ rest := by
  have hall : ∀ marker ∈ inlineImageStarts, '\x1b' ∉ marker.tail := by decide
  obtain ⟨more, rfl⟩ := hpre
  intro hmem
  apply hall _ h
  exact List.mem_append_left _ hmem

theorem marker_head {marker : List Char} (h : marker ∈ inlineImageStarts) :
    ∃ rest, marker = '\x1b' :: rest := by
  have hall : ∀ marker ∈ inlineImageStarts, marker.head? = some '\x1b' := by decide
  exact List.head?_eq_some_iff.mp (hall marker h)

theorem not_pending_before {text marker other : List Char} {i index : Nat}
    (hmem : marker ∈ inlineImageStarts) (hmarker : marker <+: text.drop index)
    (hother : other ∈ inlineImageStarts) (hi : i < index) : ¬text.drop i <+: other := by
  intro hpre
  obtain ⟨tail, rfl⟩ := marker_head hmem
  have hescape : '\x1b' ∈ text.drop index := hmarker.subset List.mem_cons_self
  obtain ⟨c, rest, hdrop⟩ : ∃ c rest, text.drop i = c :: rest := by
    apply List.exists_cons_of_ne_nil
    intro hnil
    rw [← Nat.add_sub_of_le hi.le, ← List.drop_drop, hnil, List.drop_nil] at hescape
    exact absurd hescape List.not_mem_nil
  have hrest : '\x1b' ∈ rest := by
    have hlater : text.drop index = rest.drop (index - (i + 1)) := by
      obtain ⟨k, rfl⟩ := Nat.exists_eq_add_of_lt hi
      rw [Nat.add_assoc, ← List.drop_drop, hdrop, List.drop_succ_cons]
      congr 1
      omega
    rw [hlater] at hescape
    exact List.mem_of_mem_drop hescape
  rw [hdrop] at hpre
  exact escape_only_first hother hpre hrest

section Loop

variable {allowKittyGraphics : Bool}

theorem isStart_eq_false {text : List Char}
    (h : ∀ marker ∈ inlineImageStarts, ¬marker <+: text) :
    (imageScanner allowKittyGraphics).isStart text = false := by
  rw [Bool.eq_false_iff, ne_eq, Scanner.isStart_iff]
  rintro ⟨marker, hmem, hpre⟩
  exact h marker hmem hpre

theorem isPending_eq_false {text : List Char}
    (h : ∀ marker ∈ inlineImageStarts, ¬text <+: marker) :
    (imageScanner allowKittyGraphics).isPending text = false := by
  rw [Bool.eq_false_iff, ne_eq, Scanner.isPending_iff]
  rintro ⟨marker, hmem, hpre⟩
  exact h marker hmem hpre

theorem filter_of_no_marker {text : List Char}
    (h : ∀ marker ∈ inlineImageStarts, indexOf marker text = none) :
    (imageScanner allowKittyGraphics).filter text =
      (text.take (text.length - pendingInlineImagePrefixLength text),
        text.drop (text.length - pendingInlineImagePrefixLength text)) := by
  have hnone (i : Nat) (marker : List Char) (hmem : marker ∈ inlineImageStarts) :
      ¬marker <+: text.drop i :=
    (indexOf_eq_none_iff (marker_ne_nil hmem)).mp (h marker hmem) i
  obtain ⟨hle, hpending, hearlier⟩ := pending_of_no_marker h
  obtain ⟨n, hn⟩ : ∃ n, text.length - pendingInlineImagePrefixLength text = n := ⟨_, rfl⟩
  rw [hn] at hpending hearlier ⊢
  have hskip := (imageScanner allowKittyGraphics).filter_skip_take text n fun i hi =>
    ⟨isStart_eq_false (hnone i), isPending_eq_false (hearlier i hi)⟩
  have hlast : (imageScanner allowKittyGraphics).filter (text.drop n) = ([], text.drop n) := by
    by_cases hpos : 0 < pendingInlineImagePrefixLength text
    · apply Scanner.filter_pending (isStart_eq_false (hnone n))
      exact Scanner.isPending_iff.mpr (hpending hpos)
    · rw [List.drop_of_length_le (by omega), Scanner.filter_nil]
  rw [hskip, hlast, List.append_nil]

theorem filter_of_marker {text marker : List Char} {index : Nat}
    (h : findNextInlineImageStart text = some (index, marker)) :
    (imageScanner allowKittyGraphics).filter text =
      (text.take index ++ ((imageScanner allowKittyGraphics).filter (text.drop index)).1,
        ((imageScanner allowKittyGraphics).filter (text.drop index)).2) := by
  obtain ⟨hmem, hindex, hall⟩ := findNext_eq_some h
  obtain ⟨hmarker, -⟩ := (indexOf_eq_some_iff (marker_ne_nil hmem)).mp hindex
  apply Scanner.filter_skip_take
  intro i hi
  refine ⟨isStart_eq_false fun other hother hpre => ?_,
    isPending_eq_false fun other hother => not_pending_before hmem hmarker hother hi⟩
  cases hfirst : indexOf other text with
  | none => exact (indexOf_eq_none_iff (marker_ne_nil hother)).mp hfirst i hpre
  | some j =>
    have hle := hall other hother j hfirst
    exact ((indexOf_eq_some_iff (marker_ne_nil hother)).mp hfirst).2 i (by omega) hpre

theorem filterLoop_eq (text : List Char) :
    filterLoop allowKittyGraphics text = (imageScanner allowKittyGraphics).filter text := by
  have hmarker {text marker : List Char} {index : Nat}
      (h : findNextInlineImageStart text = some (index, marker)) :
      marker ∈ inlineImageStarts ∧ marker <+: text.drop index := by
    obtain ⟨hmem, hindex, -⟩ := findNext_eq_some h
    exact ⟨hmem, ((indexOf_eq_some_iff (marker_ne_nil hmem)).mp hindex).1⟩
  fun_induction filterLoop allowKittyGraphics text with
  | case1 => rw [Scanner.filter_nil]
  | case2 c rest hnext hold => rw [filter_of_no_marker (findNext_eq_none hnext)]
  | case3 c rest index marker hnext hstop =>
    obtain ⟨hmem, hpre⟩ := hmarker hnext
    have hend : (imageScanner allowKittyGraphics).seqEnd ((c :: rest).drop index) = none := by
      have hfirst := markerOf_eq_some_iff.mpr ⟨hmem, hpre⟩
      change (markerOf _).bind _ = none
      rw [hfirst, Option.bind_some, hstop]
    rw [filter_of_marker hnext,
      Scanner.filter_open (Scanner.isStart_iff.mpr ⟨marker, hmem, hpre⟩) hend,
      List.append_nil]
  | case4 c rest index marker hnext stop hstop more ih =>
    obtain ⟨hmem, hpre⟩ := hmarker hnext
    have hends := sequenceStop_eq_some_iff.mp hstop
    have hend : (imageScanner allowKittyGraphics).seqEnd ((c :: rest).drop index) = some stop :=
      imageEnd_eq_some_iff.mpr ⟨marker, hmem, hpre, hends⟩
    have htake := markerOf_eq_some_iff.mpr
      ⟨hmem, (imageEnd_take hmem hpre hend).1⟩
    have hshown : (imageScanner allowKittyGraphics).replaced
        (((c :: rest).drop index).take stop) =
        shownSequence allowKittyGraphics marker (((c :: rest).drop index).take stop) := by
      change shownImage _ _ = _
      rw [shownImage, htake]
    rw [filter_of_marker hnext,
      Scanner.filter_sequence (Scanner.isStart_iff.mpr ⟨marker, hmem, hpre⟩) hend, hshown,
      List.append_assoc, ← ih]

end Loop

end HerdrWebui.Terminal
