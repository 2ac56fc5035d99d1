import HerdrWebui.Terminal.InlineImages

/-!
Runs of the inline image filter over the chunks of a stream. While every chunk that is decoded
on its own starts and ends between two characters, the terminal shows and the filter holds
what they would of the stream as a whole.
-/

namespace HerdrWebui.Terminal

open Concurrency

section Whole

variable {allowKittyGraphics : Bool}

theorem filter_text (text : List Char) :
    filterTerminalImageSequences (.text text) ⟨[], allowKittyGraphics⟩ =
      (.text ((imageScanner allowKittyGraphics).filter text).1,
        ⟨((imageScanner allowKittyGraphics).filter text).2, allowKittyGraphics⟩) := by
  rw [filterTerminalImageSequences]
  split
  · rw [← filterLoop_eq]
    rfl
  · next hclean =>
      rw [dataMayContainInlineImage, if_neg (by simp), Bool.or_eq_true, not_or,
        decide_eq_true_eq] at hclean
      obtain ⟨hstarts, hpending⟩ := hclean
      rw [filter_of_no_marker, Nat.eq_zero_of_not_pos hpending, Nat.sub_zero, List.take_length,
        List.drop_length]
      intro marker hmem
      by_contra hsome
      apply hstarts
      rw [List.any_eq_true]
      exact ⟨marker, hmem, Option.isSome_iff_ne_none.mpr hsome⟩

end Whole

theorem not_prefix_of_contains {bytes needle : List UInt8}
    (h : bytesContainNeedle bytes needle = false) {i : Nat} (hi : i < bytes.length) :
    ¬needle <+: bytes.drop i := by
  intro hprefix
  rw [bytesContainNeedle, List.any_eq_false] at h
  have hlength := hprefix.length_le
  rw [List.length_drop] at hlength
  exact h i (List.mem_range.mpr (by omega)) (List.isPrefixOf_iff_prefix.mpr hprefix)

/-- A chunk with no sign of an image has no marker, and none has begun at its end. -/
theorem clean_of_no_image {data : List UInt8} {state : ImageState}
    (h : dataMayContainInlineImage (.bytes data) state = false) :
    state.imageEscapeBuffer = [] ∧ Clean inlineImageStartBytes data := by
  unfold dataMayContainInlineImage at h
  split at h
  · cases h
  · next hbuffer =>
      rw [Bool.or_eq_false_iff, List.any_eq_false] at h
      obtain ⟨hcontains, hends⟩ := h
      rw [bytesEndWithInlineImagePrefix, List.any_eq_false] at hends
      refine ⟨not_not.mp hbuffer, fun i hi word hword => ?_⟩
      have hstart := not_prefix_of_contains (Bool.eq_false_iff.mpr (hcontains word hword)) hi
      refine ⟨hstart, fun hprefix => ?_⟩
      have hlength := hprefix.length_le
      rw [List.length_drop] at hlength
      by_cases hwhole : data.length - i = word.length
      · have heq := hprefix.eq_of_length (by rw [List.length_drop, hwhole])
        exact hstart (heq ▸ List.prefix_rfl)
      · apply hends word hword
        rw [List.any_eq_true]
        refine ⟨data.length - i - 1, List.mem_range.mpr (by omega), ?_⟩
        rw [Nat.sub_add_cancel (by omega), Nat.sub_sub_self hi.le, beq_iff_eq]
        have htake := List.prefix_iff_eq_take.mp hprefix
        rwa [List.length_drop] at htake

theorem starts_ascii : ∀ marker ∈ inlineImageStarts, ∀ c ∈ marker, c.utf8Size = 1 := by
  have hall : ∀ marker ∈ inlineImageStarts, marker.all (fun c => decide (c.utf8Size = 1)) := by
    decide
  exact fun marker hmarker => forall_mem_of_all (hall marker hmarker)

theorem filter_lossyChars {allowKittyGraphics : Bool} {bytes : List UInt8}
    (h : Clean inlineImageStartBytes bytes) :
    (imageScanner allowKittyGraphics).filter (lossyChars bytes) = (lossyChars bytes, []) :=
  Scanner.filter_clean (Clean.lossyChars starts_ascii h)

theorem held_of_decoded_nil {state : ImageState}
    (h : dataMayContainInlineImage (.bytes []) state = true) : state.imageEscapeBuffer ≠ [] := by
  intro hbuffer
  unfold dataMayContainInlineImage at h
  rw [if_neg (not_not.mpr hbuffer)] at h
  exact absurd h (by decide)

theorem summary_ne_nil (protocol : ImageProtocol) (sequence : List Char) :
    terminalImageProtocolSummary protocol sequence ≠ [] := by
  rw [terminalImageProtocolSummary]
  simp [toString]

theorem shownImage_eq_nil {allowKittyGraphics : Bool} (sequence : List Char)
    (h : (imageScanner allowKittyGraphics).replaced sequence = []) : sequence = [] := by
  have hshown : shownImage allowKittyGraphics sequence = [] := h
  rw [shownImage] at hshown
  split at hshown
  · exact hshown
  · rw [shownSequence] at hshown
    split at hshown
    · exact absurd hshown (summary_ne_nil _ _)
    split at hshown
    · split at hshown
      · exact hshown
      · exact absurd hshown (summary_ne_nil _ _)
    split at hshown
    · exact absurd hshown (summary_ne_nil _ _)
    · exact hshown

/-- What the terminal is given of the data it is written: a text in its bytes. -/
def TerminalData.terminalBytes : TerminalData → List UInt8
  | text chars => utf8 chars
  | bytes data => data

/-- A terminal behind the filter. The stream is what was written so far, and the bytes that
came since a chunk was last decoded are `untouched`. -/
structure ImageTerminal where
  imageState : ImageState
  received : List UInt8
  stream : List UInt8
  untouched : List UInt8
  deriving DecidableEq

namespace ImageTerminal

def start (allowKittyGraphics : Bool) : ImageTerminal where
  imageState := ⟨[], allowKittyGraphics⟩
  received := []
  stream := []
  untouched := []

def decodes (s : ImageTerminal) (chunk : List UInt8) : Bool :=
  dataMayContainInlineImage (.bytes chunk) s.imageState

def write (s : ImageTerminal) (chunk : List UInt8) : ImageTerminal :=
  let filtered := filterTerminalImageSequences (.bytes chunk) s.imageState
  { imageState := filtered.2
    received := s.received ++ filtered.1.terminalBytes
    stream := s.stream ++ chunk
    untouched := if s.decodes chunk then [] else s.untouched ++ chunk }

/-- The text the terminal has received, and then what is held. -/
def shownAndHeld (s : ImageTerminal) : List Char :=
  lossyChars s.received ++ s.imageState.imageEscapeBuffer

/-- The same of the stream decoded as one whole. -/
def wholeShownAndHeld (s : ImageTerminal) : List Char :=
  let filtered := filterTerminalImageSequences (.text (lossyChars s.stream))
    ⟨[], s.imageState.allowKittyGraphics⟩
  filtered.1.decoded ++ filtered.2.imageEscapeBuffer

/-- No character is cut where a chunk that is decoded on its own starts or ends, and no such
chunk starts with a byte order mark. -/
def KeepsCharacters (s : ImageTerminal) (chunk : List UInt8) : Prop :=
  (s.decodes chunk = true → ¬byteOrderMark <+: chunk) ∧
    (s.decodes chunk = true ∨ s.untouched = [] → IsBoundary s.stream chunk)

instance (s : ImageTerminal) (chunk : List UInt8) : Decidable (s.KeepsCharacters chunk) :=
  inferInstanceAs (Decidable (_ ∧ _))

end ImageTerminal

/-- The runs of a terminal whose output comes in any chunks. -/
def imageWrites (allowKittyGraphics : Bool) : System ImageTerminal (List UInt8) where
  init s := s = .start allowKittyGraphics
  step s chunk := some (s.write chunk)

section Invariant

variable {allowKittyGraphics : Bool} {s : ImageTerminal} {front given chunk : List UInt8}
  {out : List Char}

/-- The stream is what came before the untouched bytes and then these, and so is what the
terminal was given. The scanner makes of the front what the terminal reads of its own and
what is held; bytes that come next are read apart from that. -/
structure Follows (allowKittyGraphics : Bool) (s : ImageTerminal) (front given : List UInt8)
    (out : List Char) : Prop where
  kitty : s.imageState.allowKittyGraphics = allowKittyGraphics
  stream : s.stream = front ++ s.untouched
  received : s.received = given ++ s.untouched
  clean : Clean inlineImageStartBytes s.untouched
  boundary : IsBoundary front s.untouched
  filtered : (imageScanner allowKittyGraphics).filter (lossyChars front) =
    (out, s.imageState.imageEscapeBuffer)
  held : s.imageState.imageEscapeBuffer ≠ [] → s.untouched = []
  reads : ∀ bytes : List UInt8,
    s.imageState.imageEscapeBuffer = [] ∨ (∀ byte ∈ bytes.head?, isTail byte = false) →
      lossyChars (given ++ bytes) = out ++ lossyChars bytes

theorem follows_start : Follows allowKittyGraphics (.start allowKittyGraphics) [] [] [] where
  kitty := rfl
  stream := rfl
  received := rfl
  clean := fun i hi => absurd hi (Nat.not_lt_zero i)
  boundary := isBoundary_nil_left []
  filtered := by
    rw [lossyChars_nil, Scanner.filter_nil]
    rfl
  held := fun h => absurd rfl h
  reads := fun bytes _ => rfl

namespace Follows

/-- What comes behind the untouched bytes is read as it would be behind the front. -/
theorem reads_untouched (h : Follows allowKittyGraphics s front given out) {bytes : List UInt8}
    (hbytes : s.imageState.imageEscapeBuffer = [] ∨ ∀ byte ∈ bytes.head?, isTail byte = false) :
    lossyChars (s.received ++ bytes) = out ++ lossyChars (s.untouched ++ bytes) := by
  rw [h.received, List.append_assoc]
  apply h.reads
  by_cases hheld : s.imageState.imageEscapeBuffer = []
  · exact .inl hheld
  · rw [h.held hheld]
    exact hbytes

theorem lossyChars_stream (h : Follows allowKittyGraphics s front given out) :
    lossyChars s.stream = lossyChars front ++ lossyChars s.untouched := by
  rw [h.stream, h.boundary.lossyChars_append]

theorem filter_stream (h : Follows allowKittyGraphics s front given out) :
    (imageScanner allowKittyGraphics).filter (lossyChars s.stream) =
      (out ++ lossyChars s.untouched, s.imageState.imageEscapeBuffer) := by
  rw [h.lossyChars_stream, Scanner.filter_append, h.filtered]
  dsimp only
  by_cases hheld : s.imageState.imageEscapeBuffer = []
  · rw [hheld, List.nil_append, filter_lossyChars h.clean]
  · rw [h.held hheld, lossyChars_nil, List.append_nil, List.append_nil]
    have hagain := (imageScanner allowKittyGraphics).filter_held (lossyChars front)
    rw [h.filtered] at hagain
    rw [hagain, List.append_nil]

theorem lossyChars_received (h : Follows allowKittyGraphics s front given out) :
    lossyChars s.received = out ++ lossyChars s.untouched := by
  have hreads : lossyChars (s.received ++ []) = out ++ lossyChars (s.untouched ++ []) :=
    h.reads_untouched (.inr (by simp))
  rwa [List.append_nil, List.append_nil] at hreads

theorem write_untouched (h : Follows allowKittyGraphics s front given out)
    (hdecodes : s.decodes chunk = false) (hkeeps : s.KeepsCharacters chunk) :
    Follows allowKittyGraphics (s.write chunk) front given out := by
  obtain ⟨hheld, hclean⟩ := clean_of_no_image hdecodes
  have hfiltered : filterTerminalImageSequences (.bytes chunk) s.imageState =
      (.bytes chunk, s.imageState) := by
    rw [filterTerminalImageSequences, if_neg]
    exact Bool.eq_false_iff.mp hdecodes
  have huntouched : (s.write chunk).untouched = s.untouched ++ chunk :=
    if_neg (Bool.eq_false_iff.mp hdecodes)
  have hstate : (s.write chunk).imageState = s.imageState := by
    rw [ImageTerminal.write, hfiltered]
  have hreceived : (s.write chunk).received = s.received ++ chunk := by
    rw [ImageTerminal.write, hfiltered]
    rfl
  have hboundary : IsBoundary front (s.untouched ++ chunk) := by
    by_cases hnone : s.untouched = []
    · have hcut := hkeeps.2 (.inr hnone)
      rw [h.stream, hnone, List.append_nil] at hcut
      rwa [hnone, List.nil_append]
    · exact h.boundary.append hnone chunk
  refine ⟨?_, ?_, ?_, ?_, ?_, ?_, ?_, ?_⟩
  · rw [hstate, h.kitty]
  · rw [huntouched, ← List.append_assoc, ← h.stream]
    rfl
  · rw [huntouched, hreceived, ← List.append_assoc, ← h.received]
  · rw [huntouched]
    exact h.clean.append hclean
  · rwa [huntouched]
  · rw [hstate, h.filtered]
  · intro hsome
    rw [hstate] at hsome
    exact absurd hheld hsome
  · rw [hstate]
    exact h.reads

theorem write_decoded (h : Follows allowKittyGraphics s front given out)
    (hdecodes : s.decodes chunk = true) (hkeeps : s.KeepsCharacters chunk) :
    ∃ out', Follows allowKittyGraphics (s.write chunk) (s.stream ++ chunk)
      (s.write chunk).received out' := by
  obtain ⟨shown, hshown⟩ : ∃ shown, (imageScanner allowKittyGraphics).filter
      (s.imageState.imageEscapeBuffer ++ lossyChars chunk) = shown := ⟨_, rfl⟩
  have hchars : decodeTerminalBytes chunk = lossyChars chunk := by
    rw [decodeTerminalBytes, if_neg]
    rw [List.isPrefixOf_iff_prefix]
    exact hkeeps.1 hdecodes
  have himage : dataMayContainInlineImage (.bytes chunk) s.imageState = true := hdecodes
  have hfiltered : filterTerminalImageSequences (.bytes chunk) s.imageState =
      (.text shown.1, ⟨shown.2, allowKittyGraphics⟩) := by
    rw [filterTerminalImageSequences, if_pos himage, TerminalData.decoded, hchars, h.kitty,
      filterLoop_eq, hshown]
  have huntouched : (s.write chunk).untouched = [] := if_pos hdecodes
  have hstate : (s.write chunk).imageState = ⟨shown.2, allowKittyGraphics⟩ := by
    rw [ImageTerminal.write, hfiltered]
  have hreceived : (s.write chunk).received = s.received ++ utf8 shown.1 := by
    rw [ImageTerminal.write, hfiltered]
    rfl
  have hboundary : IsBoundary s.stream chunk := hkeeps.2 (.inl hdecodes)
  refine ⟨out ++ lossyChars s.untouched ++ shown.1, ?_, ?_, ?_, ?_, ?_, ?_, ?_, ?_⟩
  · rw [hstate]
  · rw [huntouched, List.append_nil]
    rfl
  · rw [huntouched, List.append_nil]
  · rw [huntouched]
    exact fun i hi => absurd hi (Nat.not_lt_zero i)
  · rw [huntouched]
    exact isBoundary_nil_right _
  · rw [hboundary.lossyChars_append, Scanner.filter_append, h.filter_stream, hshown, hstate]
  · exact fun _ => huntouched
  · intro bytes hbytes
    rw [hstate] at hbytes
    rw [hreceived, List.append_assoc]
    have hhead : ∀ byte ∈ (utf8 shown.1 ++ bytes).head?, isTail byte = false := by
      by_cases hnone : shown.1 = []
      · -- something is held, or there was nothing to decode
        rcases hbytes with hheld | hbytes
        · have hnil := Scanner.filter_eq_nil shownImage_eq_nil
            (hshown.trans (Prod.ext hnone hheld))
          obtain ⟨hbuffer, hchunk⟩ := List.append_eq_nil_iff.mp hnil
          obtain rfl := lossyChars_eq_nil hchunk
          exact absurd hbuffer (held_of_decoded_nil hdecodes)
        · rw [hnone]
          exact hbytes
      · rw [List.head?_append_of_ne_nil _ (utf8_ne_nil hnone)]
        exact isTail_utf8
    rw [h.reads_untouched (.inr hhead), (isBoundary_of_head hhead _).lossyChars_append,
      lossyChars_utf8_append]
    simp only [List.append_assoc]

end Follows

end Invariant

/-- A sequence of one of the three protocols, as it stands in a text. -/
def ImageProtocol.IsSequence : ImageProtocol → List Char → Prop
  | .iterm2, sequence =>
    iterm2Start <+: sequence ∧ (bel <:+ sequence ∨ inlineImageSt <:+ sequence)
  | .kitty, sequence => kittyStart <+: sequence ∧ inlineImageSt <:+ sequence
  | .sixel, sequence => isSixelSequence sequence = true

theorem shownImage_eq {allowKittyGraphics : Bool} {sequence : List Char}
    (hend : imageEnd sequence = some sequence.length) :
    shownImage allowKittyGraphics sequence = sequence ∨
      ∃ protocol : ImageProtocol, protocol.IsSequence sequence ∧
        shownImage allowKittyGraphics sequence =
          terminalImageProtocolSummary protocol sequence := by
  obtain ⟨marker, hmem, hprefix, hends⟩ := imageEnd_eq_some_iff.mp hend
  obtain ⟨word, hword, hsuffix⟩ := hends.2.1
  rw [List.take_length] at hsuffix
  rw [shownImage, markerOf_eq_some_iff.mpr ⟨hmem, hprefix⟩]
  unfold terminators at hword
  dsimp only
  rw [shownSequence]
  split at hword
  · next hiterm =>
      rw [if_pos hiterm]
      right
      refine ⟨.iterm2, ⟨hiterm ▸ hprefix, ?_⟩, rfl⟩
      rw [List.mem_pair] at hword
      rcases hword with rfl | rfl
      · exact .inl hsuffix
      · exact .inr hsuffix
  · next hiterm =>
      obtain rfl := List.mem_singleton.mp hword
      rw [if_neg hiterm]
      split
      · next hkitty =>
          split
          · exact .inl rfl
          · exact .inr ⟨.kitty, ⟨hkitty ▸ hprefix, hsuffix⟩, rfl⟩
      · split
        · next hsixel => exact .inr ⟨.sixel, hsixel, rfl⟩
        · exact .inl rfl

theorem exists_follows {allowKittyGraphics : Bool} {s : ImageTerminal}
    (h : (imageWrites allowKittyGraphics).ReachVia ImageTerminal.KeepsCharacters s) :
    ∃ front given out, Follows allowKittyGraphics s front given out := by
  apply h.invariant (I := fun s => ∃ front given out, Follows allowKittyGraphics s front given out)
  · rintro s rfl
    exact ⟨[], [], [], follows_start⟩
  · rintro s chunk s' - ⟨front, given, out, hs⟩ hkeeps hstep
    obtain rfl := Option.some.inj hstep
    cases hdecodes : s.decodes chunk with
    | false => exact ⟨front, given, out, hs.write_untouched hdecodes hkeeps⟩
    | true => exact ⟨_, _, hs.write_decoded hdecodes hkeeps⟩

/-- While chunks that are decoded on their own start and end between characters, the terminal
has received and the filter holds what they would of the stream as one whole. What was
received is the stream without what is held, but for sequences of images in whose place a
summary stands. -/
theorem imageWrites_as_one_whole {allowKittyGraphics : Bool} {s : ImageTerminal}
    (h : (imageWrites allowKittyGraphics).ReachVia ImageTerminal.KeepsCharacters s) :
    s.shownAndHeld = s.wholeShownAndHeld ∧
      ∃ parts : List (List Char × List Char),
        (∀ part ∈ parts, part.2 = part.1 ∨ ∃ protocol : ImageProtocol,
          protocol.IsSequence part.1 ∧
            part.2 = terminalImageProtocolSummary protocol part.1) ∧
        lossyChars s.stream = parts.flatMap (·.1) ++ s.imageState.imageEscapeBuffer ∧
        lossyChars s.received = parts.flatMap (·.2) := by
  obtain ⟨front, given, out, hs⟩ := exists_follows h
  have hfilter := hs.filter_stream
  obtain ⟨parts, hparts, htext, hout⟩ :=
    (imageScanner allowKittyGraphics).filter_parts (lossyChars s.stream)
  rw [hfilter] at htext hout
  refine ⟨?_, parts, fun part hpart => ?_, htext, hs.lossyChars_received.trans hout⟩
  · rw [ImageTerminal.shownAndHeld, ImageTerminal.wholeShownAndHeld, hs.kitty, filter_text,
      hfilter, hs.lossyChars_received]
    rfl
  · rcases hparts part hpart with hsame | ⟨-, hend, hshown⟩
    · exact .inl hsame
    · rw [hshown]
      exact shownImage_eq hend

/-- An image between two characters, cut within its marker and its end. -/
def imageChunks : List (List UInt8) :=
  [utf8 ['a', '\x1b'], utf8 ['_', 'G', 'x', ';', 'A', '\x1b'], utf8 ['\\', 'é']]

theorem imageChunks_run : ((imageWrites false).runVia ImageTerminal.KeepsCharacters
    (.start false) imageChunks).isSome = true := by
  decide +kernel

theorem imageWrites_imageChunks :
    (((imageWrites false).runVia ImageTerminal.KeepsCharacters (.start false)
        imageChunks).get imageChunks_run).shownAndHeld =
      (((imageWrites false).runVia ImageTerminal.KeepsCharacters (.start false)
        imageChunks).get imageChunks_run).wholeShownAndHeld :=
  (imageWrites_as_one_whole (System.reachVia_get rfl imageChunks_run)).1

/-- A letter cut in two, where the second chunk ends with an escape. -/
def cutLetter : List (List UInt8) := [[0xC3], [0xA9, 0x1B]]

theorem cutLetter_run :
    ((imageWrites false).run (.start false) cutLetter).isSome = true := by
  decide +kernel

/-- The letter is lost: the second chunk is decoded on its own. -/
theorem imageWrites_cutLetter :
    ¬∀ (allowKittyGraphics : Bool) (s : ImageTerminal),
      (imageWrites allowKittyGraphics).Reachable s → s.shownAndHeld = s.wholeShownAndHeld := by
  intro hall
  have hlost : (((imageWrites false).run (.start false) cutLetter).get
      cutLetter_run).shownAndHeld ≠ (((imageWrites false).run (.start false) cutLetter).get
      cutLetter_run).wholeShownAndHeld := by
    decide +kernel
  exact hlost (hall false _ (System.reachable_get rfl cutLetter_run))

end HerdrWebui.Terminal
