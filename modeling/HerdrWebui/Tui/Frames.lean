import HerdrWebui.Data.Utf8Frames
import HerdrWebui.Tui.Keys

/-!
The frames of an attached terminal (`ingest_terminal_output`), a full one and those that
go on behind it.

Each frame is read as UTF-8 before it is kept, so a character that two frames share is
read twice, and as neither.
-/

namespace HerdrWebui.Tui

def utf8Bytes (chars : List Char) : Nat := (chars.map (·.utf8Size)).sum

theorem utf8Bytes_append (front back : List Char) :
    utf8Bytes (front ++ back) = utf8Bytes front + utf8Bytes back := by
  rw [utf8Bytes, List.map_append, List.sum_append]
  rfl

theorem utf8Bytes_le_of_isSuffix {back chars : List Char} (h : back <:+ chars) :
    utf8Bytes back ≤ utf8Bytes chars := by
  obtain ⟨front, rfl⟩ := h
  rw [utf8Bytes_append]
  exact Nat.le_add_left _ _

theorem trimTerminalRawOutput_nil : trimTerminalRawOutput [] = [] := by
  rw [trimTerminalRawOutput]
  rfl

theorem trimTerminalRawOutput_cons (c : Char) (chars : List Char) :
    trimTerminalRawOutput (c :: chars) =
      if utf8Bytes (c :: chars) ≤ terminalRawBufferBytes then c :: chars
      else trimTerminalRawOutput chars := by
  have hsum : utf8Bytes (c :: chars) = c.utf8Size + utf8Bytes chars := rfl
  rw [trimTerminalRawOutput, trimTerminalRawOutput]
  generalize terminalRawBufferBytes = limit
  change dropBytes (utf8Bytes (c :: chars) - limit) _ =
    if _ then _ else dropBytes (utf8Bytes chars - limit) chars
  split
  · next hfits => rw [Nat.sub_eq_zero_of_le hfits, dropBytes]
  · next hover =>
      obtain ⟨excess, hexcess⟩ := Nat.exists_eq_succ_of_ne_zero
        (Nat.sub_ne_zero_of_lt (Nat.not_le.mp hover))
      rw [hexcess, dropBytes]
      congr 1
      omega

theorem trimTerminalRawOutput_of_fits {chars : List Char}
    (h : utf8Bytes chars ≤ terminalRawBufferBytes) : trimTerminalRawOutput chars = chars := by
  cases chars with
  | nil => exact trimTerminalRawOutput_nil
  | cons c chars => rw [trimTerminalRawOutput_cons, if_pos h]

theorem trimTerminalRawOutput_isSuffix (chars : List Char) :
    trimTerminalRawOutput chars <:+ chars := by
  induction chars with
  | nil => rw [trimTerminalRawOutput_nil]
  | cons c chars ih =>
    rw [trimTerminalRawOutput_cons]
    split
    · exact List.suffix_rfl
    · exact ih.trans (List.suffix_cons _ _)

theorem utf8Bytes_trimTerminalRawOutput (chars : List Char) :
    utf8Bytes (trimTerminalRawOutput chars) ≤ terminalRawBufferBytes := by
  induction chars with
  | nil =>
    rw [trimTerminalRawOutput_nil]
    exact Nat.zero_le _
  | cons c chars ih =>
    rw [trimTerminalRawOutput_cons]
    split
    · next hfits => exact hfits
    · exact ih

theorem isSuffix_trimTerminalRawOutput {back chars : List Char} (h : back <:+ chars)
    (hfits : utf8Bytes back ≤ terminalRawBufferBytes) : back <:+ trimTerminalRawOutput chars := by
  induction chars with
  | nil =>
    rw [trimTerminalRawOutput_nil]
    exact h
  | cons c chars ih =>
    rw [trimTerminalRawOutput_cons]
    split
    · exact h
    · next hover =>
        rcases List.suffix_cons_iff.mp h with rfl | h
        · exact absurd hfits hover
        · exact ih h

/-- Nothing is kept from a character on that does not fit with what follows it. -/
theorem trimTerminalRawOutput_append_cons {front back : List Char} {c : Char}
    (hover : terminalRawBufferBytes < utf8Bytes (c :: back)) :
    trimTerminalRawOutput (front ++ c :: back) = trimTerminalRawOutput back := by
  induction front with
  | nil => rw [List.nil_append, trimTerminalRawOutput_cons, if_neg (Nat.not_le.mpr hover)]
  | cons first front ih =>
    have hle := utf8Bytes_le_of_isSuffix (List.suffix_append (first :: front) (c :: back))
    rw [List.cons_append] at hle
    rw [List.cons_append, trimTerminalRawOutput_cons, if_neg (by omega), ih]

theorem trimTerminalRawOutput_append (front back : List Char) :
    trimTerminalRawOutput (trimTerminalRawOutput front ++ back) =
      trimTerminalRawOutput (front ++ back) := by
  induction front with
  | nil => rw [trimTerminalRawOutput_nil]
  | cons c front ih =>
    rw [trimTerminalRawOutput_cons]
    split
    · rfl
    · next hover =>
        have hmore : utf8Bytes (c :: (front ++ back)) =
            utf8Bytes (c :: front) + utf8Bytes back := utf8Bytes_append (c :: front) back
        rw [ih, List.cons_append, trimTerminalRawOutput_cons, if_neg (by omega)]

/-- What is kept of a text behind as many replacement characters as fit. -/
def keptBehindReplacements (text : List Char) : List Char :=
  trimTerminalRawOutput (List.replicate terminalRawBufferBytes replacement ++ text)

theorem utf8Bytes_replicate (count : Nat) :
    utf8Bytes (List.replicate count replacement) = count * 3 := by
  rw [utf8Bytes, List.map_replicate, List.sum_replicate_nat]
  rfl

theorem keptBehindReplacements_eq {text : List Char} {count : Nat}
    (hfits : utf8Bytes (List.replicate count replacement ++ text) ≤ terminalRawBufferBytes)
    (hover : terminalRawBufferBytes <
      utf8Bytes (replacement :: (List.replicate count replacement ++ text))) :
    keptBehindReplacements text = List.replicate count replacement ++ text := by
  have hpos : 0 < terminalRawBufferBytes := by decide
  rw [utf8Bytes_append, utf8Bytes_replicate] at hfits
  obtain ⟨more, hmore⟩ : ∃ more, terminalRawBufferBytes = more + 1 + count :=
    ⟨terminalRawBufferBytes - count - 1, by omega⟩
  rw [keptBehindReplacements, hmore, ← List.replicate_append_replicate, List.replicate_succ',
    List.append_assoc, List.append_assoc, List.singleton_append,
    trimTerminalRawOutput_append_cons hover, trimTerminalRawOutput_of_fits]
  rwa [utf8Bytes_append, utf8Bytes_replicate]

theorem keptBehindReplacements_of_overflow {text : List Char}
    (hover : terminalRawBufferBytes < utf8Bytes (replacement :: text)) :
    keptBehindReplacements text = trimTerminalRawOutput text := by
  obtain ⟨more, hmore⟩ : ∃ more, terminalRawBufferBytes = more + 1 := ⟨_, rfl⟩
  rw [keptBehindReplacements, hmore, List.replicate_succ', List.append_assoc,
    List.singleton_append, trimTerminalRawOutput_append_cons hover]

theorem exists_replicate_of_kept {text : List Char}
    (hfits : ¬terminalRawBufferBytes < utf8Bytes (replacement :: text)) :
    ∃ count, keptBehindReplacements text = List.replicate count replacement ++ text := by
  have hone : replacement :: text <:+
      List.replicate terminalRawBufferBytes replacement ++ text := by
    obtain ⟨more, hmore⟩ : ∃ more, terminalRawBufferBytes = more + 1 := ⟨_, rfl⟩
    rw [hmore, List.replicate_succ', List.append_assoc]
    exact List.suffix_append _ _
  obtain ⟨front, hfront⟩ := isSuffix_trimTerminalRawOutput hone (Nat.not_lt.mp hfits)
  have hsuffix := trimTerminalRawOutput_isSuffix
    (List.replicate terminalRawBufferBytes replacement ++ text)
  rw [← hfront, List.append_cons] at hsuffix
  have hrun := (List.suffix_replicate_iff.mp (List.suffix_append_self_iff.mp hsuffix)).2
  refine ⟨(front ++ [replacement]).length, ?_⟩
  rw [keptBehindReplacements, ← hfront, List.append_cons, ← hrun]

theorem keptBehindReplacements_maximal {text : List Char} {count : Nat}
    (h : keptBehindReplacements text = List.replicate count replacement ++ text) :
    terminalRawBufferBytes <
      utf8Bytes (replacement :: (List.replicate count replacement ++ text)) := by
  by_contra hle
  rw [← List.cons_append, ← List.replicate_succ] at hle
  have hcount := Nat.not_lt.mp hle
  rw [utf8Bytes_append, utf8Bytes_replicate] at hcount
  have hmore : List.replicate (count + 1) replacement ++ text <:+
      List.replicate terminalRawBufferBytes replacement ++ text := by
    rw [List.suffix_append_self_iff, List.suffix_replicate_iff, List.length_replicate]
    exact ⟨by omega, rfl⟩
  have hlength := (isSuffix_trimTerminalRawOutput hmore (Nat.not_lt.mp hle)).length_le
  rw [keptBehindReplacements] at h
  rw [h, List.length_append, List.length_append, List.length_replicate,
    List.length_replicate] at hlength
  omega

/-- What two texts end with is replacement characters, if each run of them at the end of
the one is longer in the other. -/
theorem eq_replicate_of_runs {whole read run : List Char}
    (hruns : ∀ count, List.replicate count replacement <:+ whole →
      List.replicate (count + 1) replacement <:+ read)
    (hwhole : run <:+ whole) (hread : run <:+ read) :
    ∃ count, run = List.replicate count replacement := by
  induction run with
  | nil => exact ⟨0, rfl⟩
  | cons c run ih =>
    have hmore : run <:+ c :: run := List.suffix_cons c run
    obtain ⟨count, rfl⟩ := ih (hmore.trans hwhole) (hmore.trans hread)
    have hlonger := hruns count (hmore.trans hwhole)
    refine ⟨count + 1, (List.suffix_of_suffix_length_le hread hlonger ?_).eq_of_length ?_⟩
    all_goals simp

/-- With at least as many replacement characters in the one as in the other, the two are
kept alike only where nothing else is kept. -/
theorem trimTerminalRawOutput_eq_iff {whole read text : List Char}
    (hruns : ∀ count, List.replicate count replacement <:+ whole →
      List.replicate (count + 1) replacement <:+ read) :
    trimTerminalRawOutput (read ++ text) = trimTerminalRawOutput (whole ++ text) ↔
      trimTerminalRawOutput (whole ++ text) = keptBehindReplacements text := by
  have hfits := utf8Bytes_trimTerminalRawOutput (whole ++ text)
  have hsuffix := trimTerminalRawOutput_isSuffix (whole ++ text)
  generalize trimTerminalRawOutput (whole ++ text) = kept at *
  have hone : replacement :: text <:+ read ++ text := by
    have hrun := hruns 0 (List.nil_suffix)
    rw [List.replicate_one] at hrun
    exact (List.suffix_append_self_iff.mpr hrun : [replacement] ++ text <:+ read ++ text)
  constructor
  · intro h
    rcases List.suffix_or_suffix_of_suffix hsuffix (List.suffix_append whole text) with
      hshort | ⟨run, rfl⟩
    · -- nothing before the text is kept
      have hover : terminalRawBufferBytes < utf8Bytes (replacement :: text) := by
        by_contra hle
        have hmore := isSuffix_trimTerminalRawOutput hone (Nat.not_lt.mp hle)
        rw [h] at hmore
        have hlength := (hmore.trans hshort).length_le
        rw [List.length_cons] at hlength
        omega
      obtain ⟨front, hfront⟩ := hone
      rw [← hfront, trimTerminalRawOutput_append_cons hover] at h
      rw [← h, keptBehindReplacements_of_overflow hover]
    · have hwhole := List.suffix_append_self_iff.mp hsuffix
      have hread := trimTerminalRawOutput_isSuffix (read ++ text)
      rw [h] at hread
      have hread := List.suffix_append_self_iff.mp hread
      obtain ⟨count, rfl⟩ := eq_replicate_of_runs hruns hwhole hread
      refine (keptBehindReplacements_eq hfits ?_).symm
      by_contra hle
      have hlonger : List.replicate (count + 1) replacement ++ text <:+ read ++ text :=
        List.suffix_append_self_iff.mpr (hruns count hwhole)
      have hmore := isSuffix_trimTerminalRawOutput hlonger (Nat.not_lt.mp hle)
      rw [h] at hmore
      have hlength := hmore.length_le
      rw [List.length_append, List.length_append, List.length_replicate,
        List.length_replicate] at hlength
      omega
  · intro h
    rw [h] at hsuffix hfits ⊢
    by_cases hover : terminalRawBufferBytes < utf8Bytes (replacement :: text)
    · obtain ⟨front, hfront⟩ := hone
      rw [← hfront, trimTerminalRawOutput_append_cons hover,
        keptBehindReplacements_of_overflow hover]
    · obtain ⟨count, hkept⟩ := exists_replicate_of_kept hover
      have hnext := keptBehindReplacements_maximal hkept
      rw [hkept] at hsuffix hfits ⊢
      have hlonger : List.replicate (count + 1) replacement ++ text <:+ read ++ text :=
        List.suffix_append_self_iff.mpr (hruns count (List.suffix_append_self_iff.mp hsuffix))
      obtain ⟨front, hfront⟩ := hlonger
      rw [← hfront, List.replicate_succ, List.cons_append,
        trimTerminalRawOutput_append_cons hnext, trimTerminalRawOutput_of_fits hfits]

namespace RawOutput

theorem ingested_full {selected : Option String} {output : TerminalOutput} (raw : RawOutput)
    (hfull : output.full = true) :
    raw.ingested selected output =
      ⟨trimTerminalRawOutput (fromUtf8Lossy output.bytes).toList, selected⟩ := by
  rw [ingested, if_pos (.inl hfull), List.nil_append]

theorem ingested_delta {selected : Option String} {output : TerminalOutput} {chars : List Char}
    (hdelta : output.full = false) :
    ingested selected output ⟨chars, selected⟩ =
      ⟨trimTerminalRawOutput (chars ++ (fromUtf8Lossy output.bytes).toList), selected⟩ := by
  rw [ingested, if_neg]
  simp [hdelta]

theorem foldl_ingested_delta {selected : Option String} {outputs : List TerminalOutput}
    (hdelta : ∀ output ∈ outputs, output.full = false) (chars : List Char) :
    outputs.foldl (fun raw output => ingested selected output raw)
        ⟨trimTerminalRawOutput chars, selected⟩ =
      ⟨trimTerminalRawOutput (chars ++ frameChars (outputs.map (·.bytes))), selected⟩ := by
  induction outputs generalizing chars with
  | nil => rw [List.foldl_nil, List.map_nil, frameChars, List.flatMap_nil, List.append_nil]
  | cons output outputs ih =>
    rw [List.foldl_cons, ingested_delta (hdelta output List.mem_cons_self),
      trimTerminalRawOutput_append,
      ih fun output hmem => hdelta output (List.mem_cons_of_mem _ hmem), List.map_cons,
      frameChars, frameChars, List.flatMap_cons, List.append_assoc]

end RawOutput

/-- The text before the last torn character is out of the buffer, but for replacement
characters, of which as many are kept as fit. Nothing is asked where no cut tears one. -/
def TearsFade (frames : List (List UInt8)) : Prop :=
  ∀ text, textAfterTear (framePieces frames) = some text →
    trimTerminalRawOutput (fromUtf8Lossy frames.flatten).toList = keptBehindReplacements text

theorem map_fst_framePieces (frames : List (List UInt8)) :
    (framePieces frames).map (·.1) = (fromUtf8Lossy frames.flatten).toList := by
  rw [framePieces, map_fst_tornChars, toList_fromUtf8Lossy, lossyChars]

theorem replicate_run {pre : List (Char × Bool)} {preRead : List Char} (h : ReadAs pre preRead)
    {c : Char} {count more : Nat}
    (hrun : List.replicate count replacement <:+ pre.map (·.1) ++ [c]) :
    List.replicate (count + 1) replacement <:+
      preRead ++ List.replicate (more + 2) replacement := by
  cases count with
  | zero =>
    rw [List.replicate_succ' (n := more + 1), ← List.append_assoc, Nat.zero_add,
      List.replicate_one]
    exact List.suffix_append _ _
  | succ count =>
    rw [List.replicate_succ'] at hrun
    have hpre : List.replicate count replacement <:+ preRead := by
      rcases List.suffix_concat_iff.mp hrun with hnil | ⟨run, heq, hsuffix⟩
      · exact absurd hnil (List.append_ne_nil_of_right_ne_nil _ (List.cons_ne_nil _ _))
      · rw [← (List.append_inj' heq rfl).1] at hsuffix
        exact h.replicate_isSuffix hsuffix
    obtain ⟨front, rfl⟩ := hpre
    have hcount : count + (more + 2) = more + (count + 1 + 1) := by omega
    rw [List.append_assoc, List.replicate_append_replicate, hcount,
      ← List.replicate_append_replicate (n := more), ← List.append_assoc]
    exact List.suffix_append _ _

/-- Read frame by frame and as a whole the same is kept exactly if the tears fade. -/
theorem trimTerminalRawOutput_frameChars_iff (frames : List (List UInt8)) :
    trimTerminalRawOutput (frameChars frames) =
        trimTerminalRawOutput (fromUtf8Lossy frames.flatten).toList ↔ TearsFade frames := by
  have hread := readAs_frameChars frames
  rw [TearsFade, ← map_fst_framePieces]
  cases htext : textAfterTear (framePieces frames) with
  | none =>
    rw [hread.of_textAfterTear_none htext]
    simp
  | some text =>
    obtain ⟨pre, c, more, preRead, hpre, hwhole, hframes⟩ := hread.of_textAfterTear htext
    rw [hwhole, hframes, ← List.append_assoc, List.append_cons,
      trimTerminalRawOutput_eq_iff fun count hrun => replicate_run hpre hrun]
    simp

def TuiApp.ingestAll (text : TerminalText) (outputs : List TerminalOutput) (app : TuiApp) :
    TuiApp :=
  outputs.foldl (fun app output => app.ingestTerminalOutput text output) app

/-- The terminal's buffer holds the end of all bytes read as one text, and the tail is
what that text looks like at a width. -/
structure ShowsStream (text : TerminalText) (width : Nat) (bytes : List UInt8) (app : TuiApp) :
    Prop where
  output : app.rawOutput.output = trimTerminalRawOutput (fromUtf8Lossy bytes).toList
  tail : app.buffers.paneTailStyles =
    (text.styledLinesForWidth (trimTerminalRawOutput (fromUtf8Lossy bytes).toList) width).drop
      ((text.styledLinesForWidth (trimTerminalRawOutput (fromUtf8Lossy bytes).toList)
        width).length - tailLines)
  lines : app.buffers.paneTail =
    app.buffers.paneTailStyles.map fun line => String.ofList (line.flatMap (·.text))

theorem TuiApp.ingestTerminalOutput_rawOutput (text : TerminalText) (output : TerminalOutput)
    (app : TuiApp) :
    (app.ingestTerminalOutput text output).rawOutput =
        app.rawOutput.ingested (app.selection.pane.map (·.terminalId)) output ∧
      (app.ingestTerminalOutput text output).selection = app.selection := by
  rw [ingestTerminalOutput]
  exact ⟨rfl, rfl⟩

theorem TuiApp.ingestAll_rawOutput (text : TerminalText) (outputs : List TerminalOutput)
    (app : TuiApp) :
    (app.ingestAll text outputs).rawOutput =
      outputs.foldl (fun raw output =>
        RawOutput.ingested (app.selection.pane.map (·.terminalId)) output raw) app.rawOutput := by
  rw [ingestAll]
  induction outputs generalizing app with
  | nil => rfl
  | cons output outputs ih =>
    obtain ⟨hraw, hselection⟩ := app.ingestTerminalOutput_rawOutput text output
    rw [List.foldl_cons, List.foldl_cons, ih, hraw, hselection]

theorem PaneBuffers.syncHistorySuffix_paneTail (b : PaneBuffers) :
    b.syncHistorySuffix.paneTail = b.paneTail ∧
      b.syncHistorySuffix.paneTailStyles = b.paneTailStyles := by
  rw [syncHistorySuffix]
  split <;> exact ⟨rfl, rfl⟩

theorem TuiApp.ingestTerminalOutput_tail (text : TerminalText) (output : TerminalOutput)
    (app : TuiApp) :
    let shown := app.ingestTerminalOutput text output
    shown.buffers.paneTailStyles =
        (text.styledLinesForWidth shown.rawOutput.output output.width).drop
          ((text.styledLinesForWidth shown.rawOutput.output output.width).length - tailLines) ∧
      shown.buffers.paneTail =
        shown.buffers.paneTailStyles.map fun line => String.ofList (line.flatMap (·.text)) := by
  rw [ingestTerminalOutput]
  dsimp only [PaneBuffers.setTailFromStyledLines]
  rw [(PaneBuffers.syncHistorySuffix_paneTail _).1, (PaneBuffers.syncHistorySuffix_paneTail _).2]
  with_reducible exact ⟨rfl, rfl⟩

/-- A terminal's bytes are shown as they are in one piece, whatever frames they come in,
exactly if every character that a cut tears has left the buffer. -/
theorem ingestAll_shows_iff (text : TerminalText) (app : TuiApp) (first last : TerminalOutput)
    (outputs : List TerminalOutput) (hfull : first.full = true)
    (hdelta : ∀ output ∈ outputs, output.full = false)
    (hlast : (first :: outputs).getLast? = some last) :
    ShowsStream text last.width ((first :: outputs).map (·.bytes)).flatten
        (app.ingestAll text (first :: outputs)) ↔
      TearsFade ((first :: outputs).map (·.bytes)) := by
  have houtput : (app.ingestAll text (first :: outputs)).rawOutput.output =
      trimTerminalRawOutput (frameChars ((first :: outputs).map (·.bytes))) := by
    rw [TuiApp.ingestAll_rawOutput, List.foldl_cons, RawOutput.ingested_full _ hfull,
      RawOutput.foldl_ingested_delta hdelta, List.map_cons, frameChars, frameChars,
      List.flatMap_cons]
  rw [← trimTerminalRawOutput_frameChars_iff, ← houtput]
  refine ⟨ShowsStream.output, fun h => ?_⟩
  obtain ⟨front, hfront⟩ := List.getLast?_eq_some_iff.mp hlast
  have htail := (app.ingestAll text front).ingestTerminalOutput_tail text last
  have hstep : app.ingestAll text (first :: outputs) =
      (app.ingestAll text front).ingestTerminalOutput text last := by
    rw [hfront, TuiApp.ingestAll, List.foldl_append, List.foldl_cons, List.foldl_nil,
      ← TuiApp.ingestAll]
  rw [← hstep] at htail
  dsimp only at htail
  refine ⟨h, ?_, htail.2⟩
  rw [htail.1, h]

def blankText : TerminalText := ⟨id, fun _ _ => []⟩

def frame (full : Bool) (bytes : List UInt8) : TerminalOutput := ⟨80, full, bytes⟩

/-- The two bytes of an `é` come in one frame. -/
theorem ingestAll_shows_whole_char :
    ShowsStream blankText 80 [0x61, 0xC3, 0xA9, 0x62]
      ((TuiApp.start 1000 "main").ingestAll blankText
        [frame true [0x61, 0xC3, 0xA9], frame false [0x62]]) := by
  refine (ingestAll_shows_iff blankText (TuiApp.start 1000 "main")
    (frame true [0x61, 0xC3, 0xA9]) (frame false [0x62]) [frame false [0x62]] rfl
    (by decide) rfl).mpr fun text htext => ?_
  have hnone : textAfterTear (framePieces [[0x61, 0xC3, 0xA9], [0x62]]) = none := by
    decide +kernel
  exact absurd (hnone.symm.trans htext) (Option.some_ne_none text).symm

/-- They come in two, and are shown as two replacement characters. -/
theorem ingestAll_tears_char :
    ((TuiApp.start 1000 "main").ingestAll blankText
        [frame true [0xC3], frame false [0xA9]]).rawOutput.output = [replacement, replacement] ∧
      ¬ShowsStream blankText 80 [0xC3, 0xA9]
        ((TuiApp.start 1000 "main").ingestAll blankText
          [frame true [0xC3], frame false [0xA9]]) := by
  refine ⟨by decide +kernel, fun h => ?_⟩
  exact absurd h.output (by decide +kernel)

end HerdrWebui.Tui
