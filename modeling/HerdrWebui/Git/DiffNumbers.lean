import HerdrWebui.Git.DiffText

/-!
The line numbers of a diff. Each side of a chunk has a counter that starts at the number in
the header and goes up with each line of that side.
-/

namespace HerdrWebui.Git

theorem parseUsize_toDigits_eq (n : Nat) :
    parseUsize (String.ofList (Nat.toDigits 10 n)) = if n < 2 ^ 64 then some n else none := by
  have hdigits : ∀ c ∈ Nat.toDigits 10 n, c.isDigit = true := fun c => isDigit_toDigits
  have hvalue := Nat.ofDigitChars_ten_toDigits (n := n)
  rw [Nat.ofDigitChars_eq_foldl] at hvalue
  have hne : Nat.toDigits 10 n ≠ [] := Nat.toDigits_ne_nil
  unfold parseUsize
  rw [String.toList_ofList]
  generalize Nat.toDigits 10 n = digits at hdigits hvalue hne
  have hall : digits ≠ [] ∧ digits.all Char.isDigit = true := ⟨hne, List.all_eq_true.mpr hdigits⟩
  split
  · next rest =>
      have hplus := hdigits '+' List.mem_cons_self
      exact absurd hplus (by decide)
  · simp only [if_pos hall, hvalue]

theorem parseUsize_toDigits {n : Nat} (h : n < 2 ^ 64) :
    parseUsize (String.ofList (Nat.toDigits 10 n)) = some n := by
  rw [parseUsize_toDigits_eq, if_pos h]

theorem comma_not_mem_toDigits (n : Nat) : ',' ∉ Nat.toDigits 10 n := fun hmem =>
  absurd (isDigit_toDigits hmem) (by decide)

theorem hunkRange_printRange {mark : Char} (hmark : mark.isDigit = false) {start count : Nat}
    (h : start + count < 2 ^ 64) :
    hunkRange mark (String.ofList (mark :: printRange start count)) = (start, count) := by
  have hstart : (mark :: printRange start count).dropWhile (· = mark) = printRange start count := by
    obtain ⟨digit, digits, hdigits⟩ := List.exists_cons_of_ne_nil
      (Nat.toDigits_ne_nil (n := start) (b := 10))
    have hdigit : digit ≠ mark := by
      rintro rfl
      have hmem := isDigit_toDigits (n := start) (by rw [hdigits]; exact List.mem_cons_self)
      exact Bool.false_ne_true (hmark.symm.trans hmem)
    rw [List.dropWhile_cons_of_pos (by simp), printRange, hdigits, List.cons_append,
      List.dropWhile_cons_of_neg (by simpa using hdigit)]
  rw [hunkRange, String.toList_ofList, hstart, printRange]
  by_cases hone : count = 1
  · rw [if_pos hone, List.append_nil, List.splitOn_eq_singleton (comma_not_mem_toDigits start)]
    simp [parseUsize_toDigits (show start < 2 ^ 64 by omega), hone]
  · rw [if_neg hone, List.splitOn_append_cons_self_of_not_mem (comma_not_mem_toDigits start),
      List.splitOn_eq_singleton (comma_not_mem_toDigits count)]
    simp [parseUsize_toDigits (show start < 2 ^ 64 by omega),
      parseUsize_toDigits (show count < 2 ^ 64 by omega)]

theorem splitWhitespace_cons {word : List Char} (hword : ∀ c ∈ word, isWhitespace c = false)
    (hne : word ≠ []) (rest : List Char) :
    splitWhitespace (String.ofList (word ++ ' ' :: rest)) =
      String.ofList word :: splitWhitespace (String.ofList rest) := by
  rw [splitWhitespace, splitWhitespace, String.toList_ofList, String.toList_ofList,
    List.splitOnP_append_cons_of_forall_mem hword ' ' (by decide),
    List.filter_cons_of_pos (by simpa using hne), List.map_cons]

theorem isWhitespace_marked {mark : Char} (hmark : isWhitespace mark = false) (start count : Nat) :
    ∀ c ∈ mark :: printRange start count, isWhitespace c = false := by
  rw [List.forall_mem_cons]
  exact ⟨hmark, fun c => isWhitespace_range⟩

theorem dropCr_header (hunk : DiffHunk) :
    ∃ rest, dropCr (String.ofList hunk.header) = String.ofList ("@@".toList ++
      (' ' :: (('-' :: printRange hunk.oldStart hunk.oldLines) ++
        (' ' :: (('+' :: printRange hunk.newStart hunk.newLines) ++ (' ' :: rest)))))) := by
  have hfront : Unbroken (String.ofList ("@@ -".toList ++ (printRange hunk.oldStart hunk.oldLines ++
      (" +".toList ++ (printRange hunk.newStart hunk.newLines ++ " @@".toList))))) := by
    simp [Unbroken, unbroken_range]
  have hsplit : String.ofList hunk.header = String.ofList ("@@ -".toList ++
      (printRange hunk.oldStart hunk.oldLines ++ (" +".toList ++
        (printRange hunk.newStart hunk.newLines ++ " @@".toList)))) ++
          String.ofList hunk.heading := by
    simp [DiffHunk.header, ← String.toList_inj]
  refine ⟨"@@".toList ++ (dropCr (String.ofList hunk.heading)).toList, ?_⟩
  rw [hsplit, dropCr_append hfront, ← String.toList_inj]
  simp

theorem parseHunkHeader_header (hunk : DiffHunk) :
    parseHunkHeader (dropCr (String.ofList hunk.header)) =
      ((hunk.oldStart, hunk.oldLines), (hunk.newStart, hunk.newLines)) := by
  obtain ⟨rest, hrest⟩ := dropCr_header hunk
  have hwords : splitWhitespace (dropCr (String.ofList hunk.header)) =
      "@@" :: String.ofList ('-' :: printRange hunk.oldStart hunk.oldLines) ::
        String.ofList ('+' :: printRange hunk.newStart hunk.newLines) ::
          splitWhitespace (String.ofList rest) := by
    rw [hrest, splitWhitespace_cons (forall_mem_of_all (by decide)) (by decide),
      splitWhitespace_cons (isWhitespace_marked (by decide) _ _) (List.cons_ne_nil _ _),
      splitWhitespace_cons (isWhitespace_marked (by decide) _ _) (List.cons_ne_nil _ _)]
    rfl
  have hold : hunk.oldStart + hunk.oldLines < 2 ^ 64 := hunk.old_fits
  have hnew : hunk.newStart + hunk.newLines < 2 ^ 64 := hunk.new_fits
  unfold parseHunkHeader
  rw [hwords]
  simp only
  rw [hunkRange_printRange (by decide) hold, hunkRange_printRange (by decide) hnew]

/-- The numbers that the lines of a side have: a side has no line of the other mark. -/
def sideNumbers (skip : LineType) (number : GitDiffLine → Option Nat)
    (diffLines : List GitDiffLine) : List (Option Nat) :=
  (diffLines.filter (·.lineType ≠ skip)).map number

def numberedFrom (start count : Nat) : List (Option Nat) :=
  (List.range count).map fun k => some (start + k)

theorem numberedFrom_succ (start count : Nat) :
    numberedFrom start (count + 1) = numberedFrom start count ++ [some (start + count)] := by
  simp [numberedFrom, List.range_succ]

theorem sideNumbers_concat {skip : LineType} {number : GitDiffLine → Option Nat}
    {diffLines : List GitDiffLine} {start : Nat} {kinds : List LineType}
    (h : sideNumbers skip number diffLines = numberedFrom start (kinds.countP (· ≠ skip)))
    {diffLine : GitDiffLine}
    (hnumber : diffLine.lineType ≠ skip →
      number diffLine = some (start + kinds.countP (· ≠ skip))) :
    sideNumbers skip number (diffLines ++ [diffLine]) =
      numberedFrom start ((kinds ++ [diffLine.lineType]).countP (· ≠ skip)) := by
  rw [sideNumbers] at h ⊢
  rw [List.filter_append, List.map_append, h, List.countP_append]
  by_cases hskip : diffLine.lineType = skip
  · simp [hskip]
  · have hone : [diffLine.lineType].countP (· ≠ skip) = 1 := by simp [hskip]
    rw [hone, numberedFrom_succ]
    simp [hskip, hnumber hskip]

/-- A chunk has the numbers of a hunk up to some of its lines. -/
structure NumberedAs (hunk : DiffHunk) (read : List LineType) (chunk : GitDiffChunk) : Prop where
  oldStart : chunk.oldStart = hunk.oldStart
  oldLines : chunk.oldLines = hunk.oldLines
  newStart : chunk.newStart = hunk.newStart
  newLines : chunk.newLines = hunk.newLines
  lineTypes : chunk.lines.map (·.lineType) = read
  old : sideNumbers .add (·.oldLineNumber) chunk.lines =
    numberedFrom chunk.oldStart (read.countP (· ≠ .add))
  new : sideNumbers .delete (·.newLineNumber) chunk.lines =
    numberedFrom chunk.newStart (read.countP (· ≠ .delete))

/-- The chunk is being read, and the counters are at the next numbers. -/
structure ReadUpTo (hunk : DiffHunk) (read : List LineType) (chunk : GitDiffChunk)
    (reader : ChunkReader) : Prop extends NumberedAs hunk read chunk where
  current : reader.current = some chunk
  oldLine : reader.oldLine = chunk.oldStart + read.countP (· ≠ .add)
  newLine : reader.newLine = chunk.newStart + read.countP (· ≠ .delete)

theorem readLine_numbered {hunk : DiffHunk} {read : List LineType} {chunk : GitDiffChunk}
    {reader : ChunkReader} (h : ReadUpTo hunk read chunk reader) {line : String} {mark : LineType}
    {content : List Char} (hline : line.toList = markChar mark :: content) :
    ∃ chunk', ReadUpTo hunk (read ++ [mark]) chunk' (reader.readLine line) ∧
      (reader.readLine line).chunks = reader.chunks := by
  have hprefix : hasPrefix "@@" line = false := by
    apply hasPrefix_eq_false rfl hline
    cases mark <;> decide
  rw [ChunkReader.readLine, hprefix, if_neg Bool.false_ne_true, h.current, hline]
  simp only [lineType?_markChar]
  refine ⟨_, ⟨⟨?_, ?_, ?_, ?_, ?_, ?_, ?_⟩, rfl, ?_, ?_⟩, trivial⟩
  · exact h.oldStart
  · exact h.oldLines
  · exact h.newStart
  · exact h.newLines
  · simp [h.lineTypes]
  · apply sideNumbers_concat h.old
    intro hmark
    rw [if_pos hmark, h.oldLine]
  · apply sideNumbers_concat h.new
    intro hmark
    rw [if_pos hmark, h.newLine]
  · have hcounter := h.oldLine
    rw [List.countP_append]
    cases mark <;> simp [hcounter, Nat.add_assoc]
  · have hcounter := h.newLine
    rw [List.countP_append]
    cases mark <;> simp [hcounter, Nat.add_assoc]

/-- Neither the old nor the new number of a line that is not read is used up. -/
theorem readLine_hunkText {hunk : DiffHunk} {read : List LineType} {chunk : GitDiffChunk}
    {reader : ChunkReader} (h : ReadUpTo hunk read chunk reader) (line : HunkText) :
    ∃ chunk', ReadUpTo hunk (read ++ line.mark?.toList) chunk'
        (reader.readLine (dropCr (String.ofList line.chars))) ∧
      (reader.readLine (dropCr (String.ofList line.chars))).chunks = reader.chunks := by
  cases line with
  | text mark content noFeed =>
    have hline : (dropCr (String.ofList (markChar mark :: content))).toList =
        markChar mark :: (dropCr (String.ofList content)).toList := by
      cases mark <;> exact dropCr_cons (by decide) (by decide) content
    exact readLine_numbered h hline
  | noNewline =>
    have hline : (dropCr (String.ofList HunkText.noNewline.chars)).toList = noNewlineMark := by
      decide +kernel
    rw [readLine_unmarked hline (by decide) (by decide)]
    refine ⟨chunk, ?_, rfl⟩
    rwa [HunkText.mark?, Option.toList_none, List.append_nil]

theorem readLine_hunkTexts {hunk : DiffHunk} {read : List LineType} {chunk : GitDiffChunk}
    {reader : ChunkReader} (h : ReadUpTo hunk read chunk reader) (body : List HunkText) :
    ∃ chunk', ReadUpTo hunk (read ++ marks body) chunk'
        ((body.map fun line => dropCr (String.ofList line.chars)).foldl
          ChunkReader.readLine reader) ∧
      ((body.map fun line => dropCr (String.ofList line.chars)).foldl
        ChunkReader.readLine reader).chunks = reader.chunks := by
  induction body generalizing read chunk reader with
  | nil => exact ⟨chunk, by simpa [marks] using h, rfl⟩
  | cons line body ih =>
    obtain ⟨chunk₁, hread₁, hchunks₁⟩ := readLine_hunkText h line
    obtain ⟨chunk₂, hread₂, hchunks₂⟩ := ih hread₁
    have hmarks : read ++ marks (line :: body) = read ++ line.mark?.toList ++ marks body := by
      cases hmark : line.mark? <;> simp [marks, hmark]
    rw [List.map_cons, List.foldl_cons, hmarks]
    exact ⟨chunk₂, hread₂, hchunks₂.trans hchunks₁⟩

theorem readLine_hunkHeader (reader : ChunkReader) (hunk : DiffHunk) :
    ∃ chunk, ReadUpTo hunk [] chunk (reader.readLine (dropCr (String.ofList hunk.header))) ∧
      (reader.readLine (dropCr (String.ofList hunk.header))).chunks =
        reader.chunks ++ reader.current.toList := by
  have hprefix : hasPrefix "@@" (dropCr (String.ofList hunk.header)) = true := by
    obtain ⟨rest, hrest⟩ := dropCr_header hunk
    rw [hrest, String.ofList_append]
    exact hasPrefix_append "@@" _
  rw [ChunkReader.readLine, if_pos hprefix, parseHunkHeader_header]
  exact ⟨_, ⟨⟨rfl, rfl, rfl, rfl, rfl, rfl, rfl⟩, rfl, rfl, rfl⟩, rfl⟩

theorem readLine_diffHunk (reader : ChunkReader) (hunk : DiffHunk) :
    ∃ chunk, NumberedAs hunk (marks hunk.body) chunk ∧
      ((hunk.lines.map fun l => dropCr (String.ofList l)).foldl
        ChunkReader.readLine reader).chunks = reader.chunks ++ reader.current.toList ∧
      ((hunk.lines.map fun l => dropCr (String.ofList l)).foldl
        ChunkReader.readLine reader).current = some chunk := by
  obtain ⟨chunk, hread, hchunks⟩ := readLine_hunkHeader reader hunk
  obtain ⟨chunk', hread', hchunks'⟩ := readLine_hunkTexts hread hunk.body
  rw [DiffHunk.lines, List.map_cons, List.map_map, List.foldl_cons]
  exact ⟨chunk', hread'.toNumberedAs, hchunks'.trans hchunks, hread'.current⟩

theorem readLine_diffHunks (reader : ChunkReader) (hunks : List DiffHunk) :
    ∃ chunks, List.Forall₂ (fun hunk => NumberedAs hunk (marks hunk.body)) hunks chunks ∧
      (((hunks.flatMap DiffHunk.lines).map fun l => dropCr (String.ofList l)).foldl
          ChunkReader.readLine reader).chunks ++
        (((hunks.flatMap DiffHunk.lines).map fun l => dropCr (String.ofList l)).foldl
          ChunkReader.readLine reader).current.toList =
      reader.chunks ++ reader.current.toList ++ chunks := by
  induction hunks generalizing reader with
  | nil => exact ⟨[], .nil, (List.append_nil _).symm⟩
  | cons hunk hunks ih =>
    obtain ⟨chunk, hchunk, hchunks, hcurrent⟩ := readLine_diffHunk reader hunk
    rw [List.flatMap_cons, List.map_append, List.foldl_append]
    obtain ⟨chunks, hmore, hread⟩ := ih
      ((hunk.lines.map fun l => dropCr (String.ofList l)).foldl ChunkReader.readLine reader)
    refine ⟨chunk :: chunks, .cons hchunk hmore, ?_⟩
    rw [hread, hchunks, hcurrent]
    simp

theorem readChunks_hunkTexts (change : FileChange) :
    List.Forall₂ (fun hunk => NumberedAs hunk (marks hunk.body)) change.hunks
      (readChunks change.hunkTexts) := by
  obtain ⟨chunks, hnumbered, hread⟩ := readLine_diffHunks ⟨[], none, 0, 0⟩ change.hunks
  have hchunks : readChunks change.hunkTexts = chunks := hread
  rwa [hchunks]

theorem countLines_numbered {hunks : List DiffHunk} {chunks : List GitDiffChunk}
    (h : List.Forall₂ (fun hunk => NumberedAs hunk (marks hunk.body)) hunks chunks)
    (mark : LineType) :
    countLines chunks mark = (hunks.map fun hunk => (marks hunk.body).count mark).sum := by
  induction h with
  | nil => rfl
  | @cons hunk chunk hunks chunks hchunk hmore ih =>
    have hcons : countLines (chunk :: chunks) mark =
        chunk.lines.countP (·.lineType = mark) + countLines chunks mark := by
      simp [countLines]
    have hcount : (chunk.lines.map (·.lineType)).count mark =
        chunk.lines.countP (·.lineType = mark) := by
      rw [List.count, List.countP_map]
      exact List.countP_congr fun diffLine _ => by simp
    rw [hcons, ih, List.map_cons, List.sum_cons, ← hchunk.lineTypes, hcount]

/-- The one file that is read has a chunk with the numbers of each hunk, and the totals of all
of them. -/
theorem parseUnifiedDiff_numbers (change : FileChange) (hunks : List DiffHunk)
    (hbody : change.body = .hunks hunks) :
    ∃ file, parseUnifiedDiff change.text = [file] ∧
      List.Forall₂ (fun hunk => NumberedAs hunk (marks hunk.body)) hunks file.chunks ∧
      file.additions = countLines file.chunks .add ∧
      file.deletions = countLines file.chunks .delete ∧
      file.additions = (hunks.map fun hunk => (marks hunk.body).count .add).sum ∧
      file.deletions = (hunks.map fun hunk => (marks hunk.body).count .delete).sum := by
  have hhunks : change.hunks = hunks := by rw [FileChange.hunks, hbody]
  have hnamed : (change.readFile (readChunks change.hunkTexts)).isSome = true := by
    rw [isSome_readFile, FileChange.namesPath, FileChange.minus?, hbody]
    rfl
  obtain ⟨file, hfile⟩ := Option.isSome_iff_exists.mp hnamed
  have hnumbers := readChunks_hunkTexts change
  rw [hhunks] at hnumbers
  obtain ⟨path, -, hread⟩ := Option.map_eq_some_iff.mp hfile
  refine ⟨file, ?_, ?_⟩
  · rw [parseUnifiedDiff_text, parseBlock_text, hfile, Option.toList_some]
  · subst hread
    exact ⟨hnumbers, rfl, rfl, countLines_numbered hnumbers .add,
      countLines_numbered hnumbers .delete⟩

theorem parseUnifiedDiff_imitating :
    ∃ file, parseUnifiedDiff imitatingChange.text = [file] ∧
      List.Forall₂ (fun hunk => NumberedAs hunk (marks hunk.body)) [imitatingHunk] file.chunks ∧
      file.additions = countLines file.chunks .add ∧
      file.deletions = countLines file.chunks .delete ∧
      file.additions = ([imitatingHunk].map fun hunk => (marks hunk.body).count .add).sum ∧
      file.deletions = ([imitatingHunk].map fun hunk => (marks hunk.body).count .delete).sum :=
  parseUnifiedDiff_numbers imitatingChange [imitatingHunk] rfl

end HerdrWebui.Git
