import HerdrWebui.Data.Utf8Text
import HerdrWebui.Git.Processes
import HerdrWebui.Git.StatusPaths

/-!
The patch of one chunk against the hunk git printed. The diff of a file is read as text,
without the carriage returns at the ends of its lines and without the marks of missing
line feeds, and what was read is printed again under a header that has both names.
-/

namespace HerdrWebui.Git

inductive HunkLine where
  | text (mark : LineType) (content : List UInt8) (noBreak : 0x0a ∉ content)
  | noNewline

def markChar : LineType → Char
  | .add => '+'
  | .delete => '-'
  | .normal => ' '

/-- What is printed behind a line that has no line feed in its file. -/
def noNewlineMark : List Char := "\\ No newline at end of file".toList

def HunkLine.bytes : HunkLine → List UInt8
  | .text mark content _ => utf8 [markChar mark] ++ content
  | .noNewline => utf8 noNewlineMark

/-- The ranges, and what is behind them in the line of the header. -/
structure HunkHeader where
  rest : List UInt8
  noBreak : 0x0a ∉ rest

def HunkHeader.bytes (header : HunkHeader) : List UInt8 := utf8 "@@".toList ++ header.rest

structure Hunk where
  header : HunkHeader
  body : List HunkLine

def Hunk.lines (hunk : Hunk) : List (List UInt8) :=
  hunk.header.bytes :: hunk.body.map HunkLine.bytes

inductive ExtendedKeyword where
  | oldMode
  | newMode
  | newFileMode
  | deletedFileMode
  | index
  deriving DecidableEq, Repr

def ExtendedKeyword.chars : ExtendedKeyword → List Char
  | .oldMode => "old mode ".toList
  | .newMode => "new mode ".toList
  | .newFileMode => "new file mode ".toList
  | .deletedFileMode => "deleted file mode ".toList
  | .index => "index ".toList

/-- A line between the first and the names of the two sides. -/
structure ExtendedLine where
  keyword : ExtendedKeyword
  rest : List UInt8
  noBreak : 0x0a ∉ rest

def ExtendedLine.bytes (line : ExtendedLine) : List UInt8 :=
  utf8 line.keyword.chars ++ line.rest

inductive FileKind where
  | modified
  | created
  | deleted
  deriving DecidableEq, Repr

structure FileDiff where
  kind : FileKind
  name : GitName
  extended : List ExtendedLine
  hunks : List Hunk

/-- A name under the prefix of its side, quoted as a whole where it has to be. -/
def sideName (side : UInt8) (name : GitName) : List Char :=
  printName (side :: 0x2f :: name.bytes)

def gitLine (name : GitName) : List Char :=
  "diff --git ".toList ++ (sideName 0x61 name ++ ' ' :: sideName 0x62 name)

def devNull : List Char := "/dev/null".toList

def FileDiff.oldName (diff : FileDiff) : List Char :=
  if diff.kind = .created then devNull else sideName 0x61 diff.name

def FileDiff.newName (diff : FileDiff) : List Char :=
  if diff.kind = .deleted then devNull else sideName 0x62 diff.name

def nameEnd (shown : List Char) : List Char := if ' ' ∈ shown then ['\t'] else []

def minusLine (shown tail : List Char) : List Char := "--- ".toList ++ (shown ++ tail)

def plusLine (shown tail : List Char) : List Char := "+++ ".toList ++ (shown ++ tail)

def FileDiff.lines (diff : FileDiff) : List (List UInt8) :=
  utf8 (gitLine diff.name) :: diff.extended.map ExtendedLine.bytes ++
    [utf8 (minusLine diff.oldName (nameEnd diff.oldName)),
      utf8 (plusLine diff.newName (nameEnd diff.newName))] ++
    diff.hunks.flatMap Hunk.lines

def FileDiff.bytes (diff : FileDiff) : List UInt8 := endedLines diff.lines

/-- The header of a patch for the file. It may do without the extended lines and without
the tabs. -/
def IsHeaderOf (diff : FileDiff) (header : List (List UInt8)) : Prop :=
  ∃ (extended : List ExtendedLine) (tail tail' : List Char), extended.Sublist diff.extended ∧
    tail ∈ [[], ['\t']] ∧ tail' ∈ [[], ['\t']] ∧
    header = utf8 (gitLine diff.name) :: extended.map ExtendedLine.bytes ++
      [utf8 (minusLine diff.oldName tail), utf8 (plusLine diff.newName tail')]

/-- A header for the file, and then the bytes of the hunk. -/
def IsPatchOf (diff : FileDiff) (hunk : Hunk) (patch : String) : Prop :=
  ∃ header, IsHeaderOf diff header ∧ pathBytes patch = endedLines (header ++ hunk.lines)

/-- A line that is read as it is: of a text, and without a carriage return at its end. -/
def IsKept (line : List UInt8) : Prop := IsUtf8 line ∧ line.getLast? ≠ some 0x0d

theorem not_infix_of_not_mem {marker chars : List Char} {c : Char} (hc : c ∈ marker)
    (h : c ∉ chars) : ¬marker <:+: chars :=
  fun hwithin => h (hwithin.subset hc)

theorem stripPrefix_side {side : Char} (hside : side = 'a' ∨ side = 'b') (name : List Char) :
    ((stripPrefix "a/" (String.ofList (side :: '/' :: name))).or
      (stripPrefix "b/" (String.ofList (side :: '/' :: name)))).getD
        (String.ofList (side :: '/' :: name)) = String.ofList name := by
  rcases hside with rfl | rfl
  · have hfront : String.ofList ('a' :: '/' :: name) = "a/" ++ String.ofList name := by
      simp [← String.toList_inj]
    rw [hfront, stripPrefix_append]
    rfl
  · have hfront : String.ofList ('b' :: '/' :: name) = "b/" ++ String.ofList name := by
      simp [← String.toList_inj]
    have hother : hasPrefix "a/" (String.ofList ('b' :: '/' :: name)) = false :=
      hasPrefix_eq_false (c := 'a') (d := 'b') rfl String.toList_ofList (by decide)
    rw [stripPrefix, hother, hfront, stripPrefix_append]
    rfl

theorem parseDiffPath_plain {side : Char} (hside : side = 'a' ∨ side = 'b') {chars : List Char}
    (hplain : '\\' ∉ chars) {tail : List Char} (htail : ∀ c ∈ tail, isWhitespace c = true) :
    parseDiffPath (String.ofList (side :: '/' :: chars ++ tail)) =
      some (String.ofList (chars.rdropWhile isWhitespace)) := by
  have hblank : isWhitespace side = false := by rcases hside with rfl | rfl <;> decide
  have htrim : trim (String.ofList (side :: '/' :: chars ++ tail)) =
      String.ofList (side :: '/' :: chars.rdropWhile isWhitespace) := by
    have hslash := rdropWhile_append_cons (p := isWhitespace) (c := '/') (by decide) [side] chars
    rw [trim_eq, String.toList_ofList, List.cons_append, List.dropWhile_cons, hblank,
      if_neg Bool.false_ne_true, ← List.cons_append, rdropWhile_append_of_all htail]
    exact congrArg String.ofList hslash
  have hname : '\\' ∉ chars.rdropWhile isWhitespace := fun hmem =>
    hplain ((List.rdropWhile_prefix isWhitespace chars).subset hmem)
  generalize chars.rdropWhile isWhitespace = name at htrim hname
  have hnull : String.ofList (side :: '/' :: name) ≠ "/dev/null" := by
    intro heq
    have hchars := congrArg String.toList heq
    rw [String.toList_ofList] at hchars
    rcases hside with rfl | rfl <;> exact absurd (List.cons.inj hchars).1 (by decide)
  have hquote : ¬((String.ofList (side :: '/' :: name)).toList.head? = some (Char.ofNat 0x22) ∧
      (String.ofList (side :: '/' :: name)).toList.getLast? = some (Char.ofNat 0x22) ∧
      2 ≤ (String.ofList (side :: '/' :: name)).length) := by
    rintro ⟨hfirst, -⟩
    rw [String.toList_ofList, List.head?_cons, Option.some.injEq] at hfirst
    rcases hside with rfl | rfl <;> exact absurd hfirst (by decide)
  have hwithin {src : String} (hsrc : '\\' ∈ src.toList) :
      ¬src.toList <:+: (String.ofList name).toList := by
    rw [String.toList_ofList]
    exact not_infix_of_not_mem hsrc hname
  rw [parseDiffPath]
  simp only [htrim]
  rw [if_neg hnull, if_neg hquote, stripPrefix_side hside, replaceStr_of_not_infix (hwithin (by decide)),
    replaceStr_of_not_infix (hwithin (by decide))]

theorem parseDiffPath_devNull : parseDiffPath "/dev/null" = none := by decide +kernel

def HunkLine.isText : HunkLine → Bool
  | .text .. => true
  | .noNewline => false

def Hunk.kept (hunk : Hunk) : List (List UInt8) :=
  hunk.header.bytes :: (hunk.body.filter HunkLine.isText).map HunkLine.bytes

def printedLines (chunk : GitDiffChunk) : List String :=
  chunk.header :: chunk.lines.map fun line => linePrefix line.lineType ++ line.content

theorem readLine_header (reader : ChunkReader) (header : HunkHeader) :
    ∃ chunk, printedLines chunk = [readLineText header.bytes] ∧
      (reader.readLine (readLineText header.bytes)).chunks =
        reader.chunks ++ reader.current.toList ∧
      (reader.readLine (readLineText header.bytes)).current = some chunk := by
  have hline : (readLineText header.bytes).toList =
      "@@".toList ++ (readLineText header.rest).toList := readLineText_append (by decide) _
  have hprefix : hasPrefix "@@" (readLineText header.bytes) = true := by
    rw [hasPrefix, hline, List.isPrefixOf_iff_prefix]
    exact List.prefix_append _ _
  rw [ChunkReader.readLine, if_pos hprefix]
  exact ⟨_, rfl, rfl, rfl⟩

theorem lineType?_markChar (mark : LineType) : lineType? (markChar mark) = some mark := by
  cases mark <;> rfl

theorem readLine_marked {reader : ChunkReader} {chunk : GitDiffChunk}
    (hcurrent : reader.current = some chunk) {line : String} {mark : LineType}
    {content : List Char} (hline : line.toList = markChar mark :: content) :
    ∃ chunk', printedLines chunk' = printedLines chunk ++ [line] ∧
      (reader.readLine line).chunks = reader.chunks ∧
      (reader.readLine line).current = some chunk' := by
  have hprefix : hasPrefix "@@" line = false := by
    apply hasPrefix_eq_false rfl hline
    cases mark <;> decide
  have hshown : linePrefix mark ++ String.ofList content = line := by
    rw [← String.toList_inj, String.toList_append, hline, String.toList_ofList]
    cases mark <;> rfl
  rw [ChunkReader.readLine, hprefix, if_neg Bool.false_ne_true, hcurrent, hline]
  simp only [lineType?_markChar]
  refine ⟨_, ?_, trivial, rfl⟩
  simp only [printedLines, List.map_append, List.map_cons, List.map_nil, hshown,
    List.cons_append]

theorem readLine_unmarked {reader : ChunkReader} {line : String} {first : Char}
    {content : List Char} (hline : line.toList = first :: content) (hfirst : '@' ≠ first)
    (hmark : lineType? first = none) : reader.readLine line = reader := by
  have hprefix : hasPrefix "@@" line = false := hasPrefix_eq_false rfl hline hfirst
  rw [ChunkReader.readLine, hprefix, if_neg Bool.false_ne_true, hline]
  cases hcurrent : reader.current with
  | none => rfl
  | some chunk => simp only [hmark]

theorem readLine_text {reader : ChunkReader} {chunk : GitDiffChunk}
    (hcurrent : reader.current = some chunk) (line : HunkLine) :
    ∃ chunk', printedLines chunk' =
        printedLines chunk ++ (if line.isText then [readLineText line.bytes] else []) ∧
      (reader.readLine (readLineText line.bytes)).chunks = reader.chunks ∧
      (reader.readLine (readLineText line.bytes)).current = some chunk' := by
  cases line with
  | text mark content noBreak =>
    have hreturn : '\r' ∉ [markChar mark] := by cases mark <;> decide
    exact readLine_marked hcurrent (readLineText_append hreturn content)
  | noNewline =>
    have hline : (readLineText HunkLine.noNewline.bytes).toList = noNewlineMark := by
      change (readLineText (utf8 noNewlineMark)).toList = noNewlineMark
      rw [readLineText_utf8 (by decide), String.toList_ofList]
    rw [readLine_unmarked hline (by decide) (by decide)]
    exact ⟨chunk, (List.append_nil _).symm, rfl, hcurrent⟩

theorem readLine_body {reader : ChunkReader} {chunk : GitDiffChunk}
    (hcurrent : reader.current = some chunk) (body : List HunkLine) :
    ∃ chunk', printedLines chunk' =
        printedLines chunk ++
          ((body.filter HunkLine.isText).map HunkLine.bytes).map readLineText ∧
      (((body.map HunkLine.bytes).map readLineText).foldl ChunkReader.readLine reader).chunks =
        reader.chunks ∧
      (((body.map HunkLine.bytes).map readLineText).foldl ChunkReader.readLine reader).current =
        some chunk' := by
  induction body generalizing reader chunk with
  | nil => exact ⟨chunk, (List.append_nil _).symm, rfl, hcurrent⟩
  | cons line body ih =>
    obtain ⟨chunk₁, hprinted₁, hchunks₁, hcurrent₁⟩ := readLine_text hcurrent line
    obtain ⟨chunk₂, hprinted₂, hchunks₂, hcurrent₂⟩ := ih hcurrent₁
    rw [List.map_cons, List.map_cons, List.foldl_cons, hchunks₂, hcurrent₂]
    refine ⟨chunk₂, ?_, hchunks₁, rfl⟩
    rw [hprinted₂, hprinted₁, List.append_assoc]
    cases hline : line.isText with
    | true => rw [List.filter_cons, hline]; rfl
    | false => rw [List.filter_cons, hline]; rfl

theorem readLine_hunk (reader : ChunkReader) (hunk : Hunk) :
    ∃ chunk, printedLines chunk = hunk.kept.map readLineText ∧
      ((hunk.lines.map readLineText).foldl ChunkReader.readLine reader).chunks =
        reader.chunks ++ reader.current.toList ∧
      ((hunk.lines.map readLineText).foldl ChunkReader.readLine reader).current = some chunk := by
  obtain ⟨chunk, hprinted, hchunks, hcurrent⟩ := readLine_header reader hunk.header
  obtain ⟨chunk', hprinted', hchunks', hcurrent'⟩ := readLine_body hcurrent hunk.body
  rw [Hunk.lines, List.map_cons, List.foldl_cons, hchunks', hcurrent']
  refine ⟨chunk', ?_, hchunks, rfl⟩
  rw [hprinted', hprinted]
  rfl

theorem readLine_hunks (reader : ChunkReader) (hunks : List Hunk) :
    ∃ chunks, chunks.map printedLines = hunks.map (fun hunk => hunk.kept.map readLineText) ∧
      (((hunks.flatMap Hunk.lines).map readLineText).foldl ChunkReader.readLine reader).chunks ++
        (((hunks.flatMap Hunk.lines).map readLineText).foldl
          ChunkReader.readLine reader).current.toList =
      reader.chunks ++ reader.current.toList ++ chunks := by
  induction hunks generalizing reader with
  | nil => exact ⟨[], rfl, (List.append_nil _).symm⟩
  | cons hunk hunks ih =>
    obtain ⟨chunk, hprinted, hchunks, hcurrent⟩ := readLine_hunk reader hunk
    rw [List.flatMap_cons, List.map_append, List.foldl_append]
    obtain ⟨chunks, hmore, hread⟩ :=
      ih ((hunk.lines.map readLineText).foldl ChunkReader.readLine reader)
    refine ⟨chunk :: chunks, ?_, ?_⟩
    · rw [List.map_cons, List.map_cons, hprinted, hmore]
    · rw [hread, hchunks, hcurrent]
      simp

theorem readLine_front {ls : List String} (h : ∀ line ∈ ls, hasPrefix "@@" line = false) :
    ls.foldl ChunkReader.readLine ⟨[], none, 0, 0⟩ = ⟨[], none, 0, 0⟩ := by
  induction ls with
  | nil => rfl
  | cons line ls ih =>
    rw [List.forall_mem_cons] at h
    have hskip : ChunkReader.readLine ⟨[], none, 0, 0⟩ line = ⟨[], none, 0, 0⟩ := by
      rw [ChunkReader.readLine, if_neg (by rw [h.1]; exact Bool.false_ne_true)]
    rw [List.foldl_cons, hskip, ih h.2]

theorem readChunks_hunks {front : List String} (h : ∀ line ∈ front, hasPrefix "@@" line = false)
    (hunks : List Hunk) :
    (readChunks (front ++ (hunks.flatMap Hunk.lines).map readLineText)).map printedLines =
      hunks.map fun hunk => hunk.kept.map readLineText := by
  obtain ⟨chunks, hprinted, hread⟩ := readLine_hunks ⟨[], none, 0, 0⟩ hunks
  rw [← hprinted, readChunks, List.foldl_append, readLine_front h]
  exact congrArg (List.map printedLines) hread

/-- The two differ at a place that both have. -/
def clash (marker front : List Char) : Bool := (marker.zip front).any fun pair => pair.1 ≠ pair.2

theorem not_prefix_of_clash {marker front : List Char} (h : clash marker front = true)
    (rest : List Char) : ¬marker <+: front ++ rest := by
  induction marker generalizing front with
  | nil => simp [clash] at h
  | cons m marker ih =>
    cases front with
    | nil => simp [clash] at h
    | cons c front =>
      rw [List.cons_append, List.cons_prefix_cons]
      rintro ⟨rfl, hrest⟩
      have hmore : clash marker front = true := by simpa [clash] using h
      exact ih hmore hrest

def Starts (front : List Char) (line : List UInt8) : Prop := ∃ rest, line = utf8 front ++ rest

theorem hasPrefix_of_clash {front : List Char} {line : List UInt8} (hstart : Starts front line)
    (hreturn : '\r' ∉ front) {pre : String} (h : clash pre.toList front = true) :
    hasPrefix pre (readLineText line) = false := by
  obtain ⟨rest, rfl⟩ := hstart
  rw [hasPrefix, readLineText_append hreturn]
  apply Bool.eq_false_iff.mpr
  exact fun hpre => not_prefix_of_clash h _ (List.isPrefixOf_iff_prefix.mp hpre)

theorem hasPrefix_of_starts {pre : String} {line : List UInt8} (hstart : Starts pre.toList line)
    (hreturn : '\r' ∉ pre.toList) : hasPrefix pre (readLineText line) = true := by
  obtain ⟨rest, rfl⟩ := hstart
  rw [hasPrefix, readLineText_append hreturn, List.isPrefixOf_iff_prefix]
  exact List.prefix_append _ _

def extendedStarts : List (List Char) :=
  ["old mode ".toList, "new mode ".toList, "new file mode ".toList, "deleted file mode ".toList,
    "index ".toList]

def headerStarts : List (List Char) :=
  "diff --git ".toList :: "--- ".toList :: "+++ ".toList :: extendedStarts

def hunkStarts : List (List Char) := ["@@".toList, ['+'], ['-'], [' '], noNewlineMark]

theorem starts_extended (line : ExtendedLine) :
    ∃ front ∈ extendedStarts, Starts front line.bytes := by
  refine ⟨line.keyword.chars, ?_, line.rest, rfl⟩
  cases line.keyword <;> decide

theorem starts_hunk {hunk : Hunk} {line : List UInt8} (h : line ∈ hunk.lines) :
    ∃ front ∈ hunkStarts, Starts front line := by
  rcases List.mem_cons.mp h with rfl | hbody
  · exact ⟨_, List.mem_cons_self, hunk.header.rest, rfl⟩
  · obtain ⟨bodyLine, -, rfl⟩ := List.mem_map.mp hbody
    cases bodyLine with
    | text mark content noBreak =>
      refine ⟨[markChar mark], ?_, content, rfl⟩
      cases mark <;> decide
    | noNewline => exact ⟨noNewlineMark, by decide, [], (List.append_nil _).symm⟩

theorem starts_gitLine (name : GitName) : Starts "diff --git ".toList (utf8 (gitLine name)) :=
  ⟨_, utf8_append _ _⟩

theorem starts_minusLine (shown tail : List Char) :
    Starts "--- ".toList (utf8 (minusLine shown tail)) := ⟨_, utf8_append _ _⟩

theorem starts_plusLine (shown tail : List Char) :
    Starts "+++ ".toList (utf8 (plusLine shown tail)) := ⟨_, utf8_append _ _⟩

def FileDiff.front (diff : FileDiff) : List (List UInt8) :=
  utf8 (gitLine diff.name) :: diff.extended.map ExtendedLine.bytes ++
    [utf8 (minusLine diff.oldName (nameEnd diff.oldName)),
      utf8 (plusLine diff.newName (nameEnd diff.newName))]

theorem starts_front {diff : FileDiff} {line : List UInt8} (h : line ∈ diff.front) :
    ∃ front ∈ headerStarts, Starts front line := by
  rcases List.mem_append.mp h with hfirst | hsides
  · rcases List.mem_cons.mp hfirst with rfl | hextended
    · exact ⟨_, List.mem_cons_self, starts_gitLine diff.name⟩
    · obtain ⟨extendedLine, -, rfl⟩ := List.mem_map.mp hextended
      obtain ⟨front, hmem, hstart⟩ := starts_extended extendedLine
      exact ⟨front, List.mem_cons_of_mem _ (List.mem_cons_of_mem _
        (List.mem_cons_of_mem _ hmem)), hstart⟩
  · rcases List.mem_pair.mp hsides with rfl | rfl
    · exact ⟨_, List.mem_cons_of_mem _ List.mem_cons_self, starts_minusLine _ _⟩
    · exact ⟨_, List.mem_cons_of_mem _ (List.mem_cons_of_mem _ List.mem_cons_self),
        starts_plusLine _ _⟩

theorem starts_line {diff : FileDiff} {line : List UInt8} (h : line ∈ diff.lines) :
    ∃ front ∈ headerStarts ++ hunkStarts, Starts front line := by
  rcases List.mem_append.mp h with hfront | hhunks
  · obtain ⟨front, hmem, hstart⟩ := starts_front hfront
    exact ⟨front, List.mem_append_left _ hmem, hstart⟩
  · obtain ⟨hunk, -, hmem⟩ := List.mem_flatMap.mp hhunks
    obtain ⟨front, hfront, hstart⟩ := starts_hunk hmem
    exact ⟨front, List.mem_append_right _ hfront, hstart⟩

theorem find?_of_clash {pre : String} {front rest : List (List UInt8)} {line : List UInt8}
    (hfront : ∀ l ∈ front, hasPrefix pre (readLineText l) = false)
    (hline : hasPrefix pre (readLineText line) = true) :
    ((front ++ line :: rest).map readLineText).find? (hasPrefix pre) =
      some (readLineText line) := by
  rw [List.map_append, List.map_cons, List.find?_append, List.find?_eq_none.mpr, Option.none_or,
    List.find?_cons_of_pos hline]
  intro text htext
  obtain ⟨l, hl, rfl⟩ := List.mem_map.mp htext
  rw [hfront l hl]
  exact Bool.false_ne_true

def diffPath (line : String) : Option String :=
  parseDiffPath (String.ofList (line.toList.drop 4))

theorem parseBlock_eq {block minus plus path : String}
    (hminus : (lines block).find? (hasPrefix "--- ") = some minus)
    (hplus : (lines block).find? (hasPrefix "+++ ") = some plus)
    (hfrom : (lines block).findSome? (stripPrefix "rename from ") = none)
    (hto : (lines block).findSome? (stripPrefix "rename to ") = none)
    (hpath : (diffPath plus).or (diffPath minus) = some path)
    (hsame : hasInfix "/dev/null" minus = true ∨ diffPath minus = some path) :
    ∃ file, parseBlock block = some file ∧ file.path = path ∧ file.oldPath = none := by
  unfold parseBlock
  simp only [hminus, hplus, hfrom, hto, Option.none_or, Option.bind_some]
  change ∃ file, ((diffPath plus).or (diffPath minus)).bind _ = some file ∧ _
  rw [hpath]
  refine ⟨_, rfl, rfl, ?_⟩
  dsimp only
  rw [if_neg]
  rcases hsame with hnull | hsame
  · have hany : Option.any (hasInfix "/dev/null") (some minus) = true := hnull
    rw [if_pos (Or.inr hany)]
    decide
  · change parseDiffPath (String.ofList (minus.toList.drop 4)) = some path at hsame
    rw [hsame, if_neg (not_not_intro rfl)]
    split_ifs <;> decide

theorem parseBlock_chunks {block : String} {file : GitDiffFile} (h : parseBlock block = some file) :
    file.chunks = readChunks (lines block) := by
  obtain ⟨path, -, hfile⟩ := Option.bind_eq_some_iff.mp h
  obtain rfl := Option.some.inj hfile
  rfl

theorem lines_eq (diff : FileDiff) :
    diff.lines = diff.front ++ diff.hunks.flatMap Hunk.lines := rfl

theorem not_mem_utf8 {byte : UInt8} (hlow : byte < 0x80) {chars : List Char}
    (h : ∀ c ∈ chars, c.utf8Size = 1 → c.toUInt8 ≠ byte) : byte ∉ utf8 chars := by
  intro hmem
  obtain ⟨c, hc, hbyte⟩ := List.mem_flatMap.mp hmem
  have hsize := utf8Size_of_low hbyte hlow
  rw [(utf8EncodeChar_ascii hsize).1, List.mem_singleton] at hbyte
  exact h c hc hsize hbyte.symm

theorem lineFeed_not_mem_utf8 {chars : List Char} (h : '\n' ∉ chars) : 0x0a ∉ utf8 chars := by
  apply not_mem_utf8 (by decide)
  intro c hc hsize heq
  obtain rfl : _ = '\n' := toUInt8_inj hsize (by decide) heq
  exact h hc

theorem sideName_graphic {side : UInt8} {name : GitName} {c : Char}
    (h : c ∈ sideName side name) : IsGraphic c := isGraphic_printName h

theorem oldName_graphic (diff : FileDiff) : ∀ c ∈ diff.oldName, IsGraphic c := by
  unfold FileDiff.oldName
  split
  · exact forall_mem_of_all (by decide)
  · exact fun c => sideName_graphic

theorem newName_graphic (diff : FileDiff) : ∀ c ∈ diff.newName, IsGraphic c := by
  unfold FileDiff.newName
  split
  · exact forall_mem_of_all (by decide)
  · exact fun c => sideName_graphic

theorem not_mem_headerLine {front shown tail : List Char} (hfront : ∀ c ∈ front, IsGraphic c)
    (hshown : ∀ c ∈ shown, IsGraphic c) (htail : ∀ c ∈ tail, c = '\t') {c : Char}
    (hc : ¬IsGraphic c) (htab : c ≠ '\t') : c ∉ front ++ (shown ++ tail) := by
  rw [List.mem_append, List.mem_append, not_or, not_or]
  exact ⟨fun hmem => hc (hfront c hmem), fun hmem => hc (hshown c hmem),
    fun hmem => htab (htail c hmem)⟩

theorem graphic_minus : ∀ c ∈ "--- ".toList, IsGraphic c := forall_mem_of_all (by decide)

theorem graphic_plus : ∀ c ∈ "+++ ".toList, IsGraphic c := forall_mem_of_all (by decide)

theorem nameEnd_tab (shown : List Char) : ∀ c ∈ nameEnd shown, c = '\t' := by
  unfold nameEnd
  split
  · exact fun c => List.mem_singleton.mp
  · exact fun c hc => absurd hc List.not_mem_nil

theorem not_mem_gitLine (name : GitName) {c : Char} (hc : ¬IsGraphic c) : c ∉ gitLine name := by
  unfold gitLine
  rw [List.mem_append, List.mem_append, List.mem_cons, not_or, not_or, not_or]
  have hfront : ∀ d ∈ "diff --git ".toList, IsGraphic d := forall_mem_of_all (by decide)
  refine ⟨fun hmem => hc (hfront c hmem), fun hmem => hc (sideName_graphic hmem), ?_,
    fun hmem => hc (sideName_graphic hmem)⟩
  rintro rfl
  exact hc (by decide)

theorem ExtendedLine.noFeed (line : ExtendedLine) : 0x0a ∉ line.bytes := by
  rw [ExtendedLine.bytes, List.mem_append, not_or]
  refine ⟨lineFeed_not_mem_utf8 ?_, line.noBreak⟩
  cases line.keyword <;> decide

theorem HunkLine.noFeed (line : HunkLine) : 0x0a ∉ line.bytes := by
  cases line with
  | text mark content noBreak =>
    rw [HunkLine.bytes, List.mem_append, not_or]
    refine ⟨lineFeed_not_mem_utf8 ?_, noBreak⟩
    cases mark <;> decide
  | noNewline => exact lineFeed_not_mem_utf8 (by decide)

theorem Hunk.noFeed (hunk : Hunk) : ∀ line ∈ hunk.lines, 0x0a ∉ line := by
  intro line hline
  rcases List.mem_cons.mp hline with rfl | hbody
  · rw [HunkHeader.bytes, List.mem_append, not_or]
    exact ⟨lineFeed_not_mem_utf8 (by decide), hunk.header.noBreak⟩
  · obtain ⟨bodyLine, -, rfl⟩ := List.mem_map.mp hbody
    exact bodyLine.noFeed

theorem header_noFeed {diff : FileDiff} {header : List (List UInt8)} (h : IsHeaderOf diff header) :
    ∀ line ∈ header, 0x0a ∉ line := by
  obtain ⟨extended, tail, tail', -, htail, htail', rfl⟩ := h
  have htabs {tail : List Char} (htail : tail ∈ [[], ['\t']]) : ∀ c ∈ tail, c = '\t' := by
    rcases List.mem_pair.mp htail with rfl | rfl
    · exact fun c hc => absurd hc List.not_mem_nil
    · exact fun c => List.mem_singleton.mp
  intro line hline
  rcases List.mem_append.mp hline with hfirst | hsides
  · rcases List.mem_cons.mp hfirst with rfl | hextended
    · exact lineFeed_not_mem_utf8 (not_mem_gitLine diff.name (by decide))
    · obtain ⟨extendedLine, -, rfl⟩ := List.mem_map.mp hextended
      exact extendedLine.noFeed
  · rcases List.mem_pair.mp hsides with rfl | rfl
    · exact lineFeed_not_mem_utf8 (not_mem_headerLine graphic_minus (oldName_graphic diff)
        (htabs htail) (by decide) (by decide))
    · exact lineFeed_not_mem_utf8 (not_mem_headerLine graphic_plus (newName_graphic diff)
        (htabs htail') (by decide) (by decide))

theorem isHeaderOf_front (diff : FileDiff) : IsHeaderOf diff diff.front := by
  have hend (shown : List Char) : nameEnd shown ∈ [[], ['\t']] := by
    unfold nameEnd
    split <;> simp
  exact ⟨diff.extended, _, _, List.Sublist.refl _, hend _, hend _, rfl⟩

theorem FileDiff.noFeed (diff : FileDiff) : ∀ line ∈ diff.lines, 0x0a ∉ line := by
  intro line hline
  rw [lines_eq] at hline
  rcases List.mem_append.mp hline with hfront | hhunks
  · exact header_noFeed (isHeaderOf_front diff) line hfront
  · obtain ⟨hunk, -, hmem⟩ := List.mem_flatMap.mp hhunks
    exact hunk.noFeed line hmem

theorem not_infix_gitLine (diff : FileDiff) :
    ¬"\ndiff --git ".toList <:+: (fromUtf8Lossy diff.bytes).toList := by
  intro hwithin
  have htext : (fromUtf8Lossy diff.bytes).toList =
      (diff.lines.map fun line => (fromUtf8Lossy line).toList).flatMap (· ++ ['\n']) := by
    rw [FileDiff.bytes, fromUtf8Lossy_endedLines, String.toList_join, List.flatMap_map,
      List.flatMap_map]
    refine List.flatMap_congr fun line _ => ?_
    simp
  rw [htext] at hwithin
  have hbreaks : ∀ chars ∈ diff.lines.map fun line => (fromUtf8Lossy line).toList,
      '\n' ∉ chars := by
    intro chars hchars
    obtain ⟨line, hline, rfl⟩ := List.mem_map.mp hchars
    have hbreak : (0x0a : UInt8) < 0x80 := by decide
    exact fun hmem => diff.noFeed line hline (mem_of_mem_fromUtf8Lossy hbreak hmem)
  have hne : "diff --git ".toList ≠ [] := by decide
  have hbreak : '\n' ∉ "diff --git ".toList := by decide
  obtain ⟨chars, hchars, hprefix⟩ :=
    exists_line_of_infix hne hbreak hbreaks hwithin
  rw [← List.map_tail] at hchars
  obtain ⟨line, hline, rfl⟩ := List.mem_map.mp hchars
  have hother {front : List Char} (hstart : Starts front line)
      (hclash : clash "diff --git ".toList front = true) : False := by
    obtain ⟨rest, rfl⟩ := hstart
    rw [fromUtf8Lossy_utf8_append] at hprefix
    exact not_prefix_of_clash hclash _ hprefix
  have hsides : ∀ front ∈ "--- ".toList :: "+++ ".toList :: extendedStarts,
      clash "diff --git ".toList front = true := by decide
  have hhunk : ∀ front ∈ hunkStarts, clash "diff --git ".toList front = true := by decide
  have hlines : diff.lines.tail = (diff.extended.map ExtendedLine.bytes ++
      [utf8 (minusLine diff.oldName (nameEnd diff.oldName)),
        utf8 (plusLine diff.newName (nameEnd diff.newName))]) ++
      diff.hunks.flatMap Hunk.lines := rfl
  rw [hlines] at hline
  rcases List.mem_append.mp hline with hfront | hhunks
  · rcases List.mem_append.mp hfront with hextended | hside
    · obtain ⟨extendedLine, -, rfl⟩ := List.mem_map.mp hextended
      obtain ⟨front, hmem, hstart⟩ := starts_extended extendedLine
      exact hother hstart (hsides front (List.mem_cons_of_mem _ (List.mem_cons_of_mem _ hmem)))
    · rcases List.mem_pair.mp hside with rfl | rfl
      · exact hother (starts_minusLine _ _) (by decide)
      · exact hother (starts_plusLine _ _) (by decide)
  · obtain ⟨hunk, -, hmem⟩ := List.mem_flatMap.mp hhunks
    obtain ⟨front, hfront, hstart⟩ := starts_hunk hmem
    exact hother hstart (hhunk front hfront)

theorem parseUnifiedDiff_bytes (diff : FileDiff) :
    parseUnifiedDiff (fromUtf8Lossy diff.bytes) =
      (parseBlock (fromUtf8Lossy diff.bytes)).toList := by
  have hprefix : hasPrefix "diff --git " (fromUtf8Lossy diff.bytes) = true := by
    obtain ⟨rest, hrest⟩ := starts_gitLine diff.name
    have hbytes : diff.bytes =
        utf8 "diff --git ".toList ++ (rest ++ 0x0a :: endedLines diff.lines.tail) := by
      rw [← List.append_assoc, ← hrest, ← endedLines_cons]
      rfl
    rw [hbytes, hasPrefix, List.isPrefixOf_iff_prefix, fromUtf8Lossy_utf8_append]
    exact List.prefix_append _ _
  rw [parseUnifiedDiff, splitStr_of_not_infix (not_infix_gitLine diff), List.foldl_cons,
    List.foldl_nil, readBlock, if_pos hprefix, List.nil_append]

theorem lines_bytes (diff : FileDiff) :
    lines (fromUtf8Lossy diff.bytes) =
      diff.front.map readLineText ++ (diff.hunks.flatMap Hunk.lines).map readLineText := by
  rw [FileDiff.bytes, lines_endedLines diff.noFeed, lines_eq, List.map_append]

theorem parseBlock_hunks {diff : FileDiff} {file : GitDiffFile}
    (h : parseBlock (fromUtf8Lossy diff.bytes) = some file) :
    file.chunks.map printedLines = diff.hunks.map fun hunk => hunk.kept.map readLineText := by
  rw [parseBlock_chunks h, lines_bytes]
  apply readChunks_hunks
  intro text htext
  obtain ⟨line, hline, rfl⟩ := List.mem_map.mp htext
  obtain ⟨front, hfront, hstart⟩ := starts_front hline
  have hstarts : ∀ front ∈ headerStarts, '\r' ∉ front ∧ clash "@@".toList front = true := by
    decide
  exact hasPrefix_of_clash hstart (hstarts front hfront).1 (hstarts front hfront).2

/-- The name as the characters of its bytes. -/
def GitName.chars (name : GitName) : List Char := name.bytes.map byteChar

theorem sideName_plain {side : UInt8} (hside : isPlain side = true) {name : GitName}
    (hplain : name.bytes.all isPlain = true) :
    sideName side name = byteChar side :: '/' :: name.chars := by
  have hall : (side :: 0x2f :: name.bytes).all isPlain = true := by
    rw [List.all_cons, List.all_cons, hside, hplain]
    rfl
  rw [sideName, printName, if_pos hall]
  rfl

theorem diffPath_minusLine (shown tail : List Char) :
    diffPath (String.ofList (minusLine shown tail)) =
      parseDiffPath (String.ofList (shown ++ tail)) := by
  rw [diffPath, String.toList_ofList]
  rfl

theorem diffPath_plusLine (shown tail : List Char) :
    diffPath (String.ofList (plusLine shown tail)) =
      parseDiffPath (String.ofList (shown ++ tail)) := by
  rw [diffPath, String.toList_ofList]
  rfl

theorem nameEnd_blank (shown : List Char) : ∀ c ∈ nameEnd shown, isWhitespace c = true := by
  intro c hc
  rw [nameEnd_tab shown c hc]
  decide

theorem readLineText_minusLine (diff : FileDiff) :
    readLineText (utf8 (minusLine diff.oldName (nameEnd diff.oldName))) =
      String.ofList (minusLine diff.oldName (nameEnd diff.oldName)) :=
  readLineText_utf8 (not_mem_headerLine graphic_minus (oldName_graphic diff)
    (nameEnd_tab _) (by decide) (by decide))

theorem readLineText_plusLine (diff : FileDiff) :
    readLineText (utf8 (plusLine diff.newName (nameEnd diff.newName))) =
      String.ofList (plusLine diff.newName (nameEnd diff.newName)) :=
  readLineText_utf8 (not_mem_headerLine graphic_plus (newName_graphic diff)
    (nameEnd_tab _) (by decide) (by decide))

theorem hasPrefix_extended {diff : FileDiff} {pre : String}
    (hclash : ∀ front ∈ "diff --git ".toList :: extendedStarts,
      '\r' ∉ front ∧ clash pre.toList front = true) :
    ∀ line ∈ utf8 (gitLine diff.name) :: diff.extended.map ExtendedLine.bytes,
      hasPrefix pre (readLineText line) = false := by
  intro line hline
  rcases List.mem_cons.mp hline with rfl | hline
  · have hfront := hclash _ List.mem_cons_self
    exact hasPrefix_of_clash (starts_gitLine diff.name) hfront.1 hfront.2
  · obtain ⟨extendedLine, -, rfl⟩ := List.mem_map.mp hline
    obtain ⟨front, hmem, hstart⟩ := starts_extended extendedLine
    have hfront := hclash front (List.mem_cons_of_mem _ hmem)
    exact hasPrefix_of_clash hstart hfront.1 hfront.2

theorem find?_minusLine (diff : FileDiff) :
    (lines (fromUtf8Lossy diff.bytes)).find? (hasPrefix "--- ") =
      some (String.ofList (minusLine diff.oldName (nameEnd diff.oldName))) := by
  rw [lines_bytes, ← List.map_append, ← readLineText_minusLine, FileDiff.front,
    List.append_assoc]
  apply find?_of_clash (hasPrefix_extended (by decide))
  exact hasPrefix_of_starts (starts_minusLine _ _) (by decide)

theorem find?_plusLine (diff : FileDiff) :
    (lines (fromUtf8Lossy diff.bytes)).find? (hasPrefix "+++ ") =
      some (String.ofList (plusLine diff.newName (nameEnd diff.newName))) := by
  have hsplit : diff.front ++ diff.hunks.flatMap Hunk.lines =
      (utf8 (gitLine diff.name) :: diff.extended.map ExtendedLine.bytes ++
        [utf8 (minusLine diff.oldName (nameEnd diff.oldName))]) ++
      utf8 (plusLine diff.newName (nameEnd diff.newName)) ::
        diff.hunks.flatMap Hunk.lines := by
    simp [FileDiff.front]
  rw [lines_bytes, ← List.map_append, ← readLineText_plusLine, hsplit]
  apply find?_of_clash
  · intro line hline
    rcases List.mem_append.mp hline with hline | hline
    · exact hasPrefix_extended (by decide) line hline
    · obtain rfl := List.mem_singleton.mp hline
      exact hasPrefix_of_clash (starts_minusLine _ _) (by decide) (by decide)
  · exact hasPrefix_of_starts (starts_plusLine _ _) (by decide)

theorem findSome?_none {diff : FileDiff} {pre : String}
    (hclash : ∀ front ∈ headerStarts ++ hunkStarts,
      '\r' ∉ front ∧ clash pre.toList front = true) :
    (lines (fromUtf8Lossy diff.bytes)).findSome? (stripPrefix pre) = none := by
  rw [lines_bytes, ← List.map_append, ← lines_eq, List.findSome?_eq_none_iff]
  intro text htext
  obtain ⟨line, hline, rfl⟩ := List.mem_map.mp htext
  obtain ⟨front, hmem, hstart⟩ := starts_line hline
  rw [stripPrefix, hasPrefix_of_clash hstart (hclash front hmem).1 (hclash front hmem).2]
  rfl

theorem parseDiffPath_side {name : GitName} (hplain : name.bytes.all isPlain = true)
    {side : UInt8} (hside : side = 0x61 ∨ side = 0x62) :
    parseDiffPath (String.ofList (sideName side name ++ nameEnd (sideName side name))) =
      some (String.ofList (name.chars.rdropWhile isWhitespace)) := by
  have hchars : '\\' ∉ name.chars := by
    intro hmem
    obtain ⟨byte, hbyte, hchar⟩ := List.mem_map.mp hmem
    obtain rfl : byte = 0x5c := byteChar_injective hchar
    exact absurd (List.all_eq_true.mp hplain _ hbyte) (by decide)
  rcases hside with rfl | rfl
  · rw [sideName_plain (by decide) hplain]
    exact parseDiffPath_plain (.inl rfl) hchars (nameEnd_blank _)
  · rw [sideName_plain (by decide) hplain]
    exact parseDiffPath_plain (.inr rfl) hchars (nameEnd_blank _)

theorem parseDiffPath_oldName {diff : FileDiff} (hplain : diff.name.bytes.all isPlain = true) :
    parseDiffPath (String.ofList (diff.oldName ++ nameEnd diff.oldName)) =
      if diff.kind = .created then none
      else some (String.ofList (diff.name.chars.rdropWhile isWhitespace)) := by
  unfold FileDiff.oldName
  split
  · exact parseDiffPath_devNull
  · exact parseDiffPath_side hplain (.inl rfl)

theorem parseDiffPath_newName {diff : FileDiff} (hplain : diff.name.bytes.all isPlain = true) :
    parseDiffPath (String.ofList (diff.newName ++ nameEnd diff.newName)) =
      if diff.kind = .deleted then none
      else some (String.ofList (diff.name.chars.rdropWhile isWhitespace)) := by
  unfold FileDiff.newName
  split
  · exact parseDiffPath_devNull
  · exact parseDiffPath_side hplain (.inr rfl)

/-- A plain name is read back without the blanks at its end, and the file has no other. -/
theorem parseBlock_plain {diff : FileDiff} (hplain : diff.name.bytes.all isPlain = true) :
    ∃ file, parseBlock (fromUtf8Lossy diff.bytes) = some file ∧
      file.path = String.ofList (diff.name.chars.rdropWhile isWhitespace) ∧
      file.oldPath = none := by
  apply parseBlock_eq (find?_minusLine diff) (find?_plusLine diff) (findSome?_none (by decide))
    (findSome?_none (by decide))
  · rw [diffPath_minusLine, diffPath_plusLine, parseDiffPath_oldName hplain,
      parseDiffPath_newName hplain]
    cases diff.kind <;> rfl
  · rw [diffPath_minusLine, parseDiffPath_oldName hplain]
    by_cases hcreated : diff.kind = .created
    · have hnull : diff.oldName = devNull := if_pos hcreated
      rw [hnull]
      exact .inl (by decide +kernel)
    · exact .inr (if_neg hcreated)

/-- What a hunk has to be for its patch to have it: of a file that is on both sides, under a
name that is printed as it is, with all its line feeds and without a carriage return in
front of one. -/
structure KeepsHunk (diff : FileDiff) (hunk : Hunk) : Prop where
  modified : diff.kind = .modified
  plain : diff.name.bytes.all isPlain = true
  noBlankEnd : diff.name.bytes.getLast? ≠ some 0x20
  complete : ∀ line ∈ hunk.body, line.isText = true
  kept : ∀ line ∈ hunk.lines, IsKept line

theorem pathBytes_eq (text : String) : pathBytes text = utf8 text.toList := toUTF8_toList text

theorem utf8_intercalate {ls : List String} (hne : ls ≠ []) :
    utf8 ("\n".intercalate ls ++ "\n").toList = endedLines (ls.map fun l => utf8 l.toList) := by
  induction ls with
  | nil => exact absurd rfl hne
  | cons l ls ih =>
    cases ls with
    | nil =>
      rw [String.intercalate_singleton, String.toList_append, utf8_append, List.map_cons,
        endedLines_cons]
      rfl
    | cons l' ls =>
      have hrest := ih (List.cons_ne_nil _ _)
      rw [String.intercalate_cons_cons, String.append_assoc, String.append_assoc,
        String.toList_append, String.toList_append, utf8_append, utf8_append, hrest]
      exact (endedLines_cons _ _).symm

theorem chunkLines_toList (file : GitDiffFile) (chunk : GitDiffChunk) (hold : file.oldPath = none) :
    (chunkLines file chunk).map String.toList =
      ("diff --git ".toList ++ ('a' :: '/' :: file.path.toList ++
        ' ' :: 'b' :: '/' :: file.path.toList)) ::
      minusLine ('a' :: '/' :: file.path.toList) [] ::
      plusLine ('b' :: '/' :: file.path.toList) [] ::
      (printedLines chunk).map String.toList := by
  have hgit : (s!"diff --git a/{file.path} b/{file.path}").toList = "diff --git ".toList ++
      ('a' :: '/' :: file.path.toList ++ ' ' :: 'b' :: '/' :: file.path.toList) := by
    simp [toString]
  have hminus : (s!"--- a/{file.path}").toList =
      minusLine ('a' :: '/' :: file.path.toList) [] := by
    simp [toString, minusLine]
  have hplus : (s!"+++ b/{file.path}").toList =
      plusLine ('b' :: '/' :: file.path.toList) [] := by
    simp [toString, plusLine]
  rw [← hgit, ← hminus, ← hplus]
  unfold chunkLines
  rw [hold]
  rfl

/-- The lines of a hunk as the patch has them. -/
def Hunk.shown (hunk : Hunk) : List (List UInt8) :=
  hunk.kept.map fun line => utf8 (readLineText line).toList

theorem shown_eq_iff (hunk : Hunk) :
    hunk.shown = hunk.lines ↔
      (∀ line ∈ hunk.body, line.isText = true) ∧ ∀ line ∈ hunk.lines, IsKept line := by
  have hsame (hall : ∀ line ∈ hunk.body, line.isText = true) : hunk.kept = hunk.lines := by
    rw [Hunk.kept, List.filter_eq_self.mpr hall]
    rfl
  constructor
  · intro h
    have hlength := congrArg List.length h
    rw [Hunk.shown, List.length_map, Hunk.kept, Hunk.lines, List.length_cons, List.length_cons,
      List.length_map, List.length_map, Nat.add_right_cancel_iff, List.length_filter_eq_length_iff]
      at hlength
    refine ⟨hlength, fun line hline => ?_⟩
    rw [Hunk.shown, hsame hlength] at h
    have hfixed := List.map_inj_left.mp (h.trans (List.map_id _).symm) line hline
    exact (utf8_readLineText line).mp hfixed
  · rintro ⟨hall, hkept⟩
    rw [Hunk.shown, hsame hall]
    refine (List.map_congr_left fun line hline => ?_).trans (List.map_id _)
    exact (utf8_readLineText line).mpr (hkept line hline)

/-- The lines of the header that a patch has. -/
def shownHeader (name : GitName) : List (List UInt8) :=
  [utf8 (gitLine name), utf8 (minusLine (sideName 0x61 name) []),
    utf8 (plusLine (sideName 0x62 name) [])]

theorem shown_noFeed (hunk : Hunk) : ∀ line ∈ hunk.shown, 0x0a ∉ line := by
  intro shownLine hmem
  obtain ⟨line, hline, rfl⟩ := List.mem_map.mp hmem
  apply lineFeed_not_mem_utf8
  apply lineFeed_not_mem_readLineText
  rcases List.mem_cons.mp hline with rfl | hbody
  · exact hunk.noFeed _ List.mem_cons_self
  · obtain ⟨bodyLine, hbodyLine, rfl⟩ := List.mem_map.mp hbody
    exact bodyLine.noFeed

theorem shownHeader_noFeed (name : GitName) : ∀ line ∈ shownHeader name, 0x0a ∉ line := by
  have hheader : IsHeaderOf ⟨.modified, name, [], []⟩ (shownHeader name) :=
    ⟨[], [], [], List.Sublist.refl _, by decide, by decide, rfl⟩
  exact header_noFeed hheader

/-- The header a patch has is one for its file just where the file is on both sides. -/
theorem shownHeader_iff {diff : FileDiff} (hplain : diff.name.bytes.all isPlain = true)
    {ls ls' : List (List UInt8)} :
    (∃ header, IsHeaderOf diff header ∧ shownHeader diff.name ++ ls = header ++ ls') ↔
      diff.kind = .modified ∧ ls = ls' := by
  constructor
  · rintro ⟨header, ⟨extended, tail, tail', -, -, -, rfl⟩, heq⟩
    have hrest := (List.cons.inj heq).2
    cases extended with
    | cons line extended =>
      have hline : utf8 (minusLine (sideName 0x61 diff.name) []) = line.bytes :=
        (List.cons.inj hrest).1
      obtain ⟨front, hmem, hstart⟩ := starts_extended line
      have hclash : ∀ front ∈ extendedStarts,
          '\r' ∉ front ∧ clash "--- ".toList front = true := by decide
      have hnot := hasPrefix_of_clash hstart (hclash front hmem).1 (hclash front hmem).2
      rw [← hline, hasPrefix_of_starts (starts_minusLine _ _) (by decide)] at hnot
      exact absurd hnot.symm Bool.false_ne_true
    | nil =>
      obtain ⟨hminus, hmore⟩ := List.cons.inj hrest
      obtain ⟨hplus, hlines⟩ := List.cons.inj hmore
      have hold := List.append_cancel_left (utf8_injective hminus)
      have hnew := List.append_cancel_left (utf8_injective hplus)
      rw [sideName_plain (by decide) hplain] at hold hnew
      refine ⟨?_, hlines⟩
      cases hkind : diff.kind with
      | modified => rfl
      | created =>
        have hnull : diff.oldName = devNull := if_pos hkind
        rw [hnull] at hold
        exact absurd (List.cons.inj hold).1 (by decide)
      | deleted =>
        have hnull : diff.newName = devNull := if_pos hkind
        rw [hnull] at hnew
        exact absurd (List.cons.inj hnew).1 (by decide)
  · rintro ⟨hkind, rfl⟩
    have hold : diff.oldName = sideName 0x61 diff.name := if_neg (by rw [hkind]; decide)
    have hnew : diff.newName = sideName 0x62 diff.name := if_neg (by rw [hkind]; decide)
    refine ⟨shownHeader diff.name, ⟨[], [], [], List.nil_sublist _, by decide, by decide, ?_⟩, rfl⟩
    rw [hold, hnew]
    rfl

theorem printedLines_eq {diff : FileDiff} {file : GitDiffFile} {chunk : GitDiffChunk}
    {hunk : Hunk} {i : Nat} (hfile : parseBlock (fromUtf8Lossy diff.bytes) = some file)
    (hchunk : file.chunks[i]? = some chunk) (hhunk : diff.hunks[i]? = some hunk) :
    printedLines chunk = hunk.kept.map readLineText := by
  have hmap := congrArg (·[i]?) (parseBlock_hunks hfile)
  simp only [List.getElem?_map, hchunk, hhunk, Option.map_some, Option.some.injEq] at hmap
  exact hmap

theorem chunkLines_plain {diff : FileDiff} {file : GitDiffFile} {chunk : GitDiffChunk}
    {hunk : Hunk} (hplain : diff.name.bytes.all isPlain = true) (hold : file.oldPath = none)
    (hpath : file.path.toList = diff.name.chars)
    (hprinted : printedLines chunk = hunk.kept.map readLineText) :
    ((chunkLines file chunk).map String.toList).map utf8 =
      shownHeader diff.name ++ hunk.shown := by
  have ha : sideName 0x61 diff.name = 'a' :: '/' :: diff.name.chars :=
    sideName_plain (by decide) hplain
  have hb : sideName 0x62 diff.name = 'b' :: '/' :: diff.name.chars :=
    sideName_plain (by decide) hplain
  have hshown : ((printedLines chunk).map String.toList).map utf8 = hunk.shown := by
    rw [hprinted, List.map_map, List.map_map, Hunk.shown]
    simp only [Function.comp_def]
  have hgit : gitLine diff.name =
      "diff --git ".toList ++ (sideName 0x61 diff.name ++ ' ' :: sideName 0x62 diff.name) := rfl
  rw [ha, hb] at hgit
  have hheader : shownHeader diff.name ++ hunk.shown =
      utf8 (gitLine diff.name) :: utf8 (minusLine (sideName 0x61 diff.name) []) ::
        utf8 (plusLine (sideName 0x62 diff.name) []) :: hunk.shown := rfl
  rw [chunkLines_toList file chunk hold, List.map_cons, List.map_cons, List.map_cons, hshown,
    hpath, hheader, ha, hb, hgit]

theorem pathBytes_patch (file : GitDiffFile) (chunk : GitDiffChunk) :
    pathBytes ("\n".intercalate (chunkLines file chunk) ++ "\n") =
      endedLines (((chunkLines file chunk).map String.toList).map utf8) := by
  rw [pathBytes_eq, List.map_map]
  apply utf8_intercalate
  unfold chunkLines
  exact List.append_ne_nil_of_left_ne_nil (List.cons_ne_nil _ _) _

theorem chunkLines_start (file : GitDiffFile) (chunk : GitDiffChunk) :
    ∃ shown rest, (chunkLines file chunk).map String.toList =
      ("diff --git ".toList ++ 'a' :: shown) :: rest := by
  have hgit (old : String) : (s!"diff --git a/{old} b/{file.path}").toList =
      "diff --git ".toList ++ 'a' :: ('/' :: old.toList ++ " b/".toList ++ file.path.toList) := by
    simp [toString]
  exact ⟨_, _, congrArg (· :: _) (hgit _)⟩

/-- Under another name a patch is no patch of the file: the name is not quoted. -/
theorem plain_of_isPatchOf {diff : FileDiff} {file : GitDiffFile} {chunk : GitDiffChunk}
    {hunk : Hunk} (h : IsPatchOf diff hunk ("\n".intercalate (chunkLines file chunk) ++ "\n")) :
    diff.name.bytes.all isPlain = true := by
  obtain ⟨header, ⟨extended, tail, tail', -, -, -, rfl⟩, hbytes⟩ := h
  by_contra hplain
  have hquoted : sideName 0x61 diff.name = '"' ::
      (((0x61 : UInt8) :: 0x2f :: diff.name.bytes).flatMap escapeByte ++ ['"']) := by
    rw [sideName, printName, if_neg, List.cons_append]
    rw [List.all_cons, List.all_cons, Bool.and_eq_true, Bool.and_eq_true]
    exact fun hall => hplain hall.2.2
  have hgit : gitLine diff.name =
      "diff --git ".toList ++ (sideName 0x61 diff.name ++ ' ' :: sideName 0x62 diff.name) := rfl
  obtain ⟨shown, rest, hpatch⟩ := chunkLines_start file chunk
  rw [pathBytes_patch, hpatch, List.map_cons, endedLines_cons, List.cons_append, List.cons_append,
    endedLines_cons, hgit, hquoted, utf8_append, utf8_append, List.append_assoc,
    List.append_assoc] at hbytes
  have hsides := List.append_cancel_left hbytes
  rw [utf8_cons, List.cons_append, utf8_cons] at hsides
  exact absurd (List.cons.inj hsides).1 (by decide)

theorem rdropWhile_plain_iff {name : GitName} (hplain : name.bytes.all isPlain = true) :
    name.chars.rdropWhile isWhitespace = name.chars ↔ name.bytes.getLast? ≠ some 0x20 := by
  have hblank := blank_end_iff hplain List.getLast?_map
    fun byte => List.mem_of_mem_getLast?
  rw [← hblank, List.rdropWhile_eq_self_iff]
  change _ ↔ ∀ c ∈ name.chars.getLast?, isWhitespace c = false
  constructor
  · intro h c hc
    obtain ⟨hne, rfl⟩ := List.mem_getLast?_eq_getLast hc
    exact Bool.eq_false_iff.mpr (h hne)
  · intro h hne
    exact Bool.eq_false_iff.mp (h _ (List.getLast?_eq_getLast_of_ne_nil hne))

theorem chars_eq {file : String} {name : GitName} (hplain : name.bytes.all isPlain = true)
    (hname : pathBytes file = name.bytes) : file.toList = name.chars := by
  have hgraphic : ∀ c ∈ name.chars, IsGraphic c := by
    intro c hc
    obtain ⟨byte, hbyte, rfl⟩ := List.mem_map.mp hc
    exact isGraphic_plain (List.all_eq_true.mp hplain byte hbyte)
  have hbytes : pathBytes (String.ofList name.chars) = name.bytes := by
    rw [pathBytes_ofList hgraphic, GitName.chars, List.map_map]
    exact (List.map_congr_left fun byte _ => toUInt8_byteChar byte).trans (List.map_id _)
  rw [pathBytes_eq, ← hbytes, pathBytes_eq, String.toList_ofList] at hname
  exact utf8_injective hname

section selected

variable {diff : FileDiff} {hunk : Hunk} {file : String} {i : Nat}

theorem selectedPatch_isPatchOf_iff (hname : pathBytes file = diff.name.bytes)
    (hhunk : diff.hunks[i]? = some hunk) :
    (∃ patch, selectedPatch (parseUnifiedDiff (fromUtf8Lossy diff.bytes)) file i = .ok patch ∧
        IsPatchOf diff hunk patch) ↔ KeepsHunk diff hunk := by
  rw [parseUnifiedDiff_bytes]
  have hselected {entry : GitDiffFile}
      (hentry : parseBlock (fromUtf8Lossy diff.bytes) = some entry) (hpath : entry.path = file) :
      ∃ chunk, printedLines chunk = hunk.kept.map readLineText ∧
        selectedPatch [entry] file i =
          .ok ("\n".intercalate (chunkLines entry chunk) ++ "\n") := by
    have hlength : i < entry.chunks.length := by
      have hchunks := congrArg List.length (parseBlock_hunks hentry)
      rw [List.length_map, List.length_map] at hchunks
      rw [hchunks]
      exact (List.getElem?_eq_some_iff.mp hhunk).1
    have hchunk := List.getElem?_eq_getElem hlength
    refine ⟨_, printedLines_eq hentry hchunk hhunk, ?_⟩
    simp only [selectedPatch, List.find?_cons, hpath, decide_true, hchunk]
  have hbytes {entry : GitDiffFile} {chunk : GitDiffChunk}
      (hplain : diff.name.bytes.all isPlain = true) (hold : entry.oldPath = none)
      (hpath : entry.path = file) (hprinted : printedLines chunk = hunk.kept.map readLineText) :
      pathBytes ("\n".intercalate (chunkLines entry chunk) ++ "\n") =
        endedLines (shownHeader diff.name ++ hunk.shown) := by
    rw [pathBytes_patch, chunkLines_plain hplain hold _ hprinted]
    rw [hpath]
    exact chars_eq hplain hname
  constructor
  · rintro ⟨patch, hpatch, hof⟩
    cases hentry : parseBlock (fromUtf8Lossy diff.bytes) with
    | none =>
      rw [hentry] at hpatch
      cases hpatch
    | some entry =>
      rw [hentry] at hpatch
      have hpath : entry.path = file := by
        by_contra hother
        simp [selectedPatch, hother] at hpatch
      obtain ⟨chunk, hprinted, hok⟩ := hselected hentry hpath
      rw [Option.toList_some, hok] at hpatch
      obtain rfl := Except.ok.inj hpatch
      have hplain := plain_of_isPatchOf hof
      obtain ⟨entry', hentry', hrtrim, hold⟩ := parseBlock_plain hplain
      obtain rfl := Option.some.inj (hentry.symm.trans hentry')
      obtain ⟨header, hheader, heq⟩ := hof
      rw [hbytes hplain hold hpath hprinted] at heq
      have hfeeds : ∀ line ∈ shownHeader diff.name ++ hunk.shown, 0x0a ∉ line :=
        List.forall_mem_append.mpr ⟨shownHeader_noFeed _, shown_noFeed hunk⟩
      have hfeeds' : ∀ line ∈ header ++ hunk.lines, 0x0a ∉ line :=
        List.forall_mem_append.mpr ⟨header_noFeed hheader, hunk.noFeed⟩
      obtain ⟨hkind, hshown⟩ := (shownHeader_iff hplain).mp
        ⟨header, hheader, endedLines_inj hfeeds hfeeds' heq⟩
      obtain ⟨hcomplete, hkept⟩ := (shown_eq_iff hunk).mp hshown
      refine ⟨hkind, hplain, (rdropWhile_plain_iff hplain).mp ?_, hcomplete, hkept⟩
      rw [← chars_eq hplain hname, ← hpath, hrtrim, String.toList_ofList]
      rw [List.rdropWhile_idempotent]
  · intro h
    obtain ⟨entry, hentry, hrtrim, hold⟩ := parseBlock_plain h.plain
    have hpath : entry.path = file := by
      rw [hrtrim, (rdropWhile_plain_iff h.plain).mpr h.noBlankEnd, ← chars_eq h.plain hname,
        String.ofList_toList]
    obtain ⟨chunk, hprinted, hok⟩ := hselected hentry hpath
    refine ⟨"\n".intercalate (chunkLines entry chunk) ++ "\n", ?_, ?_⟩
    · rw [hentry]
      exact hok
    · obtain ⟨header, hheader, heq⟩ := (shownHeader_iff h.plain).mpr
        ⟨h.modified, (shown_eq_iff hunk).mpr ⟨h.complete, h.kept⟩⟩
      exact ⟨header, hheader, by rw [hbytes h.plain hold hpath hprinted, heq]⟩

theorem selectedPatch_error (h : diff.hunks.length ≤ i) :
    ∃ err, selectedPatch (parseUnifiedDiff (fromUtf8Lossy diff.bytes)) file i = .error err := by
  rw [parseUnifiedDiff_bytes]
  cases hentry : parseBlock (fromUtf8Lossy diff.bytes) with
  | none => exact ⟨_, rfl⟩
  | some entry =>
    have hchunks := congrArg List.length (parseBlock_hunks hentry)
    rw [List.length_map, List.length_map] at hchunks
    have hnone : entry.chunks[i]? = none := List.getElem?_eq_none (hchunks ▸ h)
    by_cases hpath : entry.path = file
    · simp [selectedPatch, hpath, hnone]
    · simp [selectedPatch, hpath]

end selected

section chunkPatch

variable {env : GitEnv} {body : GitUiApplyPatchRequest} {file : String} {i : Nat}
  {args : List String} {text : String}

theorem chunkPatch_result (hfile : body.file = some file) (hindex : body.chunkIndex = some i)
    (hargs : chunkArgs body file = .ok args)
    (hgit : (gitUiText env body.cwd args).result = .ok text) :
    (chunkPatch env body).result = (selectedPatch (parseUnifiedDiff text) file i).map some := by
  unfold chunkPatch
  simp only [hfile, hindex, hargs, Logged.ofExcept_ok, Logged.pure_bind]
  rw [Logged.bind_eq, Logged.bind, hgit]
  dsimp only
  cases hpatch : selectedPatch (parseUnifiedDiff text) file i with
  | error err => rfl
  | ok patch => rfl

/-- The patch of a chunk is a header of the file and the bytes of the hunk just where the
hunk is kept; behind the last hunk there is an error. -/
theorem chunkPatch_isPatchOf_iff (diff : FileDiff) (hname : pathBytes file = diff.name.bytes)
    (hfile : body.file = some file) (hindex : body.chunkIndex = some i)
    (hargs : chunkArgs body file = .ok args)
    (hgit : (gitUiText env body.cwd args).result = .ok (fromUtf8Lossy diff.bytes)) :
    (∀ hunk, diff.hunks[i]? = some hunk →
      ((∃ patch, (chunkPatch env body).result = .ok (some patch) ∧ IsPatchOf diff hunk patch) ↔
        KeepsHunk diff hunk)) ∧
    (diff.hunks.length ≤ i → ∃ err, (chunkPatch env body).result = .error err) := by
  have hresult := chunkPatch_result hfile hindex hargs hgit
  constructor
  · intro hunk hhunk
    rw [← selectedPatch_isPatchOf_iff hname hhunk, hresult]
    cases selectedPatch (parseUnifiedDiff (fromUtf8Lossy diff.bytes)) file i with
    | error err => simp [Except.map]
    | ok patch => simp [Except.map]
  · intro hlength
    obtain ⟨err, herr⟩ := @selectedPatch_error diff file i hlength
    exact ⟨err, by rw [hresult, herr]; rfl⟩

end chunkPatch

def plainName : GitName := ⟨[0x66], by decide, by decide, by decide⟩

/-- One line changed, with an end of its own. -/
def oneLineHunk (ending : List UInt8) (noBreak : 0x0a ∉ ending) : Hunk :=
  ⟨⟨utf8 " -1 +1 @@".toList, by decide⟩,
    [.text .delete (0x61 :: ending) (by simpa using noBreak),
      .text .add (0x62 :: ending) (by simpa using noBreak)]⟩

def oneHunkDiff (hunk : Hunk) : FileDiff := ⟨.modified, plainName, [], [hunk]⟩

def firstChunk : GitUiApplyPatchRequest :=
  { cwd := "/repo", patch := none, reverse := none, cached := none, scope := none
    context := none, base := none, target := none, file := some "f", chunkIndex := some 0
    mergeBase := none }

def firstChunkArgs : List String :=
  ["diff", "--no-ext-diff", "--color=never", "-U3", "HEAD", "--", "f"]

def diffEnv (diff : FileDiff) : GitEnv where
  home := none
  output _ := .ok ⟨true, "0", fromUtf8Lossy diff.bytes, ""⟩

theorem chunkArgs_firstChunk : chunkArgs firstChunk "f" = .ok firstChunkArgs := by
  decide +kernel

theorem gitUiText_diffEnv (diff : FileDiff) :
    (gitUiText (diffEnv diff) "/repo" firstChunkArgs).result = .ok (fromUtf8Lossy diff.bytes) := by
  have hrepo : gitUiRepo none "/repo" = .ok "/repo" := by decide +kernel
  have hhome : (diffEnv diff).home = none := rfl
  have hstart (process : GitProcess) :
      startGit (diffEnv diff) process = ⟨.ok ⟨true, "0", fromUtf8Lossy diff.bytes, ""⟩, [process]⟩ :=
    rfl
  unfold gitUiText gitUiOutput askGitUiRepo
  rw [hhome, hrepo, Logged.ofExcept_ok, Logged.pure_bind, hstart]
  simp only [Logged.bind_eq, Logged.bind, hstart]
  rfl

theorem keepsHunk_oneLine : KeepsHunk (oneHunkDiff (oneLineHunk [] (by decide)))
    (oneLineHunk [] (by decide)) := by
  constructor
  · rfl
  · decide
  · decide
  · intro line hline
    rcases List.mem_pair.mp hline with rfl | rfl <;> rfl
  · intro line hline
    rw [Hunk.lines, List.mem_cons] at hline
    rcases hline with rfl | hline
    · exact ⟨⟨"@@ -1 +1 @@".toList, by decide +kernel⟩, by decide +kernel⟩
    · rcases List.mem_pair.mp hline with rfl | rfl
      · exact ⟨⟨"-a".toList, by decide +kernel⟩, by decide +kernel⟩
      · exact ⟨⟨"+b".toList, by decide +kernel⟩, by decide +kernel⟩

theorem chunkPatch_oneLine :
    ∃ patch, (chunkPatch (diffEnv (oneHunkDiff (oneLineHunk [] (by decide)))) firstChunk).result =
        .ok (some patch) ∧
      IsPatchOf (oneHunkDiff (oneLineHunk [] (by decide))) (oneLineHunk [] (by decide)) patch :=
  ((chunkPatch_isPatchOf_iff (oneHunkDiff (oneLineHunk [] (by decide))) (by decide +kernel) rfl rfl
    chunkArgs_firstChunk (gitUiText_diffEnv _)).1 _ rfl).mpr keepsHunk_oneLine

/-- Lines that end in a carriage return lose it: the patch is not the hunk. -/
theorem chunkPatch_carriageReturn :
    (chunkPatch (diffEnv (oneHunkDiff (oneLineHunk [0x0d] (by decide)))) firstChunk).result =
        .ok (some "diff --git a/f b/f\n--- a/f\n+++ b/f\n@@ -1 +1 @@\n-a\n+b\n") ∧
      ¬∃ patch,
        (chunkPatch (diffEnv (oneHunkDiff (oneLineHunk [0x0d] (by decide)))) firstChunk).result =
            .ok (some patch) ∧
          IsPatchOf (oneHunkDiff (oneLineHunk [0x0d] (by decide)))
            (oneLineHunk [0x0d] (by decide)) patch := by
  have hresult := chunkPatch_result rfl rfl chunkArgs_firstChunk
    (gitUiText_diffEnv (oneHunkDiff (oneLineHunk [0x0d] (by decide))))
  have hpatch : selectedPatch (parseUnifiedDiff
      (fromUtf8Lossy (oneHunkDiff (oneLineHunk [0x0d] (by decide))).bytes)) "f" 0 =
        .ok "diff --git a/f b/f\n--- a/f\n+++ b/f\n@@ -1 +1 @@\n-a\n+b\n" := by
    decide +kernel
  refine ⟨by rw [hresult, hpatch]; rfl, ?_⟩
  rintro ⟨patch, hok, hof⟩
  rw [hresult] at hok
  have hname : pathBytes "f" = plainName.bytes := by decide +kernel
  have hkeeps := (selectedPatch_isPatchOf_iff hname rfl).mp
    ⟨patch, by
      rw [hpatch] at hok ⊢
      exact congrArg Except.ok (Option.some.inj (Except.ok.inj hok)), hof⟩
  exact (hkeeps.kept _ (List.mem_cons_of_mem _ List.mem_cons_self)).2 (by decide +kernel)

end HerdrWebui.Git
