import HerdrWebui.Git.ChunkPatch

/-!
The text git prints for changes of every kind, and the file that is read from the lines of
one change. A line before the hunks starts with a keyword, and no keyword starts another.
-/

namespace HerdrWebui.Git

/-- A line of a hunk. -/
inductive HunkText where
  | text (mark : LineType) (content : List Char) (noFeed : '\n' ∉ content)
  | noNewline

def HunkText.chars : HunkText → List Char
  | .text mark content _ => markChar mark :: content
  | .noNewline => noNewlineMark

def HunkText.mark? : HunkText → Option LineType
  | .text mark _ _ => some mark
  | .noNewline => none

def marks (body : List HunkText) : List LineType := body.filterMap HunkText.mark?

/-- The numbers of a hunk fit, and the heading is what follows the ranges in its line. -/
structure DiffHunk where
  oldStart : Nat
  newStart : Nat
  heading : List Char
  body : List HunkText
  noFeed : '\n' ∉ heading
  old_fits : oldStart + (marks body).countP (· ≠ .add) < 2 ^ 64
  new_fits : newStart + (marks body).countP (· ≠ .delete) < 2 ^ 64

def DiffHunk.oldLines (hunk : DiffHunk) : Nat := (marks hunk.body).countP (· ≠ .add)

def DiffHunk.newLines (hunk : DiffHunk) : Nat := (marks hunk.body).countP (· ≠ .delete)

/-- One side of a hunk: the length is left out where it is one. -/
def printRange (start count : Nat) : List Char :=
  Nat.toDigits 10 start ++ if count = 1 then [] else ',' :: Nat.toDigits 10 count

def DiffHunk.header (hunk : DiffHunk) : List Char :=
  "@@ -".toList ++ (printRange hunk.oldStart hunk.oldLines ++ (" +".toList ++
    (printRange hunk.newStart hunk.newLines ++ (" @@".toList ++ hunk.heading))))

def DiffHunk.lines (hunk : DiffHunk) : List (List Char) :=
  hunk.header :: hunk.body.map HunkText.chars

inductive HeaderKeyword where
  | git
  | oldMode
  | newMode
  | newFileMode
  | deletedFileMode
  | similarity
  | renameFrom
  | renameTo
  | index
  | binary
  | minus
  | plus
  deriving DecidableEq, Repr

def HeaderKeyword.text : HeaderKeyword → String
  | .git => "diff --git "
  | .oldMode => "old mode "
  | .newMode => "new mode "
  | .newFileMode => "new file mode"
  | .deletedFileMode => "deleted file mode"
  | .similarity => "similarity index "
  | .renameFrom => "rename from "
  | .renameTo => "rename to "
  | .index => "index "
  | .binary => "Binary files "
  | .minus => "--- "
  | .plus => "+++ "

/-- A line that no break is in. -/
structure HeaderLine where
  keyword : HeaderKeyword
  rest : List Char
  noFeed : '\n' ∉ rest
  noReturn : '\r' ∉ rest

def HeaderLine.chars (line : HeaderLine) : List Char := line.keyword.text.toList ++ line.rest

def HeaderLine.text (line : HeaderLine) : String := String.ofList line.chars

theorem HeaderLine.toList_text (line : HeaderLine) :
    line.text.toList = line.keyword.text.toList ++ line.rest := String.toList_ofList

/-- A mode, a number or hashes. -/
structure PlainText where
  chars : List Char
  noFeed : '\n' ∉ chars
  noReturn : '\r' ∉ chars

inductive ChangeKind where
  | added (mode : PlainText)
  | deleted (mode : PlainText)
  | modified (modes : Option (PlainText × PlainText))
  | renamed (modes : Option (PlainText × PlainText)) (similarity : PlainText) (oldName : GitName)

def ChangeKind.oldName? : ChangeKind → Option GitName
  | .renamed _ _ oldName => some oldName
  | _ => none

/-- What is said of the content: nothing, that it is binary, or hunks. -/
inductive DiffBody where
  | none
  | binary
  | hunks (hunks : List DiffHunk)

structure FileChange where
  kind : ChangeKind
  name : GitName
  index : Option PlainText
  body : DiffBody
  moved : ∀ oldName ∈ kind.oldName?, oldName.bytes ≠ name.bytes

def FileChange.oldName (change : FileChange) : GitName := change.kind.oldName?.getD change.name

def FileChange.oldSide (change : FileChange) : List Char :=
  match change.kind with
  | .added _ => devNull
  | _ => sideName 0x61 change.oldName

def FileChange.newSide (change : FileChange) : List Char :=
  match change.kind with
  | .deleted _ => devNull
  | _ => sideName 0x62 change.name

theorem oldSide_graphic (change : FileChange) : ∀ c ∈ change.oldSide, IsGraphic c := by
  unfold FileChange.oldSide
  split
  · exact forall_mem_of_all (by decide)
  · exact fun c => sideName_graphic

theorem newSide_graphic (change : FileChange) : ∀ c ∈ change.newSide, IsGraphic c := by
  unfold FileChange.newSide
  split
  · exact forall_mem_of_all (by decide)
  · exact fun c => sideName_graphic

theorem not_mem_graphic {shown : List Char} (hshown : ∀ c ∈ shown, IsGraphic c) :
    '\n' ∉ shown ∧ '\r' ∉ shown :=
  ⟨fun hmem => absurd (hshown _ hmem) (by decide), fun hmem => absurd (hshown _ hmem) (by decide)⟩

def graphicLine (keyword : HeaderKeyword) (shown tail : List Char)
    (hshown : ∀ c ∈ shown, IsGraphic c) (htail : ∀ c ∈ tail, c = '\t') : HeaderLine where
  keyword
  rest := shown ++ tail
  noFeed := by
    rw [List.mem_append, not_or]
    exact ⟨(not_mem_graphic hshown).1, fun hmem => absurd (htail _ hmem) (by decide)⟩
  noReturn := by
    rw [List.mem_append, not_or]
    exact ⟨(not_mem_graphic hshown).2, fun hmem => absurd (htail _ hmem) (by decide)⟩

def nameLine (keyword : HeaderKeyword) (shown : List Char) (hshown : ∀ c ∈ shown, IsGraphic c) :
    HeaderLine :=
  graphicLine keyword shown [] hshown fun _ h => absurd h List.not_mem_nil

def plainLine (keyword : HeaderKeyword) (text : PlainText) : HeaderLine :=
  ⟨keyword, text.chars, text.noFeed, text.noReturn⟩

/-- The mode of a file that is made or deleted. -/
def modeLine (keyword : HeaderKeyword) (mode : PlainText) : HeaderLine where
  keyword
  rest := ' ' :: mode.chars
  noFeed := by
    rw [List.mem_cons, not_or]
    exact ⟨by decide, mode.noFeed⟩
  noReturn := by
    rw [List.mem_cons, not_or]
    exact ⟨by decide, mode.noReturn⟩

def modeLines : Option (PlainText × PlainText) → List HeaderLine
  | none => []
  | some (old, new) => [plainLine .oldMode old, plainLine .newMode new]

def FileChange.gitLine (change : FileChange) : HeaderLine :=
  nameLine .git (sideName 0x61 change.oldName ++ ' ' :: sideName 0x62 change.name) (by
    intro c hc
    rw [List.mem_append, List.mem_cons] at hc
    rcases hc with hold | rfl | hnew
    · exact sideName_graphic hold
    · decide
    · exact sideName_graphic hnew)

def FileChange.kindLines (change : FileChange) : List HeaderLine :=
  match change.kind with
  | .added mode => [modeLine .newFileMode mode]
  | .deleted mode => [modeLine .deletedFileMode mode]
  | .modified modes => modeLines modes
  | .renamed modes similarity oldName =>
    modeLines modes ++ [plainLine .similarity similarity,
      nameLine .renameFrom (printName oldName.bytes) fun _ => isGraphic_printName,
      nameLine .renameTo (printName change.name.bytes) fun _ => isGraphic_printName]

def FileChange.minusLine (change : FileChange) : HeaderLine :=
  graphicLine .minus change.oldSide (nameEnd change.oldSide) (oldSide_graphic change)
    (nameEnd_tab _)

def FileChange.plusLine (change : FileChange) : HeaderLine :=
  graphicLine .plus change.newSide (nameEnd change.newSide) (newSide_graphic change)
    (nameEnd_tab _)

def FileChange.binaryLine (change : FileChange) : HeaderLine :=
  nameLine .binary (change.oldSide ++ (" and ".toList ++ (change.newSide ++ " differ".toList))) (by
    have hand : ∀ c ∈ " and ".toList, IsGraphic c := forall_mem_of_all (by decide)
    have hdiffer : ∀ c ∈ " differ".toList, IsGraphic c := forall_mem_of_all (by decide)
    simp only [List.forall_mem_append]
    exact ⟨oldSide_graphic change, hand, newSide_graphic change, hdiffer⟩)

def FileChange.bodyLines (change : FileChange) : List HeaderLine :=
  match change.body with
  | .none => []
  | .binary => [change.binaryLine]
  | .hunks _ => [change.minusLine, change.plusLine]

def FileChange.front (change : FileChange) : List HeaderLine :=
  change.gitLine :: (change.kindLines ++ (change.index.toList.map (plainLine .index) ++
    change.bodyLines))

def FileChange.hunks (change : FileChange) : List DiffHunk :=
  match change.body with
  | .hunks hunks => hunks
  | _ => []

def FileChange.hunkLines (change : FileChange) : List (List Char) :=
  change.hunks.flatMap DiffHunk.lines

def FileChange.lines (change : FileChange) : List (List Char) :=
  change.front.map HeaderLine.chars ++ change.hunkLines

def endedChars (ls : List (List Char)) : List Char := ls.flatMap (· ++ ['\n'])

def FileChange.text (change : FileChange) : String := String.ofList (endedChars change.lines)

theorem FileChange.toList_text (change : FileChange) :
    change.text.toList = endedChars change.lines := String.toList_ofList

theorem noReturn_keyword (keyword : HeaderKeyword) :
    '\n' ∉ keyword.text.toList ∧ '\r' ∉ keyword.text.toList := by
  cases keyword <;> decide

theorem clash_keyword {keyword keyword' : HeaderKeyword} (h : keyword ≠ keyword') :
    clash keyword.text.toList keyword'.text.toList = true := by
  cases keyword <;> cases keyword' <;> first | exact absurd rfl h | decide

theorem unbroken_headerLine (line : HeaderLine) : Unbroken line.text := by
  rw [Unbroken, line.toList_text, List.mem_append, List.mem_append, not_or, not_or]
  obtain ⟨hfeed, hreturn⟩ := noReturn_keyword line.keyword
  exact ⟨⟨hfeed, line.noFeed⟩, hreturn, line.noReturn⟩

theorem hasPrefix_headerLine (keyword : HeaderKeyword) (line : HeaderLine) :
    hasPrefix keyword.text line.text = decide (line.keyword = keyword) := by
  rw [hasPrefix, line.toList_text]
  by_cases h : line.keyword = keyword
  · rw [h, decide_eq_true rfl, List.isPrefixOf_iff_prefix]
    exact List.prefix_append _ _
  · rw [decide_eq_false h]
    apply Bool.eq_false_iff.mpr
    intro hpre
    exact not_prefix_of_clash (clash_keyword (Ne.symm h)) _ (List.isPrefixOf_iff_prefix.mp hpre)

theorem stripPrefix_headerLine (keyword : HeaderKeyword) (line : HeaderLine) :
    stripPrefix keyword.text line.text =
      if line.keyword = keyword then some (String.ofList line.rest) else none := by
  rw [stripPrefix, hasPrefix_headerLine]
  by_cases h : line.keyword = keyword
  · have hdrop : line.text.toList.drop keyword.text.length = line.rest := by
      rw [line.toList_text, h, ← String.length_toList, List.drop_left]
    rw [decide_eq_true h, if_pos rfl, if_pos h, hdrop]
  · rw [decide_eq_false h, if_neg Bool.false_ne_true, if_neg h]

section Finding

variable (keyword : HeaderKeyword) (front : List HeaderLine)

theorem find?_keyword : (front.map HeaderLine.text).find? (hasPrefix keyword.text) =
    (front.find? (·.keyword = keyword)).map HeaderLine.text := by
  rw [List.find?_map]
  simp only [Function.comp_def, hasPrefix_headerLine]

theorem any_keyword : (front.map HeaderLine.text).any (hasPrefix keyword.text) =
    front.any (·.keyword = keyword) := by
  rw [List.any_map]
  simp only [Function.comp_def, hasPrefix_headerLine]

theorem findSome?_keyword : (front.map HeaderLine.text).findSome? (stripPrefix keyword.text) =
    (front.find? (·.keyword = keyword)).map fun line => String.ofList line.rest := by
  induction front with
  | nil => rfl
  | cons line front ih =>
    rw [List.map_cons, List.findSome?_cons, List.find?_cons, stripPrefix_headerLine, ih]
    by_cases h : line.keyword = keyword <;> simp [h]

end Finding

/-- A line of a hunk starts with none of the words that are looked for in all lines. -/
def IsHunkText (text : String) : Prop :=
  ∃ first rest, text.toList = first :: rest ∧ first ∈ ['@', '+', '-', ' ', '\\']

theorem hasPrefix_hunkText {text pre : String} (h : IsHunkText text) {c : Char}
    {chars : List Char} (hpre : pre.toList = c :: chars) (hc : c ∉ ['@', '+', '-', ' ', '\\']) :
    hasPrefix pre text = false := by
  obtain ⟨first, rest, htext, hfirst⟩ := h
  apply hasPrefix_eq_false (by rw [hpre]; rfl) htext
  rintro rfl
  exact hc hfirst

section ReadFile

variable (change : FileChange)

def FileChange.minus? : Option HeaderLine :=
  match change.body with
  | .hunks _ => some change.minusLine
  | _ => none

def FileChange.plus? : Option HeaderLine :=
  match change.body with
  | .hunks _ => some change.plusLine
  | _ => none

theorem find?_modeLines (keyword : HeaderKeyword) (hold : keyword ≠ .oldMode)
    (hnew : keyword ≠ .newMode) (modes : Option (PlainText × PlainText)) :
    (modeLines modes).find? (·.keyword = keyword) = none := by
  cases modes with
  | none => rfl
  | some modes => simp [modeLines, plainLine, Ne.symm hold, Ne.symm hnew]

theorem find?_index (keyword : HeaderKeyword) (h : keyword ≠ .index) :
    (change.index.toList.map (plainLine .index)).find? (·.keyword = keyword) = none := by
  cases change.index with
  | none => rfl
  | some index => simp [plainLine, Ne.symm h]

theorem find?_front {keyword : HeaderKeyword} (hgit : keyword ≠ .git) (hindex : keyword ≠ .index) :
    change.front.find? (·.keyword = keyword) =
      (change.kindLines.find? (·.keyword = keyword)).or
        (change.bodyLines.find? (·.keyword = keyword)) := by
  have hfirst : change.gitLine.keyword ≠ keyword := Ne.symm hgit
  rw [FileChange.front, List.find?_cons_of_neg (by simpa using hfirst), List.find?_append,
    List.find?_append, find?_index change keyword hindex, Option.none_or]

theorem find?_kindLines {keyword : HeaderKeyword} (hold : keyword ≠ .oldMode)
    (hnew : keyword ≠ .newMode) :
    change.kindLines.find? (·.keyword = keyword) =
      match change.kind, keyword with
      | .added mode, .newFileMode => some (modeLine .newFileMode mode)
      | .deleted mode, .deletedFileMode => some (modeLine .deletedFileMode mode)
      | .renamed _ similarity _, .similarity => some (plainLine .similarity similarity)
      | .renamed _ _ oldName, .renameFrom =>
        some (nameLine .renameFrom (printName oldName.bytes) fun _ => isGraphic_printName)
      | .renamed _ _ _, .renameTo =>
        some (nameLine .renameTo (printName change.name.bytes) fun _ => isGraphic_printName)
      | _, _ => none := by
  unfold FileChange.kindLines
  cases change.kind with
  | added mode => cases keyword <;> rfl
  | deleted mode => cases keyword <;> rfl
  | modified modes =>
    rw [find?_modeLines keyword hold hnew]
  | renamed modes similarity oldName =>
    rw [List.find?_append, find?_modeLines keyword hold hnew]
    cases keyword <;> rfl

theorem find?_minus : change.front.find? (·.keyword = .minus) = change.minus? := by
  rw [find?_front change (by decide) (by decide), find?_kindLines change (by decide) (by decide)]
  unfold FileChange.bodyLines FileChange.minus?
  cases change.kind <;> cases change.body <;> rfl

theorem find?_plus : change.front.find? (·.keyword = .plus) = change.plus? := by
  rw [find?_front change (by decide) (by decide), find?_kindLines change (by decide) (by decide)]
  unfold FileChange.bodyLines FileChange.plus?
  cases change.kind <;> cases change.body <;> rfl

def ChangeKind.isAdded : ChangeKind → Bool
  | .added _ => true
  | _ => false

def ChangeKind.isDeleted : ChangeKind → Bool
  | .deleted _ => true
  | _ => false

theorem find?_renameFrom : (change.front.find? (·.keyword = .renameFrom)).map
    (fun line => String.ofList line.rest) =
      change.kind.oldName?.map fun oldName => String.ofList (printName oldName.bytes) := by
  rw [find?_front change (by decide) (by decide), find?_kindLines change (by decide) (by decide)]
  unfold FileChange.bodyLines
  cases change.kind <;> cases change.body <;>
    simp [ChangeKind.oldName?, nameLine, graphicLine, FileChange.binaryLine, FileChange.minusLine,
      FileChange.plusLine]

theorem find?_renameTo : (change.front.find? (·.keyword = .renameTo)).map
    (fun line => String.ofList line.rest) =
      change.kind.oldName?.map fun _ => String.ofList (printName change.name.bytes) := by
  rw [find?_front change (by decide) (by decide), find?_kindLines change (by decide) (by decide)]
  unfold FileChange.bodyLines
  cases change.kind <;> cases change.body <;>
    simp [ChangeKind.oldName?, nameLine, graphicLine, FileChange.binaryLine, FileChange.minusLine,
      FileChange.plusLine]

theorem any_newFileMode : change.front.any (·.keyword = .newFileMode) = change.kind.isAdded := by
  rw [← List.isSome_find?, find?_front change (by decide) (by decide),
    find?_kindLines change (by decide) (by decide)]
  unfold FileChange.bodyLines
  cases change.kind <;> cases change.body <;> rfl

theorem any_deletedFileMode :
    change.front.any (·.keyword = .deletedFileMode) = change.kind.isDeleted := by
  rw [← List.isSome_find?, find?_front change (by decide) (by decide),
    find?_kindLines change (by decide) (by decide)]
  unfold FileChange.bodyLines
  cases change.kind <;> cases change.body <;> rfl

/-- The name in the line of a rename, or else in the line of the old side. -/
def FileChange.oldPath? : Option String :=
  (change.kind.oldName?.map fun oldName => String.ofList (printName oldName.bytes)).or
    (change.minus?.bind fun line => parseDiffPath (String.ofList line.rest))

def FileChange.newPath? : Option String :=
  (change.kind.oldName?.map fun _ => String.ofList (printName change.name.bytes)).or
    (change.plus?.bind fun line => parseDiffPath (String.ofList line.rest))

def FileChange.readStatus (path : String) : FileStatus :=
  if change.kind.isAdded ∨ (change.minus?.map HeaderLine.text).any (hasInfix "/dev/null") then
    .added
  else if change.kind.isDeleted ∨
      (change.plus?.map HeaderLine.text).any (hasInfix "/dev/null") then .deleted
  else if change.oldPath? ≠ some path then .renamed
  else .modified

/-- What a change is read as under the chunks of its hunks. -/
def FileChange.readFile (chunks : List GitDiffChunk) : Option GitDiffFile :=
  (change.newPath?.or change.oldPath?).map fun path =>
    { path
      oldPath :=
        if change.readStatus path = .renamed then some (change.oldPath?.getD "") else none
      status := change.readStatus path
      additions := countLines chunks .add
      deletions := countLines chunks .delete
      chunks }

theorem minus?_eq_none (h : change.plus? = none) : change.minus? = none := by
  unfold FileChange.plus? at h
  unfold FileChange.minus?
  cases hbody : change.body with
  | none => rfl
  | binary => rfl
  | hunks hunks =>
    rw [hbody] at h
    cases h

theorem keyword_minus? : ∀ line ∈ change.minus?, line.keyword = .minus := by
  intro line hline
  rw [← find?_minus] at hline
  have hfound := List.find?_some hline
  simpa using hfound

theorem keyword_plus? : ∀ line ∈ change.plus?, line.keyword = .plus := by
  intro line hline
  rw [← find?_plus] at hline
  have hfound := List.find?_some hline
  simpa using hfound

theorem hasPrefix_hunk (line : HeaderLine) : hasPrefix "@@" line.text = false := by
  rw [hasPrefix, line.toList_text]
  apply Bool.eq_false_iff.mpr
  intro hpre
  have hclash : clash "@@".toList line.keyword.text.toList = true := by
    cases line.keyword <;> decide
  exact not_prefix_of_clash hclash _ (List.isPrefixOf_iff_prefix.mp hpre)

theorem parseBlock_change {block : String} {texts : List String}
    (hlines : lines block = change.front.map HeaderLine.text ++ texts)
    (htexts : ∀ text ∈ texts, IsHunkText text)
    (hbody : change.minus? = none → texts = []) :
    parseBlock block = change.readFile (readChunks texts) := by
  have hhunk {pre : String} {c : Char} {chars : List Char} (hpre : pre.toList = c :: chars)
      (hc : c ∉ ['@', '+', '-', ' ', '\\']) : ∀ text ∈ texts, hasPrefix pre text = false :=
    fun text htext => hasPrefix_hunkText (htexts text htext) hpre hc
  have hstrip {pre : String} {c : Char} {chars : List Char} (hpre : pre.toList = c :: chars)
      (hc : c ∉ ['@', '+', '-', ' ', '\\']) : texts.findSome? (stripPrefix pre) = none := by
    rw [List.findSome?_eq_none_iff]
    intro text htext
    rw [stripPrefix, hhunk hpre hc text htext, if_neg Bool.false_ne_true]
  have hnone {pre : String} {c : Char} {chars : List Char} (hpre : pre.toList = c :: chars)
      (hc : c ∉ ['@', '+', '-', ' ', '\\']) : texts.any (hasPrefix pre) = false := by
    rw [List.any_eq_false]
    intro text htext
    rw [hhunk hpre hc text htext]
    exact Bool.false_ne_true
  have hminus : (lines block).find? (hasPrefix "--- ") = change.minus?.map HeaderLine.text := by
    have hfront := find?_keyword .minus change.front
    rw [find?_minus] at hfront
    rw [hlines, List.find?_append]
    change ((change.front.map HeaderLine.text).find? (hasPrefix HeaderKeyword.minus.text)).or _ = _
    rw [hfront]
    cases hnone : change.minus? with
    | none => rw [hbody hnone]; rfl
    | some line => rfl
  have hplus : (lines block).find? (hasPrefix "+++ ") = change.plus?.map HeaderLine.text := by
    have hfront := find?_keyword .plus change.front
    rw [find?_plus] at hfront
    rw [hlines, List.find?_append]
    change ((change.front.map HeaderLine.text).find? (hasPrefix HeaderKeyword.plus.text)).or _ = _
    rw [hfront]
    cases hsome : change.plus? with
    | none => rw [hbody (minus?_eq_none change hsome)]; rfl
    | some line => rfl
  have hfrom : (lines block).findSome? (stripPrefix "rename from ") =
      change.kind.oldName?.map fun oldName => String.ofList (printName oldName.bytes) := by
    rw [hlines, List.findSome?_append, hstrip (c := 'r') rfl (by decide), Option.or_none,
      ← find?_renameFrom]
    exact findSome?_keyword .renameFrom change.front
  have hto : (lines block).findSome? (stripPrefix "rename to ") =
      change.kind.oldName?.map fun _ => String.ofList (printName change.name.bytes) := by
    rw [hlines, List.findSome?_append, hstrip (c := 'r') rfl (by decide), Option.or_none,
      ← find?_renameTo]
    exact findSome?_keyword .renameTo change.front
  have hadded : (lines block).any (hasPrefix "new file mode") = change.kind.isAdded := by
    rw [hlines, List.any_append, hnone (c := 'n') rfl (by decide), Bool.or_false,
      ← any_newFileMode]
    exact any_keyword .newFileMode change.front
  have hdeleted : (lines block).any (hasPrefix "deleted file mode") = change.kind.isDeleted := by
    rw [hlines, List.any_append, hnone (c := 'd') rfl (by decide), Bool.or_false,
      ← any_deletedFileMode]
    exact any_keyword .deletedFileMode change.front
  have hchunks : readChunks (lines block) = readChunks texts := by
    have hfront : ∀ text ∈ change.front.map HeaderLine.text, hasPrefix "@@" text = false := by
      intro text htext
      obtain ⟨line, -, rfl⟩ := List.mem_map.mp htext
      exact hasPrefix_hunk line
    rw [hlines, readChunks, List.foldl_append, readLine_front hfront]
    rfl
  have hside {keyword : HeaderKeyword} (hlength : keyword.text.length = 4)
      (line? : Option HeaderLine) (hkeyword : ∀ line ∈ line?, line.keyword = keyword) :
      (line?.map HeaderLine.text).bind
          (fun line => parseDiffPath (String.ofList (line.toList.drop 4))) =
        line?.bind fun line => parseDiffPath (String.ofList line.rest) := by
    cases line? with
    | none => rfl
    | some line =>
      rw [← hkeyword line rfl, ← String.length_toList] at hlength
      rw [Option.map_some, Option.bind_some, Option.bind_some, line.toList_text, ← hlength,
        List.drop_left]
  have hold := hside (by decide) change.minus? (keyword_minus? change)
  have hnew := hside (by decide) change.plus? (keyword_plus? change)
  unfold parseBlock
  simp only [hminus, hplus, hfrom, hto, hadded, hdeleted, hchunks]
  rw [hold, hnew]
  change (change.newPath?.or change.oldPath?).bind _ = _
  rw [FileChange.readFile]
  cases change.newPath?.or change.oldPath? with
  | none => rfl
  | some path => rfl

def FileChange.namesPath : Bool := change.minus?.isSome || change.kind.oldName?.isSome

theorem toList_trim_cons {c : Char} (hc : isWhitespace c = false) (rest : List Char) :
    (trim (String.ofList (c :: rest))).toList = c :: rest.rdropWhile isWhitespace := by
  have hback := rdropWhile_append_cons hc [] rest
  rw [List.nil_append, List.nil_append] at hback
  rw [trim_eq, String.toList_ofList, String.toList_ofList,
    List.dropWhile_cons_of_neg (by simp [hc]), hback]

theorem sideName_head {side : UInt8} (hside : side = 0x61 ∨ side = 0x62) (name : GitName) :
    ∃ c rest, sideName side name = c :: rest ∧ c ∈ ['a', 'b', '"'] := by
  unfold sideName printName
  split
  · refine ⟨byteChar side, _, rfl, ?_⟩
    rcases hside with rfl | rfl <;> decide
  · exact ⟨'"', _, rfl, by decide⟩

theorem isSome_parseDiffPath {side : UInt8} (hside : side = 0x61 ∨ side = 0x62) (name : GitName)
    (tail : List Char) :
    (parseDiffPath (String.ofList (sideName side name ++ tail))).isSome = true := by
  obtain ⟨c, rest, hname, hc⟩ := sideName_head hside name
  have hblank : isWhitespace c = false :=
    forall_mem_of_all (p := fun c => isWhitespace c = false) (by decide) c hc
  have hnull : trim (String.ofList (c :: (rest ++ tail))) ≠ "/dev/null" := by
    intro heq
    have hchars := congrArg String.toList heq
    rw [toList_trim_cons hblank] at hchars
    obtain rfl : c = '/' := (List.cons.inj hchars).1
    exact absurd hc (by decide)
  rw [parseDiffPath, hname, List.cons_append]
  simp only [if_neg hnull, Option.isSome_some]

theorem isSome_readFile (chunks : List GitDiffChunk) :
    (change.readFile chunks).isSome = change.namesPath := by
  rw [FileChange.readFile, Option.isSome_map, Option.isSome_or]
  unfold FileChange.newPath? FileChange.oldPath? FileChange.namesPath
  cases hrename : change.kind.oldName? with
  | some oldName => simp
  | none =>
    unfold FileChange.plus? FileChange.minus?
    cases hbody : change.body with
    | none => rfl
    | binary => rfl
    | hunks hunks =>
      have hminus : change.minusLine.rest = change.oldSide ++ nameEnd change.oldSide := rfl
      have hplus : change.plusLine.rest = change.newSide ++ nameEnd change.newSide := rfl
      simp only [Option.map_none, Option.none_or, Option.bind_some, Option.isSome_some,
        Bool.true_or]
      rw [hminus, hplus]
      unfold FileChange.oldSide FileChange.newSide
      cases hkind : change.kind with
      | added mode => rw [isSome_parseDiffPath (.inr rfl), Bool.true_or]
      | deleted mode => rw [isSome_parseDiffPath (.inl rfl), Bool.or_true]
      | modified modes => rw [isSome_parseDiffPath (.inr rfl), Bool.true_or]
      | renamed modes similarity oldName =>
        rw [isSome_parseDiffPath (.inr rfl), Bool.true_or]

end ReadFile

theorem lines_endedChars {ls : List (List Char)} (h : ∀ l ∈ ls, '\n' ∉ l) :
    lines (String.ofList (endedChars ls)) = ls.map fun l => dropCr (String.ofList l) := by
  have hjoin : String.ofList (endedChars ls) =
      String.join ((ls.map String.ofList).map (· ++ "\n")) := by
    rw [← String.toList_inj, String.toList_ofList, String.toList_join, List.flatMap_map,
      List.flatMap_map]
    exact List.flatMap_congr fun l _ => by simp
  rw [hjoin, lines_join, List.map_map]
  · rfl
  · intro text htext
    obtain ⟨l, hl, rfl⟩ := List.mem_map.mp htext
    rw [String.toList_ofList]
    exact h l hl

theorem endedChars_append (ls ls' : List (List Char)) :
    endedChars (ls ++ ls') = endedChars ls ++ endedChars ls' := List.flatMap_append

theorem lines_open {ls : List (List Char)} (h : ∀ l ∈ ls, '\n' ∉ l) {last : List Char}
    (hlast : '\n' ∉ last) (hne : last ≠ []) :
    lines (String.ofList (endedChars ls ++ last)) =
      (ls.map fun l => dropCr (String.ofList l)) ++ [String.ofList last] := by
  have hsplit : (endedChars ls ++ last).splitOn '\n' = ls ++ [last] := by
    induction ls with
    | nil => exact List.splitOn_eq_singleton hlast
    | cons l ls ih =>
      rw [List.forall_mem_cons] at h
      rw [endedChars, List.flatMap_cons, List.append_assoc, List.append_assoc,
        List.singleton_append, List.splitOn_append_cons_self_of_not_mem h.1]
      exact congrArg (l :: ·) (ih h.2)
  rw [lines, String.toList_ofList, hsplit, List.dropLast_concat, List.getLast?_concat,
    List.map_append, List.map_map]
  simp [hne, dropCr, Function.comp_def]

theorem isDigit_toDigits {n : Nat} {c : Char} (h : c ∈ Nat.toDigits 10 n) : c.isDigit = true :=
  Nat.isDigit_of_mem_toDigits (by decide) (by decide) h

theorem isWhitespace_range {start count : Nat} {c : Char} (h : c ∈ printRange start count) :
    isWhitespace c = false := by
  unfold printRange at h
  rcases List.mem_append.mp h with hstart | hcount
  · exact isWhitespace_digit (isDigit_toDigits hstart)
  · split at hcount
    · exact absurd hcount List.not_mem_nil
    · rcases List.mem_cons.mp hcount with rfl | hdigit
      · decide
      · exact isWhitespace_digit (isDigit_toDigits hdigit)

theorem unbroken_range (start count : Nat) :
    '\n' ∉ printRange start count ∧ '\r' ∉ printRange start count :=
  ⟨fun hmem => absurd (isWhitespace_range hmem) (by decide),
    fun hmem => absurd (isWhitespace_range hmem) (by decide)⟩

theorem noFeed_hunk (hunk : DiffHunk) : ∀ l ∈ hunk.lines, '\n' ∉ l := by
  rw [DiffHunk.lines, List.forall_mem_cons]
  constructor
  · have hnoFeed := hunk.noFeed
    simp [DiffHunk.header, unbroken_range, hnoFeed]
  · intro l hl
    obtain ⟨line, -, rfl⟩ := List.mem_map.mp hl
    cases line with
    | text mark content noFeed =>
      rw [HunkText.chars, List.mem_cons, not_or]
      refine ⟨?_, noFeed⟩
      cases mark <;> decide
    | noNewline => decide

theorem dropCr_cons {first : Char} (hfeed : '\n' ≠ first) (hreturn : '\r' ≠ first)
    (rest : List Char) : (dropCr (String.ofList (first :: rest))).toList =
      first :: (dropCr (String.ofList rest)).toList := by
  have hfirst : Unbroken (String.ofList [first]) := by
    simp [Unbroken, hfeed, hreturn]
  have hsplit : String.ofList (first :: rest) = String.ofList [first] ++ String.ofList rest := by
    rw [← String.ofList_append]
    rfl
  rw [hsplit, dropCr_append hfirst, String.toList_append, String.toList_ofList]
  rfl

theorem hunkLine_start {hunk : DiffHunk} {l : List Char} (h : l ∈ hunk.lines) :
    ∃ first rest, l = first :: rest ∧ first ∈ ['@', '+', '-', ' ', '\\'] := by
  rcases List.mem_cons.mp h with rfl | hbody
  · exact ⟨'@', _, rfl, by decide⟩
  · obtain ⟨line, -, rfl⟩ := List.mem_map.mp hbody
    cases line with
    | text mark content noFeed =>
      refine ⟨markChar mark, content, rfl, ?_⟩
      cases mark <;> decide
    | noNewline => exact ⟨'\\', _, rfl, by decide⟩

/-- A line of a hunk is a text of one, whether or not a carriage return is taken off. -/
theorem isHunkText_hunk {hunk : DiffHunk} {l : List Char} (h : l ∈ hunk.lines) :
    IsHunkText (dropCr (String.ofList l)) ∧ IsHunkText (String.ofList l) := by
  obtain ⟨first, rest, rfl, hfirst⟩ := hunkLine_start h
  have hbreak : '\n' ≠ first ∧ '\r' ≠ first :=
    forall_mem_of_all (p := fun c => '\n' ≠ c ∧ '\r' ≠ c) (by decide) first hfirst
  exact ⟨⟨first, _, dropCr_cons hbreak.1 hbreak.2 rest, hfirst⟩,
    first, rest, String.toList_ofList, hfirst⟩

/-- What is read of the lines of a change, each of them ended. -/
def FileChange.hunkTexts (change : FileChange) : List String :=
  change.hunkLines.map fun l => dropCr (String.ofList l)

theorem mem_hunkLines {change : FileChange} {l : List Char} (h : l ∈ change.hunkLines) :
    ∃ hunk ∈ change.hunks, l ∈ hunk.lines := List.mem_flatMap.mp h

theorem noFeed_lines (change : FileChange) : ∀ l ∈ change.lines, '\n' ∉ l := by
  intro l hl
  rcases List.mem_append.mp hl with hfront | hhunks
  · obtain ⟨line, -, rfl⟩ := List.mem_map.mp hfront
    have hunbroken := (unbroken_headerLine line).1
    rwa [HeaderLine.text, String.toList_ofList] at hunbroken
  · obtain ⟨hunk, -, hmem⟩ := mem_hunkLines hhunks
    exact noFeed_hunk hunk l hmem

theorem front_texts (change : FileChange) :
    (change.front.map HeaderLine.chars).map (fun l => dropCr (String.ofList l)) =
      change.front.map HeaderLine.text := by
  rw [List.map_map]
  exact List.map_congr_left fun line _ => (unbroken_headerLine line).dropCr

theorem hunkLines_of_minus? {change : FileChange} (h : change.minus? = none) :
    change.hunkLines = [] := by
  unfold FileChange.minus? at h
  unfold FileChange.hunkLines FileChange.hunks
  cases hbody : change.body with
  | none => rfl
  | binary => rfl
  | hunks hunks =>
    rw [hbody] at h
    cases h

theorem parseBlock_text (change : FileChange) :
    parseBlock change.text = change.readFile (readChunks change.hunkTexts) := by
  apply parseBlock_change
  · rw [FileChange.text, lines_endedChars (noFeed_lines change), FileChange.lines, List.map_append,
      front_texts]
    rfl
  · intro text htext
    obtain ⟨l, hl, rfl⟩ := List.mem_map.mp htext
    obtain ⟨hunk, -, hmem⟩ := mem_hunkLines hl
    exact (isHunkText_hunk hmem).1
  · intro hnone
    rw [FileChange.hunkTexts, hunkLines_of_minus? hnone, List.map_nil]

theorem keyword_front_tail (change : FileChange) :
    ∀ line ∈ change.front.tail, line.keyword ≠ .git := by
  have hmodes (modes : Option (PlainText × PlainText)) :
      ∀ line ∈ modeLines modes, line.keyword ≠ .git := by
    cases modes <;> simp [modeLines, plainLine]
  rw [FileChange.front, List.tail_cons, List.forall_mem_append, List.forall_mem_append]
  refine ⟨?_, ?_, ?_⟩
  · unfold FileChange.kindLines
    cases change.kind with
    | added mode => simp [modeLine]
    | deleted mode => simp [modeLine]
    | modified modes => exact hmodes modes
    | renamed modes similarity oldName =>
      rw [List.forall_mem_append]
      exact ⟨hmodes modes, by simp [plainLine, nameLine, graphicLine]⟩
  · cases change.index <;> simp [plainLine]
  · unfold FileChange.bodyLines
    cases change.body <;> simp [FileChange.binaryLine, FileChange.minusLine, FileChange.plusLine,
      nameLine, graphicLine]

def headerMark : List Char := "\ndiff --git ".toList

theorem not_infix_lines (change : FileChange) : ¬headerMark <:+: endedChars change.lines := by
  intro hwithin
  have hne : "diff --git ".toList ≠ [] := by decide
  have hbreak : '\n' ∉ "diff --git ".toList := by decide
  obtain ⟨l, hl, hprefix⟩ := exists_line_of_infix hne hbreak (noFeed_lines change) hwithin
  have htail : change.lines.tail = change.front.tail.map HeaderLine.chars ++ change.hunkLines := rfl
  rw [htail, List.mem_append] at hl
  rcases hl with hfront | hhunks
  · obtain ⟨line, hline, rfl⟩ := List.mem_map.mp hfront
    have hkeyword := keyword_front_tail change line hline
    exact not_prefix_of_clash (clash_keyword hkeyword.symm) _ hprefix
  · obtain ⟨hunk, -, hmem⟩ := mem_hunkLines hhunks
    obtain ⟨first, rest, rfl, hfirst⟩ := hunkLine_start hmem
    have heq : 'd' = first := (List.cons_prefix_cons.mp hprefix).1
    rw [← heq] at hfirst
    revert hfirst
    decide

theorem lines_start (change : FileChange) :
    ∃ c ∈ ['a', 'b', '"'], ∃ rest, endedChars change.lines = "diff --git ".toList ++ c :: rest := by
  obtain ⟨c, name, hname, hc⟩ := sideName_head (.inl rfl) change.oldName
  have hcons : change.lines = change.gitLine.chars :: change.lines.tail := rfl
  have hgit : change.gitLine.chars = "diff --git ".toList ++
      (sideName 0x61 change.oldName ++ ' ' :: sideName 0x62 change.name ++ []) := rfl
  refine ⟨c, hc, ?_⟩
  refine ⟨name ++ (' ' :: sideName 0x62 change.name ++ '\n' :: endedChars change.lines.tail), ?_⟩
  rw [hcons, endedChars, List.flatMap_cons, hgit, hname]
  simp [endedChars]

theorem parseUnifiedDiff_text (change : FileChange) :
    parseUnifiedDiff change.text = (parseBlock change.text).toList := by
  have hprefix : hasPrefix "diff --git " change.text = true := by
    obtain ⟨c, -, rest, hrest⟩ := lines_start change
    rw [hasPrefix, List.isPrefixOf_iff_prefix, change.toList_text, hrest]
    exact List.prefix_append _ _
  have hone : splitStr "\ndiff --git " change.text = [change.text] := by
    apply splitStr_of_not_infix
    rw [change.toList_text]
    exact not_infix_lines change
  rw [parseUnifiedDiff, hone, List.foldl_cons, List.foldl_nil, readBlock, if_pos hprefix,
    List.nil_append]

/-- A file becomes executable, and another gets a line. -/
def modeChange : FileChange where
  kind := .modified (some (⟨"100644".toList, by decide, by decide⟩,
    ⟨"100755".toList, by decide, by decide⟩))
  name := plainName
  index := none
  body := .none
  moved := by simp [ChangeKind.oldName?]

def oneLineChange : FileChange where
  kind := .modified none
  name := ⟨[0x67], by decide, by decide, by decide⟩
  index := none
  body := .hunks [⟨0, 1, [], [.text .add ['x'] (by decide)], by decide, by decide, by decide⟩]
  moved := by simp [ChangeKind.oldName?]

def addedLine : DiffHunk :=
  ⟨0, 1, [], [.text .add ['x'] (by decide)], by decide, by decide, by decide⟩

/-- The name is an `e` with an accent. -/
def accentChange : FileChange where
  kind := .modified none
  name := ⟨[0xc3, 0xa9], by decide, by decide, by decide⟩
  index := none
  body := .hunks [addedLine]
  moved := by simp [ChangeKind.oldName?]

def deletedLine : DiffHunk :=
  ⟨1, 0, [], [.text .delete ['x'] (by decide)], by decide, by decide, by decide⟩

/-- The file `dev/null` of the repository. -/
def nullChange : FileChange where
  kind := .deleted ⟨"100644".toList, by decide, by decide⟩
  name := ⟨[0x64, 0x65, 0x76, 0x2f, 0x6e, 0x75, 0x6c, 0x6c], by decide, by decide, by decide⟩
  index := none
  body := .hunks [deletedLine]
  moved := by simp [ChangeKind.oldName?]

def imitatingHunk : DiffHunk where
  oldStart := 1
  newStart := 1
  heading := []
  body := [.text .delete "-- a/f".toList (by decide), .text .add "++ b/f".toList (by decide),
    .noNewline, .text .normal "@@ -9 +9 @@".toList (by decide)]
  noFeed := List.not_mem_nil
  old_fits := by decide
  new_fits := by decide

def imitatingChange : FileChange where
  kind := .modified none
  name := plainName
  index := none
  body := .hunks [imitatingHunk]
  moved := by simp [ChangeKind.oldName?]

end HerdrWebui.Git
