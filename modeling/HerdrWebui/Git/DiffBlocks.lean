import HerdrWebui.Git.DiffText

/-!
The changes of a diff one after the other. The text is cut at the line feed in front of each
change but the first, so all changes but the last are read without the line feed at their end,
and as long as no file has been read the next changes are passed over.
-/

namespace HerdrWebui.Git

/-- A separator whose first character stands nowhere else in it cuts at its first place. -/
theorem splitStr_go_append {c : Char} {sep piece : List Char} (hc : c ∉ sep)
    (h : ¬c :: sep <:+: piece) (rest acc : List Char) :
    splitStr.go (c :: sep) 0 (piece ++ (c :: sep ++ rest)) acc =
      (acc.reverse ++ piece) :: splitStr.go (c :: sep) 0 rest [] := by
  induction piece generalizing acc with
  | nil =>
    have hpre : (c :: sep).isPrefixOf (c :: (sep ++ rest)) = true := by
      rw [List.isPrefixOf_iff_prefix, ← List.cons_append]
      exact List.prefix_append _ _
    rw [List.nil_append, List.cons_append, splitStr.go, if_pos hpre, splitStr_go_skip,
      List.length_cons, Nat.add_sub_cancel, List.drop_left, List.append_nil]
  | cons d piece ih =>
    rw [List.infix_cons_iff, not_or] at h
    have hpre : ¬(c :: sep).isPrefixOf (d :: (piece ++ (c :: sep ++ rest))) = true := by
      rw [List.isPrefixOf_iff_prefix]
      intro hpre
      apply h.1
      rw [List.cons_prefix_cons] at hpre ⊢
      rw [List.cons_append, prefix_append_cons_iff hc] at hpre
      exact hpre
    rw [List.cons_append, splitStr.go, if_neg hpre, ih h.2]
    simp

/-- The text of a change without the line feed at its end. -/
def FileChange.unended (change : FileChange) : List Char := (endedChars change.lines).dropLast

/-- What is left of it without the words that start a change. -/
def FileChange.unnamed (change : FileChange) : List Char := change.unended.drop 11

theorem endedChars_eq (change : FileChange) :
    endedChars change.lines = change.unended ++ ['\n'] := by
  obtain ⟨init, last, hlast⟩ := List.eq_nil_or_concat' change.lines |>.resolve_left
    (List.cons_ne_nil _ _)
  have hended : endedChars change.lines = endedChars init ++ last ++ ['\n'] := by
    rw [hlast, endedChars_append]
    simp [endedChars]
  rw [FileChange.unended, hended, List.dropLast_concat]

theorem unended_eq (change : FileChange) :
    change.unended = "diff --git ".toList ++ change.unnamed ∧
      ∃ c ∈ ['a', 'b', '"'], ∃ rest, change.unnamed = c :: rest := by
  obtain ⟨c, hc, rest, hlines⟩ := lines_start change
  rw [endedChars_eq] at hlines
  have hne : rest ≠ [] := by
    rintro rfl
    have hlast := congrArg List.getLast? hlines
    rw [List.getLast?_concat, List.getLast?_append_cons, List.getLast?_singleton] at hlast
    rw [← Option.some.inj hlast] at hc
    revert hc
    decide
  obtain ⟨init, last, rfl⟩ := (List.eq_nil_or_concat' rest).resolve_left hne
  have hunended : change.unended = "diff --git ".toList ++ c :: init := by
    rw [← List.cons_append, ← List.append_assoc] at hlines
    exact (List.append_inj' hlines rfl).1
  have hunnamed : change.unnamed = c :: init := by
    rw [FileChange.unnamed, hunended]
    rfl
  rw [hunnamed]
  exact ⟨hunended, c, hc, init, rfl⟩

/-- The pieces of a text: the changes behind the first lose what starts them. -/
def blockPieces (piece : List Char) : List FileChange → List (List Char)
  | [] => [piece ++ ['\n']]
  | change :: changes => piece :: blockPieces change.unnamed changes

def joinedChars (changes : List FileChange) : List Char :=
  changes.flatMap fun change => endedChars change.lines

theorem splitStr_go_blocks {piece : List Char} (h : ¬headerMark <:+: piece ++ ['\n'])
    (changes : List FileChange) :
    splitStr.go headerMark 0 (piece ++ '\n' :: joinedChars changes) [] =
      blockPieces piece changes := by
  induction changes generalizing piece with
  | nil =>
    rw [blockPieces]
    exact splitStr_go_of_not_infix h []
  | cons change changes ih =>
    have hmark : headerMark = '\n' :: "diff --git ".toList := rfl
    have hstart : '\n' ∉ "diff --git ".toList := by decide
    have hpiece : ¬ '\n' :: "diff --git ".toList <:+: piece := fun hwithin =>
      h (hwithin.trans (List.prefix_append _ _).isInfix)
    have hrest : ¬headerMark <:+: change.unnamed ++ ['\n'] := by
      intro hwithin
      apply not_infix_lines change
      rw [endedChars_eq, (unended_eq change).1, List.append_assoc]
      exact hwithin.trans (List.suffix_append _ _).isInfix
    have hjoined : piece ++ '\n' :: joinedChars (change :: changes) =
        piece ++ ('\n' :: "diff --git ".toList ++
          (change.unnamed ++ '\n' :: joinedChars changes)) := by
      rw [joinedChars, List.flatMap_cons, endedChars_eq, (unended_eq change).1]
      simp [joinedChars]
    rw [hjoined, hmark, splitStr_go_append hstart hpiece, ← hmark, ih hrest, blockPieces]
    rfl

/-- What is read of a change with others behind it, or of the last one. -/
def readCut (change : FileChange) : List FileChange → Option GitDiffFile
  | [] => parseBlock change.text
  | _ :: _ => parseBlock (String.ofList change.unended)

def readAll : List FileChange → List GitDiffFile
  | [] => []
  | change :: changes => (readCut change changes).toList ++ readAll changes

theorem readBlock_named (change : FileChange) (chars tail : List Char)
    (hchars : "diff --git ".toList ++ chars = change.unended ++ tail) (files : List GitDiffFile) :
    readBlock files (String.ofList chars) =
      if files = [] then [] else
        files ++ (parseBlock (String.ofList (change.unended ++ tail))).toList := by
  obtain ⟨hunended, c, hc, rest, hunnamed⟩ := unended_eq change
  rw [hunended, List.append_assoc] at hchars
  have hsame := List.append_cancel_left hchars
  have hpre : hasPrefix "diff --git " (String.ofList chars) = false := by
    apply @hasPrefix_eq_false _ _ 'd' c (rest ++ tail) rfl
    · rw [String.toList_ofList, hsame, hunnamed, List.cons_append]
    · rintro rfl
      revert hc
      decide
  have hnamed : "diff --git " ++ String.ofList chars =
      String.ofList (change.unended ++ tail) := by
    rw [hunended, hsame, List.append_assoc]
    refine Eq.symm (String.ofList_append.trans ?_)
    rw [String.ofList_toList]
  rw [readBlock, if_neg (by rw [hpre]; exact Bool.false_ne_true), hnamed]
  split
  · next hempty => exact hempty
  · rfl

theorem foldl_blockPieces (files : List GitDiffFile) (change : FileChange)
    (changes : List FileChange) :
    ((blockPieces change.unnamed changes).map String.ofList).foldl readBlock files =
      if files = [] then [] else files ++ readAll (change :: changes) := by
  have hunended := (unended_eq change).1
  induction changes generalizing files change with
  | nil =>
    have hlast : parseBlock (String.ofList (change.unended ++ ['\n'])) =
        parseBlock change.text := by
      rw [FileChange.text, endedChars_eq]
    have hread := readBlock_named change (change.unnamed ++ ['\n']) ['\n']
      (by rw [hunended, List.append_assoc]) files
    rw [hlast] at hread
    rw [blockPieces, List.map_singleton, List.foldl_cons, List.foldl_nil, hread, readAll, readAll,
      List.append_nil]
    rfl
  | cons change' changes ih =>
    have hread := readBlock_named change change.unnamed []
      (by rw [← hunended, List.append_nil]) files
    rw [List.append_nil] at hread
    rw [blockPieces, List.map_cons, List.foldl_cons, hread]
    by_cases hempty : files = []
    · rw [if_pos hempty, if_pos hempty, ih [] change' (unended_eq change').1, if_pos rfl]
    · rw [if_neg hempty, if_neg hempty, ih _ change' (unended_eq change').1,
        if_neg (by simp [hempty]), List.append_assoc]
      rfl

theorem toList_join_text (changes : List FileChange) :
    (String.join (changes.map FileChange.text)).toList = joinedChars changes := by
  rw [String.toList_join, List.flatMap_map]
  exact List.flatMap_congr fun change _ => change.toList_text

theorem parseUnifiedDiff_join (change : FileChange) (changes : List FileChange) :
    parseUnifiedDiff (String.join ((change :: changes).map FileChange.text)) =
      if (readCut change changes).isSome then readAll (change :: changes) else [] := by
  have hpre (tail : List Char) :
      hasPrefix "diff --git " (String.ofList (change.unended ++ tail)) = true := by
    rw [(unended_eq change).1, List.append_assoc, String.ofList_append, String.ofList_toList]
    exact hasPrefix_append _ _
  have hfirst (tail : List Char) : readBlock [] (String.ofList (change.unended ++ tail)) =
      (parseBlock (String.ofList (change.unended ++ tail))).toList := by
    rw [readBlock, if_pos (hpre tail), List.nil_append]
  have hpieces : splitStr "\ndiff --git " (String.join ((change :: changes).map FileChange.text)) =
      (blockPieces change.unended changes).map String.ofList := by
    have hone : ¬headerMark <:+: change.unended ++ ['\n'] := by
      rw [← endedChars_eq]
      exact not_infix_lines change
    have hjoined : joinedChars (change :: changes) =
        change.unended ++ '\n' :: joinedChars changes := by
      rw [joinedChars, List.flatMap_cons, endedChars_eq]
      simp [joinedChars]
    rw [splitStr, toList_join_text, hjoined]
    exact congrArg (List.map String.ofList) (splitStr_go_blocks hone changes)
  rw [parseUnifiedDiff, hpieces]
  cases changes with
  | nil =>
    have hlast : change.unended ++ ['\n'] = endedChars change.lines := (endedChars_eq change).symm
    rw [blockPieces, List.map_singleton, List.foldl_cons, List.foldl_nil, hfirst, hlast]
    change (parseBlock change.text).toList = _
    rw [readAll, readAll, List.append_nil, readCut]
    cases parseBlock change.text <;> rfl
  | cons change' changes =>
    have hcut := hfirst []
    rw [List.append_nil] at hcut
    have hread : readCut change (change' :: changes) =
        parseBlock (String.ofList change.unended) := rfl
    have hall : readAll (change :: change' :: changes) =
        (parseBlock (String.ofList change.unended)).toList ++ readAll (change' :: changes) := rfl
    rw [blockPieces, List.map_cons, List.foldl_cons, hcut, foldl_blockPieces, hall, hread]
    cases parseBlock (String.ofList change.unended) <;> simp

/-- The last line of the last hunk ends with a carriage return. -/
def FileChange.endsInReturn (change : FileChange) : Bool :=
  change.hunkLines.getLast?.any fun l => l.getLast? = some '\r'

/-- What is read of the lines of the hunks when the last of them is not ended. -/
def FileChange.openTexts (change : FileChange) : List String :=
  (change.hunkLines.dropLast.map fun l => dropCr (String.ofList l)) ++
    change.hunkLines.getLast?.toList.map String.ofList

theorem parseBlock_unended (change : FileChange) :
    parseBlock (String.ofList change.unended) = change.readFile (readChunks change.openTexts) := by
  have hunended {ls : List (List Char)} {last : List Char} (hlines : change.lines = ls ++ [last]) :
      change.unended = endedChars ls ++ last := by
    have hended : endedChars change.lines = endedChars ls ++ last ++ ['\n'] := by
      rw [hlines, endedChars_append]
      simp [endedChars]
    rw [FileChange.unended, hended, List.dropLast_concat]
  have hread {ls : List (List Char)} {last : List Char} (hlines : change.lines = ls ++ [last])
      (hne : last ≠ []) : lines (String.ofList change.unended) =
        (ls.map fun l => dropCr (String.ofList l)) ++ [String.ofList last] := by
    have hfeed := noFeed_lines change
    rw [hlines, List.forall_mem_append] at hfeed
    rw [hunended hlines]
    exact lines_open hfeed.1 (hfeed.2 last List.mem_cons_self) hne
  obtain hnone | ⟨init, last, hlast⟩ := List.eq_nil_or_concat' change.hunkLines
  · obtain ⟨front, line, hfront⟩ := (List.eq_nil_or_concat' change.front).resolve_left
      (List.cons_ne_nil _ _)
    have hlines : change.lines = front.map HeaderLine.chars ++ [line.chars] := by
      rw [FileChange.lines, hnone, hfront, List.map_append, List.append_nil, List.map_singleton]
    have hne : line.chars ≠ [] := by
      apply List.append_ne_nil_of_left_ne_nil
      cases line.keyword <;> decide
    have htexts : change.openTexts = [] := by
      rw [FileChange.openTexts, hnone]
      rfl
    apply parseBlock_change
    · have hkept : (front.map HeaderLine.chars).map (fun l => dropCr (String.ofList l)) =
          front.map HeaderLine.text := by
        rw [List.map_map]
        exact List.map_congr_left fun line _ => (unbroken_headerLine line).dropCr
      rw [hread hlines hne, hkept, htexts, hfront, List.map_append, List.append_nil]
      rfl
    · rw [htexts]
      exact fun text htext => absurd htext List.not_mem_nil
    · exact fun _ => htexts
  · have hmem (l : List Char) (h : l ∈ init ++ [last]) : ∃ hunk ∈ change.hunks, l ∈ hunk.lines := by
      rw [← hlast] at h
      exact mem_hunkLines h
    have htexts : change.openTexts =
        (init.map fun l => dropCr (String.ofList l)) ++ [String.ofList last] := by
      rw [FileChange.openTexts, hlast, List.dropLast_concat, List.getLast?_concat]
      rfl
    have hne : last ≠ [] := by
      obtain ⟨hunk, -, hline⟩ := hmem last List.mem_concat_self
      obtain ⟨first, rest, rfl, -⟩ := hunkLine_start hline
      exact List.cons_ne_nil _ _
    apply parseBlock_change
    · have hlines : change.lines = (change.front.map HeaderLine.chars ++ init) ++ [last] := by
        rw [FileChange.lines, hlast, List.append_assoc]
      rw [hread hlines hne, List.map_append, front_texts, htexts, List.append_assoc]
    · rw [htexts, List.forall_mem_append]
      constructor
      · intro text htext
        obtain ⟨l, hl, rfl⟩ := List.mem_map.mp htext
        obtain ⟨hunk, -, hline⟩ := hmem l (List.mem_append_left _ hl)
        exact (isHunkText_hunk hline).1
      · intro text htext
        obtain rfl := List.mem_singleton.mp htext
        obtain ⟨hunk, -, hline⟩ := hmem last List.mem_concat_self
        exact (isHunkText_hunk hline).2
    · intro hnone
      rw [hunkLines_of_minus? hnone] at hlast
      exact absurd hlast.symm (List.append_ne_nil_of_right_ne_nil _ (List.cons_ne_nil _ _))

def isKeptText (text : String) : Bool :=
  hasPrefix "@@" text || (text.toList.head?.bind lineType?).isSome

/-- The chunks that have been read, as they are printed. -/
def ChunkReader.printed (reader : ChunkReader) : List String :=
  (reader.chunks ++ reader.current.toList).flatMap printedLines

theorem printed_readLine (reader : ChunkReader) (text : String)
    (h : reader.current.isSome = true ∨ hasPrefix "@@" text = true) :
    (reader.readLine text).printed =
      reader.printed ++ (if isKeptText text then [text] else []) ∧
      (reader.readLine text).current.isSome = true := by
  cases hheader : hasPrefix "@@" text with
  | true =>
    rw [ChunkReader.readLine, if_pos hheader, isKeptText, hheader]
    exact ⟨by simp [ChunkReader.printed, printedLines], rfl⟩
  | false =>
    rw [hheader, or_iff_left Bool.false_ne_true] at h
    obtain ⟨chunk, hcurrent⟩ := Option.isSome_iff_exists.mp h
    rw [isKeptText, hheader, Bool.false_or]
    cases htext : text.toList with
    | nil =>
      have hsame : reader.readLine text = reader := by
        rw [ChunkReader.readLine, hheader, if_neg Bool.false_ne_true, hcurrent, htext]
      rw [hsame]
      exact ⟨(List.append_nil _).symm, h⟩
    | cons first content =>
      rw [List.head?_cons, Option.bind_some]
      cases hmark : lineType? first with
      | none =>
        have hsame : reader.readLine text = reader := by
          rw [ChunkReader.readLine, hheader, if_neg Bool.false_ne_true, hcurrent, htext]
          simp only [hmark]
        rw [hsame]
        exact ⟨(List.append_nil _).symm, h⟩
      | some mark =>
        have hfirst : first = markChar mark := by
          unfold lineType? at hmark
          split at hmark <;> cases hmark <;> rfl
        rw [hfirst] at htext
        obtain ⟨chunk', hprinted, hchunks, hcurrent'⟩ := readLine_marked hcurrent htext
        rw [ChunkReader.printed, ChunkReader.printed, hchunks, hcurrent', hcurrent]
        exact ⟨by simp [hprinted], rfl⟩

theorem printed_foldl {reader : ChunkReader} (h : reader.current.isSome = true)
    (texts : List String) :
    (texts.foldl ChunkReader.readLine reader).printed =
      reader.printed ++ texts.filter isKeptText := by
  induction texts generalizing reader with
  | nil => simp
  | cons text texts ih =>
    obtain ⟨hprinted, hcurrent⟩ := printed_readLine reader text (.inl h)
    rw [List.foldl_cons, ih hcurrent, hprinted, List.append_assoc]
    cases hkept : isKeptText text <;> simp [hkept]

theorem printed_readChunks {texts : List String}
    (h : ∀ text ∈ texts.head?, hasPrefix "@@" text = true) :
    (readChunks texts).flatMap printedLines = texts.filter isKeptText := by
  cases texts with
  | nil => rfl
  | cons text texts =>
    obtain ⟨hprinted, hcurrent⟩ := printed_readLine ⟨[], none, 0, 0⟩ text
      (.inr (h text rfl))
    have hfold := printed_foldl hcurrent texts
    rw [hprinted] at hfold
    change (texts.foldl ChunkReader.readLine (ChunkReader.readLine _ text)).printed = _
    rw [hfold]
    cases hkept : isKeptText text <;> simp [hkept, ChunkReader.printed]

theorem readFile_chunks {change : FileChange} {chunks : List GitDiffChunk} {file : GitDiffFile}
    (h : change.readFile chunks = some file) : file.chunks = chunks := by
  obtain ⟨path, -, rfl⟩ := Option.map_eq_some_iff.mp h
  rfl

theorem hunkLines_head (change : FileChange) :
    ∀ l ∈ change.hunkLines.head?, ∃ rest, l = '@' :: '@' :: rest := by
  intro l hl
  unfold FileChange.hunkLines at hl
  cases hhunks : change.hunks with
  | nil =>
    rw [hhunks] at hl
    cases hl
  | cons hunk hunks =>
    rw [hhunks] at hl
    obtain rfl : hunk.header = l := Option.some.inj hl
    exact ⟨_, rfl⟩

theorem hasPrefix_header (rest : List Char) :
    hasPrefix "@@" (dropCr (String.ofList ('@' :: '@' :: rest))) = true ∧
      hasPrefix "@@" (String.ofList ('@' :: '@' :: rest)) = true := by
  constructor
  · rw [hasPrefix, dropCr_cons (by decide) (by decide), dropCr_cons (by decide) (by decide)]
    rfl
  · simp [hasPrefix]

theorem texts_head (change : FileChange) :
    (∀ text ∈ change.hunkTexts.head?, hasPrefix "@@" text = true) ∧
      ∀ text ∈ change.openTexts.head?, hasPrefix "@@" text = true := by
  have hstart := hunkLines_head change
  unfold FileChange.hunkTexts FileChange.openTexts
  generalize change.hunkLines = ls at hstart
  cases ls with
  | nil => simp
  | cons l ls =>
    obtain ⟨rest, rfl⟩ := hstart l rfl
    have hheader := hasPrefix_header rest
    constructor
    · intro text htext
      obtain rfl := Option.some.inj htext
      exact hheader.1
    · intro text htext
      cases ls with
      | nil =>
        obtain rfl := Option.some.inj htext
        exact hheader.2
      | cons l' ls =>
        obtain rfl := Option.some.inj htext
        exact hheader.1

theorem isKeptText_return {hunk : DiffHunk} {l : List Char} (h : l ∈ hunk.lines)
    (hreturn : l.getLast? = some '\r') :
    isKeptText (dropCr (String.ofList l)) = true ∧ isKeptText (String.ofList l) = true := by
  rcases List.mem_cons.mp h with rfl | hbody
  · have hheader := hasPrefix_header (hunk.header.drop 2)
    have hstart : hunk.header = '@' :: '@' :: hunk.header.drop 2 := rfl
    rw [← hstart] at hheader
    rw [isKeptText, isKeptText, hheader.1, hheader.2, Bool.true_or, Bool.true_or]
    exact ⟨rfl, rfl⟩
  · obtain ⟨line, -, rfl⟩ := List.mem_map.mp hbody
    cases line with
    | text mark content noFeed =>
      have hmarked {text : String} {rest : List Char}
          (htext : text.toList = markChar mark :: rest) : isKeptText text = true := by
        rw [isKeptText, htext, List.head?_cons, Option.bind_some, lineType?_markChar,
          Option.isSome_some, Bool.or_true]
      constructor
      · apply hmarked
        cases mark <;> exact dropCr_cons (by decide) (by decide) content
      · exact hmarked String.toList_ofList
    | noNewline =>
      revert hreturn
      decide

/-- The two readings of a change differ just where the last line of a hunk would lose a carriage
return. -/
theorem parseBlock_unended_iff (change : FileChange) :
    parseBlock (String.ofList change.unended) = parseBlock change.text ↔
      change.endsInReturn = false := by
  rw [parseBlock_unended, parseBlock_text]
  obtain hnone | ⟨init, last, hlast⟩ := List.eq_nil_or_concat' change.hunkLines
  · refine iff_of_true ?_ ?_
    · rw [FileChange.openTexts, FileChange.hunkTexts, hnone]
      rfl
    · rw [FileChange.endsInReturn, hnone]
      rfl
  · have hopen : change.openTexts =
        (init.map fun l => dropCr (String.ofList l)) ++ [String.ofList last] := by
      rw [FileChange.openTexts, hlast, List.dropLast_concat, List.getLast?_concat]
      rfl
    have htexts : change.hunkTexts =
        (init.map fun l => dropCr (String.ofList l)) ++ [dropCr (String.ofList last)] := by
      rw [FileChange.hunkTexts, hlast, List.map_append]
      rfl
    have hreturn : change.endsInReturn = true ↔
        dropCr (String.ofList last) ≠ String.ofList last := by
      rw [ne_eq, dropCr_eq_self, not_not, String.toList_ofList, FileChange.endsInReturn, hlast,
        List.getLast?_concat, Option.any_some, decide_eq_true_eq]
    constructor
    · intro hsame
      by_contra hends
      rw [Bool.not_eq_false] at hends
      obtain ⟨hunk, -, hline⟩ := @mem_hunkLines change last
        (by rw [hlast]; exact List.mem_concat_self)
      have hlastReturn : last.getLast? = some '\r' := by
        rw [FileChange.endsInReturn, hlast, List.getLast?_concat, Option.any_some,
          decide_eq_true_eq] at hends
        exact hends
      obtain ⟨hkept, hkept'⟩ := isKeptText_return hline hlastReturn
      have hchunks : readChunks change.openTexts = readChunks change.hunkTexts := by
        have hnamed : (change.readFile (readChunks change.openTexts)).isSome = true := by
          rw [isSome_readFile, FileChange.namesPath]
          cases hminus : change.minus? with
          | none =>
            rw [hunkLines_of_minus? hminus] at hlast
            exact absurd hlast.symm (List.append_ne_nil_of_right_ne_nil _ (List.cons_ne_nil _ _))
          | some line => rfl
        obtain ⟨file, hfile⟩ := Option.isSome_iff_exists.mp hnamed
        rw [← readFile_chunks hfile]
        rw [hsame] at hfile
        exact readFile_chunks hfile
      obtain ⟨hfirst, hfirst'⟩ := texts_head change
      have hprinted := congrArg (List.flatMap printedLines) hchunks
      rw [printed_readChunks hfirst', printed_readChunks hfirst, hopen, htexts, List.filter_append,
        List.filter_append, List.append_cancel_left_eq, List.filter_cons_of_pos hkept',
        List.filter_cons_of_pos hkept] at hprinted
      exact hreturn.mp hends (List.cons.inj hprinted).1.symm
    · intro hends
      have hsame : dropCr (String.ofList last) = String.ofList last := by
        by_contra hother
        exact Bool.false_ne_true (hends.symm.trans (hreturn.mpr hother))
      rw [hopen, htexts, hsame]

/-- Each change is read as it is on its own: the first is read as a file unless none is, and the
last line feed is missed by none but the last. -/
structure ReadsAlone (changes : List FileChange) : Prop where
  first : ∀ change ∈ changes.head?, change.namesPath = true ∨
    ∀ other ∈ changes, other.namesPath = false
  ended : ∀ change ∈ changes.dropLast, change.endsInReturn = false

theorem isSome_readCut (change : FileChange) (changes : List FileChange) :
    (readCut change changes).isSome = change.namesPath := by
  cases changes with
  | nil =>
    rw [readCut, parseBlock_text]
    exact isSome_readFile change _
  | cons change' changes =>
    change (parseBlock (String.ofList change.unended)).isSome = _
    rw [parseBlock_unended]
    exact isSome_readFile change _

theorem readAll_iff (changes : List FileChange) :
    readAll changes = changes.flatMap (fun change => parseUnifiedDiff change.text) ↔
      ∀ change ∈ changes.dropLast, change.endsInReturn = false := by
  induction changes with
  | nil => simp [readAll]
  | cons change changes ih =>
    cases changes with
    | nil => simp [readAll, readCut, parseUnifiedDiff_text]
    | cons change' changes =>
      have hread : readAll (change :: change' :: changes) =
          (parseBlock (String.ofList change.unended)).toList ++ readAll (change' :: changes) :=
        rfl
      have hlength : (parseBlock (String.ofList change.unended)).toList.length =
          (parseBlock change.text).toList.length := by
        have hsome := (isSome_readCut change [change']).trans (isSome_readCut change []).symm
        change (parseBlock (String.ofList change.unended)).isSome =
          (parseBlock change.text).isSome at hsome
        rw [Option.length_toList, Option.length_toList, hsome]
      have hsame : (parseBlock (String.ofList change.unended)).toList =
          (parseBlock change.text).toList ↔ change.endsInReturn = false := by
        rw [← parseBlock_unended_iff]
        refine ⟨fun h => ?_, fun h => congrArg Option.toList h⟩
        have hheads := congrArg List.head? h
        rwa [Option.head?_toList, Option.head?_toList] at hheads
      rw [List.dropLast_cons_cons, List.forall_mem_cons, ← ih, ← hsame, hread,
        List.flatMap_cons, parseUnifiedDiff_text]
      constructor
      · exact fun h => List.append_inj h hlength
      · rintro ⟨hfirst, hmore⟩
        rw [hfirst, hmore]

theorem endsInReturn_of_namesPath {change : FileChange} (h : change.namesPath = false) :
    change.endsInReturn = false := by
  rw [FileChange.namesPath, Bool.or_eq_false_iff, Option.isSome_eq_false_iff,
    Option.isNone_iff_eq_none] at h
  rw [FileChange.endsInReturn, hunkLines_of_minus? h.1]
  rfl

/-- Changes are read one after the other as they are on their own just where the first of them
is read and no line feed is missed. -/
theorem parseUnifiedDiff_join_iff (changes : List FileChange) :
    parseUnifiedDiff (String.join (changes.map FileChange.text)) =
        changes.flatMap (fun change => parseUnifiedDiff change.text) ↔ ReadsAlone changes := by
  cases changes with
  | nil =>
    refine iff_of_true (by decide +kernel) ⟨?_, ?_⟩
    · exact fun change h => by cases h
    · exact fun change h => absurd h List.not_mem_nil
  | cons change changes =>
    rw [parseUnifiedDiff_join, isSome_readCut]
    cases hnamed : change.namesPath with
    | true =>
      rw [if_pos rfl, readAll_iff]
      constructor
      · intro hended
        refine ⟨fun first hfirst => .inl ?_, hended⟩
        obtain rfl := Option.some.inj hfirst
        exact hnamed
      · exact fun h => h.ended
    | false =>
      rw [if_neg Bool.false_ne_true]
      have hnone (other : FileChange) :
          parseUnifiedDiff other.text = [] ↔ other.namesPath = false := by
        rw [parseUnifiedDiff_text, ← isSome_readCut other []]
        change _ ↔ (parseBlock other.text).isSome = false
        cases parseBlock other.text <;> simp
      rw [eq_comm, List.flatMap_eq_nil_iff]
      constructor
      · intro h
        have hnames (other : FileChange) (hmem : other ∈ change :: changes) :
            other.namesPath = false := (hnone other).mp (h other hmem)
        refine ⟨fun first hfirst => .inr hnames, fun other hmem => ?_⟩
        exact endsInReturn_of_namesPath (hnames other (List.mem_of_mem_dropLast hmem))
      · intro h other hmem
        rcases h.first change rfl with hpath | hnames
        · exact absurd (hnamed.symm.trans hpath) Bool.false_ne_true
        · exact (hnone other).mpr (hnames other hmem)

/-- The second file is not read because the first names no path. -/
theorem parseUnifiedDiff_passedOver :
    parseUnifiedDiff (modeChange.text ++ oneLineChange.text) = [] ∧
      (parseUnifiedDiff oneLineChange.text).map (·.path) = ["g"] ∧
      ¬∀ changes : List FileChange,
        parseUnifiedDiff (String.join (changes.map FileChange.text)) =
          changes.flatMap fun change => parseUnifiedDiff change.text := by
  have hjoined : parseUnifiedDiff (modeChange.text ++ oneLineChange.text) = [] := by
    decide +kernel
  have halone : (parseUnifiedDiff oneLineChange.text).map (·.path) = ["g"] := by decide +kernel
  refine ⟨hjoined, halone, fun hall => ?_⟩
  have hboth := hall [modeChange, oneLineChange]
  have hjoin : String.join ([modeChange, oneLineChange].map FileChange.text) =
      modeChange.text ++ oneLineChange.text := by
    decide +kernel
  rw [hjoin, hjoined, List.flatMap_cons, List.flatMap_cons] at hboth
  have hnone := (List.append_eq_nil_iff.mp (List.append_eq_nil_iff.mp hboth.symm).2).1
  rw [hnone] at halone
  cases halone

end HerdrWebui.Git
