import HerdrWebui.Data.ByteIndex

/-!
The search in the content of a file. Rows are counted over the lines of the text, and the text
of a row is cut out again at an offset that counts one byte for each line end. The lines are
numbered as `str::lines` has them, where a carriage return before a line feed is left out.
-/

namespace HerdrWebui.Files

/-- A range of a line that is not cut inside a character. -/
def IsRange (line : String) (start stop : Nat) (found : List Char) : Prop :=
  ∃ before after, line.toList = before ++ (found ++ after) ∧
    start = byteLength before ∧ stop = byteLength (before ++ found)

/-- A compiled regular expression: what it finds is a range of the line, which may be empty. -/
structure Regex where
  find : String → Option (Nat × Nat)
  range : ∀ line start stop, find line = some (start, stop) → ∃ found, IsRange line start stop found

/-- `str::find`: the byte offset of the first place. -/
def findStr (needle : List Char) : List Char → Option Nat
  | [] => if needle = [] then some 0 else none
  | c :: rest =>
    if needle.isPrefixOf (c :: rest) then some 0
    else (findStr needle rest).map (· + c.utf8Size)

/-- No matcher is made of an empty query. -/
inductive ContentMatcher where
  | plain (needle : String) (nonempty : needle ≠ "")
  | regex (regex : Regex)

def ContentMatcher.find : ContentMatcher → String → Option (Nat × Nat)
  | .plain needle _, line =>
    (findStr needle.toList line.toList).map fun start =>
      (start, start + byteLength needle.toList)
  | .regex compiled, line => (compiled.find line).filter fun range => range.1 < range.2

structure ContentSearchMatch where
  id : String
  line : Nat
  column : Nat
  matchStart : Nat
  matchEnd : Nat
  startLine : Nat
  endLine : Nat
  content : String
  before : List String
  text : String
  after : List String
  deriving DecidableEq, Repr

/-- The chunks that are shown, which are made of the matches, are left out. -/
structure ContentSearchFile where
  path : String
  name : String
  size : Nat
  hash : String
  matchCount : Nat
  found : List ContentSearchMatch
  truncated : Bool
  deriving DecidableEq, Repr

structure FileMetadata where
  isFile : Bool
  len : Nat

/-- A file as it is asked for and read. -/
structure SearchedFile where
  rel : String
  metadata : Except String FileMetadata
  bytes : Except String ByteArray
  hash : Except String String

def maxContentSearchFileBytes : Nat := 1024 * 1024

/-- A slice that is not between characters, or out of the text, fails. -/
def lineAt (content : String) (offset : Nat) : Option String :=
  (splitAtByte offset content.toList).map fun cut =>
    String.ofList (cut.2.takeWhile (· ≠ '\n'))

abbrev LineRange := Nat × Option (Nat × Nat)

/-- Where each line is taken to start, and what is found in it. -/
def lineRanges (find : String → Option (Nat × Nat)) (length : Nat) :
    (lineStart : Nat) → List String → List LineRange
  | _, [] => []
  | lineStart, line :: rest =>
    let lineEnd := lineStart + byteLength line.toList
    (lineStart, find line) ::
      lineRanges find length (if lineEnd < length then lineEnd + 1 else lineEnd) rest

/-- What a search is asked for. -/
structure SearchRequest where
  rel : String
  qhash : String
  contextLines : Nat
  maxMatches : Nat

def rowAt (content : String) (ranges : List LineRange) (i : Nat) : Option String :=
  ranges[i]?.bind fun range => lineAt content range.1

def searchMatch (request : SearchRequest) (content : String) (ranges : List LineRange)
    (index offset matchStart matchEnd : Nat) : Option ContentSearchMatch := do
  let line ← lineAt content offset
  let start := index - request.contextLines
  let stop := min (index + request.contextLines + 1) ranges.length
  let before ← (List.range' start (index - start)).mapM (rowAt content ranges)
  let after ← (List.range' (index + 1) (stop - (index + 1))).mapM (rowAt content ranges)
  let snippet ← (List.range' start (stop - start)).mapM (rowAt content ranges)
  let lineNumber := index + 1
  let startLine := start + 1
  return {
    id := s!"{request.rel}:{startLine}:{lineNumber}:{request.qhash}"
    line := lineNumber
    column := matchStart + 1
    matchStart
    matchEnd
    startLine
    endLine := max stop (start + 1)
    content := "\n".intercalate snippet
    before
    text := line
    after }

/-- The lines from an index on, behind the matches that are there already. -/
def collectMatches (request : SearchRequest) (content : String) (ranges : List LineRange) :
    (index : Nat) → List LineRange → List ContentSearchMatch → Option (List ContentSearchMatch)
  | _, [], found => some found
  | index, (_, none) :: rest, found => collectMatches request content ranges (index + 1) rest found
  | index, (offset, some (matchStart, matchEnd)) :: rest, found =>
    if request.maxMatches ≤ found.length then some found
    else do
      let more ← searchMatch request content ranges index offset matchStart matchEnd
      collectMatches request content ranges (index + 1) rest (found ++ [more])

def basenameString (path : String) : String :=
  String.ofList ((path.toList.splitOn '/').getLast?.getD [])

/-- `none` is a panic. -/
def contentSearchFile (file : SearchedFile) (matcher : ContentMatcher)
    (qhash : String) (contextLines maxMatches : Nat) :
    Option (Except String (Option ContentSearchFile)) :=
  match file.metadata with
  | .error err => some (.error err)
  | .ok metadata =>
    if !metadata.isFile || maxContentSearchFileBytes < metadata.len then some (.ok none)
    else
      match file.bytes with
      | .error err => some (.error err)
      | .ok bytes =>
        if (bytes.data.toList.take 2048).any (· = 0) then some (.ok none)
        else
          match String.fromUTF8? bytes with
          | none => some (.ok none)
          | some content =>
            let ranges := lineRanges matcher.find (byteLength content.toList) 0
              (lines content)
            let matchCount := ranges.countP (·.2.isSome)
            if matchCount = 0 then some (.ok none)
            else
              let request : SearchRequest := ⟨file.rel, qhash, contextLines, maxMatches⟩
              (collectMatches request content ranges 0 ranges []).map fun found =>
                file.hash.map fun hash => some {
                  path := file.rel
                  name := basenameString file.rel
                  size := metadata.len
                  hash
                  matchCount
                  found
                  truncated := maxMatches < matchCount }

/-- A match has the row and the text of the line that the matcher finds it in, and the lines
next to it. -/
def PointsAt (ls : List String) (matcher : ContentMatcher) (contextLines : Nat)
    (found : ContentSearchMatch) : Prop :=
  ∃ index line, ls[index]? = some line ∧
    matcher.find line = some (found.matchStart, found.matchEnd) ∧
    (∃ chars, chars ≠ [] ∧ IsRange found.text found.matchStart found.matchEnd chars) ∧
    found.line = index + 1 ∧ found.text = line ∧
    found.before = (ls.take index).drop (index - contextLines) ∧
    found.after = (ls.drop (index + 1)).take contextLines

/-- Whatever is looked for, nothing fails and each match is where it says. No line number
overflows. -/
def FindsRight (content : String) : Prop :=
  ∀ (file : SearchedFile) (matcher : ContentMatcher) (qhash : String)
    (contextLines maxMatches : Nat),
    file.metadata = .ok ⟨true, content.toUTF8.size⟩ → file.bytes = .ok content.toUTF8 →
    (lines content).length + contextLines < 2 ^ 64 →
    ∃ result, contentSearchFile file matcher qhash contextLines maxMatches = some result ∧
      ∀ searched, result = .ok (some searched) →
        ∀ found ∈ searched.found, PointsAt (lines content) matcher contextLines found

theorem findStr_eq_some {needle chars : List Char} {start : Nat}
    (h : findStr needle chars = some start) :
    ∃ before after, chars = before ++ (needle ++ after) ∧ start = byteLength before := by
  induction chars generalizing start with
  | nil =>
    rw [findStr] at h
    split at h
    · next hempty => exact ⟨[], [], by simp [hempty], (Option.some.inj h).symm⟩
    · cases h
  | cons c chars ih =>
    rw [findStr] at h
    split at h
    · next hpre =>
        obtain ⟨after, hafter⟩ := List.isPrefixOf_iff_prefix.mp hpre
        exact ⟨[], after, hafter.symm, (Option.some.inj h).symm⟩
    · obtain ⟨start', hstart, rfl⟩ := Option.map_eq_some_iff.mp h
      obtain ⟨before, after, rfl, rfl⟩ := ih hstart
      exact ⟨c :: before, after, rfl, by rw [byteLength_cons, Nat.add_comm]⟩

theorem ContentMatcher.find_range {matcher : ContentMatcher} {line : String} {start stop : Nat}
    (h : matcher.find line = some (start, stop)) :
    ∃ chars, chars ≠ [] ∧ IsRange line start stop chars := by
  cases matcher with
  | plain needle nonempty =>
    obtain ⟨start', hstart, heq⟩ := Option.map_eq_some_iff.mp h
    obtain ⟨rfl, rfl⟩ := Prod.mk.inj heq
    obtain ⟨before, after, hline, rfl⟩ := findStr_eq_some hstart
    refine ⟨needle.toList, fun hnil => nonempty (String.toList_eq_nil_iff.mp hnil),
      before, after, hline, rfl, ?_⟩
    rw [byteLength_append]
  | regex compiled =>
    obtain ⟨hfind, hlt⟩ := Option.filter_eq_some_iff.mp h
    obtain ⟨chars, before, after, hline, rfl, rfl⟩ := compiled.range line start stop hfind
    refine ⟨chars, ?_, before, after, hline, rfl, rfl⟩
    rintro rfl
    simp at hlt

theorem ContentMatcher.find_empty (matcher : ContentMatcher) : matcher.find "" = none := by
  cases hfind : matcher.find "" with
  | none => rfl
  | some range =>
    obtain ⟨chars, hne, before, after, hline, -⟩ := ContentMatcher.find_range hfind
    rw [String.toList_empty, eq_comm, List.append_eq_nil_iff, List.append_eq_nil_iff] at hline
    exact absurd hline.2.1 hne

def endedRows (rows : List (List Char)) : List Char := rows.flatMap (· ++ ['\n'])

theorem splitOn_rows (chars : List Char) :
    ∃ rows last, chars.splitOn '\n' = rows ++ [last] ∧ chars = endedRows rows ++ last ∧
      (∀ row ∈ rows, '\n' ∉ row) ∧ '\n' ∉ last := by
  obtain ⟨rows, last, hpieces⟩ := (List.eq_nil_or_concat' (chars.splitOn '\n')).resolve_left
    (List.splitOn_ne_nil _ _)
  have hjoin (rows : List (List Char)) (last : List Char) :
      ['\n'].intercalate (rows ++ [last]) = endedRows rows ++ last := by
    induction rows with
    | nil => simp [endedRows]
    | cons row rows ih =>
      rw [List.cons_append, List.intercalate_cons_of_ne_nil (by simp), ih, endedRows, endedRows,
        List.flatMap_cons]
      simp
  have hbreak (row : List Char) (hrow : row ∈ rows ++ [last]) : '\n' ∉ row :=
    not_mem_splitOn (hpieces ▸ hrow)
  refine ⟨rows, last, hpieces, ?_, fun row hrow => hbreak row (List.mem_append_left _ hrow),
    hbreak last List.mem_concat_self⟩
  have hchars : ['\n'].intercalate (chars.splitOn '\n') = chars := List.intercalate_splitOn '\n'
  rw [hpieces, hjoin] at hchars
  exact hchars.symm

theorem crlf_infix_row {row : List Char} (hrow : '\n' ∉ row) (rest : List Char) :
    ['\r', '\n'] <:+: row ++ '\n' :: rest ↔
      row.getLast? = some '\r' ∨ ['\r', '\n'] <:+: rest := by
  induction row with
  | nil => simp [List.infix_cons_iff]
  | cons c row ih =>
    rw [List.mem_cons, not_or] at hrow
    rw [List.cons_append, List.infix_cons_iff, ih hrow.2, List.cons_prefix_cons, ← or_assoc]
    apply or_congr_left
    cases row with
    | nil => simp [eq_comm]
    | cons d row =>
      rw [List.mem_cons, not_or] at hrow
      rw [List.cons_append, List.cons_prefix_cons, List.getLast?_cons_cons,
        or_iff_right fun h => hrow.2.1 h.2.1]

theorem crlf_infix_rows {rows : List (List Char)} {last : List Char}
    (hrows : ∀ row ∈ rows, '\n' ∉ row) (hlast : '\n' ∉ last) :
    ['\r', '\n'] <:+: endedRows rows ++ last ↔ ∃ row ∈ rows, row.getLast? = some '\r' := by
  induction rows with
  | nil =>
    refine iff_of_false (fun h => hlast (h.subset (by simp))) (by simp)
  | cons row rows ih =>
    rw [List.forall_mem_cons] at hrows
    have hrest := ih hrows.2
    rw [endedRows] at hrest
    rw [endedRows, List.flatMap_cons, List.append_assoc, List.append_assoc,
      List.singleton_append, crlf_infix_row hrows.1, hrest]
    simp

theorem lines_rows {content : String} {rows : List (List Char)} {last : List Char}
    (h : content.toList.splitOn '\n' = rows ++ [last]) :
    lines content = (rows.map fun row => dropCr (String.ofList row)) ++
      if last = [] then [] else [String.ofList last] := by
  have hrow (row : List Char) : String.ofList
      (if row.getLast? = some '\r' then row.dropLast else row) = dropCr (String.ofList row) := by
    rw [dropCr, String.toList_ofList]
  rw [lines, h, List.dropLast_concat, List.getLast?_concat, List.map_append, List.map_map]
  congr 1
  · exact List.map_congr_left fun row _ => hrow row
  · by_cases hempty : last = [] <;> simp [hempty]

def nextLineStart (length lineStart : Nat) (line : String) : Nat :=
  let lineEnd := lineStart + byteLength line.toList
  if lineEnd < length then lineEnd + 1 else lineEnd

section Ranges

variable (find : String → Option (Nat × Nat)) (length : Nat)

theorem lineRanges_append (lineStart : Nat) (front back : List String) :
    lineRanges find length lineStart (front ++ back) =
      lineRanges find length lineStart front ++
        lineRanges find length (front.foldl (nextLineStart length) lineStart) back := by
  induction front generalizing lineStart with
  | nil => rfl
  | cons line front ih =>
    rw [List.cons_append, lineRanges, lineRanges, ih, List.foldl_cons]
    rfl

theorem length_lineRanges (lineStart : Nat) (ls : List String) :
    (lineRanges find length lineStart ls).length = ls.length := by
  induction ls generalizing lineStart with
  | nil => rfl
  | cons line ls ih => rw [lineRanges, List.length_cons, List.length_cons, ih]

theorem lineRanges_find (lineStart : Nat) (ls : List String) :
    (lineRanges find length lineStart ls).map (·.2) = ls.map find := by
  induction ls generalizing lineStart with
  | nil => rfl
  | cons line ls ih => rw [lineRanges, List.map_cons, List.map_cons, ih]

/-- Behind lines that end with a line feed only, the next line starts where it does. -/
theorem foldl_nextLineStart (rows : List (List Char)) (lineStart : Nat)
    (h : lineStart + byteLength (endedRows rows) ≤ length) :
    (rows.map String.ofList).foldl (nextLineStart length) lineStart =
      lineStart + byteLength (endedRows rows) := by
  induction rows generalizing lineStart with
  | nil => rfl
  | cons row rows ih =>
    have hcons : byteLength (endedRows (row :: rows)) =
        byteLength row + 1 + byteLength (endedRows rows) := by
      rw [endedRows, List.flatMap_cons, byteLength_append, byteLength_append]
      rfl
    have hnext : nextLineStart length lineStart (String.ofList row) =
        lineStart + byteLength row + 1 := by
      rw [nextLineStart, String.toList_ofList]
      exact if_pos (by omega)
    rw [List.map_cons, List.foldl_cons, hnext, ih _ (by omega)]
    omega

end Ranges

theorem rowAt_rows {find : String → Option (Nat × Nat)} {content : String}
    {rows : List (List Char)} {row : List Char} (tail : List Char) {line : String}
    {more : List String} (hchars : content.toList = endedRows rows ++ (row ++ tail)) (hrow : '\n' ∉ row)
    (htail : ∀ c ∈ tail.head?, c = '\n')
    (hlines : lines content = rows.map String.ofList ++ line :: more) :
    rowAt content (lineRanges find (byteLength content.toList) 0 (lines content)) rows.length =
      some (String.ofList row) := by
  have hstart : (rows.map String.ofList).foldl (nextLineStart (byteLength content.toList)) 0 =
      byteLength (endedRows rows) := by
    have hfold := foldl_nextLineStart (byteLength content.toList) rows 0
      (by rw [hchars, byteLength_append]; omega)
    rwa [Nat.zero_add] at hfold
  have hline : (row ++ tail).takeWhile (· ≠ '\n') = row := by
    have hall : ∀ c ∈ row, decide (c ≠ '\n') = true := fun c hc =>
      decide_eq_true fun heq => hrow (heq ▸ hc)
    rw [List.takeWhile_append_of_pos hall]
    cases tail with
    | nil => simp
    | cons c tail =>
      rw [htail c rfl]
      simp
  have hlength : (lineRanges find (byteLength content.toList) 0
      (rows.map String.ofList)).length = rows.length := by
    rw [length_lineRanges, List.length_map]
  rw [rowAt, hlines, lineRanges_append, hstart, lineRanges,
    List.getElem?_append_right hlength.le, hlength, Nat.sub_self, List.getElem?_cons_zero,
    Option.bind_some, lineAt, hchars, splitAtByte_append, Option.map_some, hline]

/-- The rows with something found: index, offset and range. -/
def foundRows : Nat → List LineRange → List (Nat × Nat × Nat × Nat)
  | _, [] => []
  | index, (_, none) :: rest => foundRows (index + 1) rest
  | index, (offset, some (matchStart, matchEnd)) :: rest =>
    (index, offset, matchStart, matchEnd) :: foundRows (index + 1) rest

theorem mem_foundRows {index offset matchStart matchEnd i : Nat} {ranges : List LineRange} :
    (i, offset, matchStart, matchEnd) ∈ foundRows index ranges ↔
      ∃ k, i = index + k ∧ ranges[k]? = some (offset, some (matchStart, matchEnd)) := by
  induction ranges generalizing index with
  | nil => simp [foundRows]
  | cons range rest ih =>
    obtain ⟨offset', found⟩ := range
    cases found with
    | none =>
      rw [foundRows, ih]
      constructor
      · rintro ⟨k, hk, hrange⟩
        exact ⟨k + 1, by omega, hrange⟩
      · rintro ⟨k, hk, hrange⟩
        cases k with
        | zero => cases hrange
        | succ k => exact ⟨k, by omega, hrange⟩
    | some range =>
      rw [foundRows, List.mem_cons, ih]
      constructor
      · rintro (heq | ⟨k, hk, hrange⟩)
        · simp only [Prod.mk.injEq] at heq
          obtain ⟨rfl, rfl, rfl, rfl⟩ := heq
          exact ⟨0, rfl, rfl⟩
        · exact ⟨k + 1, by omega, hrange⟩
      · rintro ⟨k, hk, hrange⟩
        cases k with
        | zero =>
          simp only [List.getElem?_cons_zero, Option.some.injEq, Prod.mk.injEq] at hrange
          obtain ⟨rfl, rfl⟩ := hrange
          exact .inl (by rw [hk]; rfl)
        | succ k => exact .inr ⟨k, by omega, hrange⟩

theorem collectMatches_eq (request : SearchRequest) (content : String) (ranges : List LineRange)
    (index : Nat) (rest : List LineRange) (found : List ContentSearchMatch) :
    collectMatches request content ranges index rest found =
      (((foundRows index rest).take (request.maxMatches - found.length)).mapM fun row =>
        searchMatch request content ranges row.1 row.2.1 row.2.2.1 row.2.2.2).map
          (found ++ ·) := by
  induction rest generalizing index found with
  | nil => simp [collectMatches, foundRows]
  | cons range rest ih =>
    obtain ⟨offset, range⟩ := range
    cases range with
    | none => rw [collectMatches, foundRows, ih]
    | some range =>
      rw [collectMatches, foundRows]
      by_cases hfull : request.maxMatches ≤ found.length
      · rw [if_pos hfull, Nat.sub_eq_zero_of_le hfull, List.take_zero]
        simp
      · have hroom : request.maxMatches - found.length =
            request.maxMatches - (found.length + 1) + 1 := by omega
        rw [if_neg hfull, hroom, List.take_succ_cons, List.mapM_cons]
        cases searchMatch request content ranges index offset range.1 range.2 with
        | none => rfl
        | some more =>
          simp only [Option.bind_eq_bind, Option.bind_some]
          rw [ih, List.length_append, List.length_singleton]
          cases ((foundRows (index + 1) rest).take
              (request.maxMatches - (found.length + 1))).mapM fun row =>
            searchMatch request content ranges row.1 row.2.1 row.2.2.1 row.2.2.2 with
          | none => rfl
          | some ms => simp

theorem mapM_some {α β : Type} (f : α → Option β) (P : α → β → Prop) (xs : List α)
    (h : ∀ x ∈ xs, ∃ y, f x = some y ∧ P x y) :
    ∃ ys, xs.mapM f = some ys ∧ ∀ y ∈ ys, ∃ x ∈ xs, P x y := by
  induction xs with
  | nil => exact ⟨[], rfl, by simp⟩
  | cons x xs ih =>
    rw [List.forall_mem_cons] at h
    obtain ⟨y, hy, hP⟩ := h.1
    obtain ⟨ys, hys, hall⟩ := ih h.2
    refine ⟨y :: ys, by rw [List.mapM_cons, hy, hys]; rfl, ?_⟩
    rw [List.forall_mem_cons]
    refine ⟨⟨x, List.mem_cons_self, hP⟩, fun other hother => ?_⟩
    obtain ⟨x', hx', hP'⟩ := hall other hother
    exact ⟨x', List.mem_cons_of_mem _ hx', hP'⟩

theorem mapM_eq_some {α β : Type} {f : α → Option β} {xs : List α} {ys : List β} :
    xs.mapM f = some ys ↔ xs.map f = ys.map some := by
  induction xs generalizing ys with
  | nil => cases ys <;> simp
  | cons x xs ih =>
    simp only [List.mapM_cons, Option.bind_eq_bind, Option.bind_eq_some_iff, Option.pure_def,
      Option.some.injEq, ih, List.map_cons]
    cases ys with
    | nil => simp
    | cons y ys => simp

theorem mapM_range' {f : Nat → Option String} {ls : List String}
    (h : ∀ i line, ls[i]? = some line → f i = some line) (start count : Nat)
    (hle : start + count ≤ ls.length) :
    (List.range' start count).mapM f = some ((ls.drop start).take count) := by
  induction count generalizing start with
  | zero => simp
  | succ count ih =>
    have hlt : start < ls.length := by omega
    have hline := h start ls[start] (List.getElem?_eq_getElem hlt)
    rw [List.range'_succ, List.mapM_cons, hline, ih _ (by omega), List.drop_eq_getElem_cons hlt,
      List.take_succ_cons]
    rfl

theorem rowAt_split {content : String} {rows front back : List (List Char)} {row last : List Char}
    (hsplit : content.toList.splitOn '\n' = rows ++ [last])
    (hchars : content.toList = endedRows rows ++ last) (hrow : '\n' ∉ row)
    (hfront : rows = front ++ row :: back)
    (hkept : ∀ row ∈ front, dropCr (String.ofList row) = String.ofList row)
    (find : String → Option (Nat × Nat)) :
    rowAt content (lineRanges find (byteLength content.toList) 0 (lines content)) front.length =
      some (String.ofList row) := by
  have hlines := lines_rows hsplit
  rw [hfront, List.map_append, List.map_congr_left hkept, List.map_cons, List.append_assoc,
    List.cons_append] at hlines
  apply rowAt_rows ('\n' :: (endedRows back ++ last)) _ hrow _ hlines
  · rw [hchars, hfront]
    simp [endedRows]
  · intro c hc
    exact (Option.some.inj hc).symm

theorem rowAt_plain {content : String} (hplain : ¬['\r', '\n'] <:+: content.toList)
    (find : String → Option (Nat × Nat)) (i : Nat) (line : String)
    (h : (lines content)[i]? = some line) :
    rowAt content (lineRanges find (byteLength content.toList) 0 (lines content)) i =
      some line := by
  obtain ⟨rows, last, hsplit, hchars, hrows, hlast⟩ := splitOn_rows content.toList
  have hkept : ∀ row ∈ rows, dropCr (String.ofList row) = String.ofList row := by
    intro row hrow
    rw [dropCr_eq_self, String.toList_ofList]
    intro hreturn
    rw [hchars, crlf_infix_rows hrows hlast] at hplain
    exact hplain ⟨row, hrow, hreturn⟩
  have hlines := lines_rows hsplit
  rw [List.map_congr_left hkept] at hlines
  rw [hlines] at h
  rcases Nat.lt_or_ge i rows.length with hlt | hge
  · have hfront : rows = rows.take i ++ rows[i] :: rows.drop (i + 1) := by
      rw [← List.drop_eq_getElem_cons hlt, List.take_append_drop]
    have hrow := rowAt_split hsplit hchars (hrows _ (List.getElem_mem hlt)) hfront
      (fun row hrow => hkept row (List.mem_of_mem_take hrow)) find
    rw [List.length_take_of_le hlt.le] at hrow
    rw [List.getElem?_append_left (by rwa [List.length_map]), List.getElem?_map,
      List.getElem?_eq_getElem hlt] at h
    rw [hrow]
    exact h
  · rw [List.getElem?_append_right (by rwa [List.length_map]), List.length_map] at h
    by_cases hempty : last = []
    · rw [if_pos hempty] at h
      cases h
    · rw [if_neg hempty] at h hlines
      obtain ⟨hzero, rfl⟩ : i - rows.length = 0 ∧ String.ofList last = line := by
        cases hindex : i - rows.length with
        | zero =>
          rw [hindex] at h
          exact ⟨rfl, Option.some.inj h⟩
        | succ k =>
          rw [hindex] at h
          cases h
      obtain rfl : i = rows.length := by omega
      exact rowAt_rows [] (by rw [List.append_nil, hchars]) hlast (by simp) hlines

theorem searchMatch_plain {content : String} (hplain : ¬['\r', '\n'] <:+: content.toList)
    (matcher : ContentMatcher) (request : SearchRequest) {index offset matchStart matchEnd : Nat}
    (hrow : (lineRanges matcher.find (byteLength content.toList) 0 (lines content))[index]? =
      some (offset, some (matchStart, matchEnd))) :
    ∃ found, searchMatch request content
        (lineRanges matcher.find (byteLength content.toList) 0 (lines content)) index offset
          matchStart matchEnd = some found ∧
      PointsAt (lines content) matcher request.contextLines found := by
  have hrows := rowAt_plain hplain matcher.find
  obtain ⟨ranges, hranges⟩ : ∃ ranges, lineRanges matcher.find (byteLength content.toList) 0
      (lines content) = ranges := ⟨_, rfl⟩
  have hlength : ranges.length = (lines content).length := by
    rw [← hranges, length_lineRanges]
  have hfind := lineRanges_find matcher.find (byteLength content.toList) 0
    (lines content)
  rw [hranges] at hrow hrows hfind ⊢
  have hlt : index < (lines content).length := by
    rw [← hlength]
    exact (List.getElem?_eq_some_iff.mp hrow).1
  have hline := List.getElem?_eq_getElem hlt
  generalize (lines content)[index] = line at hline
  have hfound : matcher.find line = some (matchStart, matchEnd) := by
    have hindex := congrArg (·[index]?) hfind
    simp only [List.getElem?_map, hrow, hline, Option.map_some, Option.some.injEq] at hindex
    exact hindex.symm
  have hcut : lineAt content offset = some line := by
    have hcut := hrows index line hline
    rwa [rowAt, hrow, Option.bind_some] at hcut
  have hbefore := mapM_range' hrows (index - request.contextLines)
    (index - (index - request.contextLines)) (by omega)
  have hafter := mapM_range' hrows (index + 1)
    (min (index + request.contextLines + 1) ranges.length - (index + 1)) (by omega)
  have hsnippet := mapM_range' hrows (index - request.contextLines)
    (min (index + request.contextLines + 1) ranges.length -
      (index - request.contextLines)) (by omega)
  unfold searchMatch
  simp only [hcut, hbefore, hafter, hsnippet, Option.bind_eq_bind, Option.bind_some]
  refine ⟨_, rfl, index, line, hline, hfound, ContentMatcher.find_range hfound, rfl, rfl, ?_, ?_⟩
  · rw [List.drop_take]
  · rw [List.take_eq_take_iff, List.length_drop, hlength]
    omega

/-- A file that is too large or looks binary is left out. -/
def Skipped (content : String) : Prop :=
  maxContentSearchFileBytes < content.toUTF8.size ∨
    (content.toUTF8.data.toList.take 2048).any (· = 0) = true

theorem contentSearchFile_skipped {content : String} (hskipped : Skipped content)
    {file : SearchedFile} (hmetadata : file.metadata = .ok ⟨true, content.toUTF8.size⟩)
    (hbytes : file.bytes = .ok content.toUTF8) (matcher : ContentMatcher) (qhash : String)
    (contextLines maxMatches : Nat) :
    contentSearchFile file matcher qhash contextLines maxMatches = some (.ok none) := by
  unfold contentSearchFile
  simp only [hmetadata, hbytes, Bool.not_true, Bool.false_or, decide_eq_true_eq]
  split
  · rfl
  · next hsmall => rw [if_pos (hskipped.resolve_left hsmall)]

theorem contentSearchFile_read (content : String) (hread : ¬Skipped content)
    {file : SearchedFile} (hmetadata : file.metadata = .ok ⟨true, content.toUTF8.size⟩)
    (hbytes : file.bytes = .ok content.toUTF8) (matcher : ContentMatcher) (qhash : String)
    (contextLines maxMatches : Nat) :
    contentSearchFile file matcher qhash contextLines maxMatches =
      if (lines content).countP (fun line => (matcher.find line).isSome) = 0 then some (.ok none)
      else
        (((foundRows 0 (lineRanges matcher.find (byteLength content.toList) 0
            (lines content))).take maxMatches).mapM fun row =>
          searchMatch ⟨file.rel, qhash, contextLines, maxMatches⟩ content
            (lineRanges matcher.find (byteLength content.toList) 0 (lines content))
            row.1 row.2.1 row.2.2.1 row.2.2.2).map fun found =>
          file.hash.map fun hash => some {
            path := file.rel
            name := basenameString file.rel
            size := content.toUTF8.size
            hash
            matchCount := (lines content).countP fun line => (matcher.find line).isSome
            found
            truncated := maxMatches <
              (lines content).countP fun line => (matcher.find line).isSome } := by
  have hcount : (lineRanges matcher.find (byteLength content.toList) 0 (lines content)).countP
      (·.2.isSome) = (lines content).countP fun line => (matcher.find line).isSome := by
    have hmap := congrArg (List.countP Option.isSome) (lineRanges_find matcher.find
      (byteLength content.toList) 0 (lines content))
    rwa [List.countP_map, List.countP_map] at hmap
  rw [Skipped, not_or] at hread
  unfold contentSearchFile
  simp only [hmetadata, hbytes, Bool.not_true, Bool.false_or, decide_eq_true_eq,
    if_neg hread.1, if_neg hread.2, fromUTF8?_toUTF8, hcount, collectMatches_eq]
  simp

theorem findsRight_skipped {content : String} (hskipped : Skipped content) :
    FindsRight content := by
  intro file matcher qhash contextLines maxMatches hmetadata hbytes _
  refine ⟨_, contentSearchFile_skipped hskipped hmetadata hbytes _ _ _ _, ?_⟩
  intro searched hsearched
  cases hsearched

theorem findsRight_empty {content : String} (hread : ¬Skipped content)
    (hempty : ∀ line ∈ lines content, line = "") : FindsRight content := by
  intro file matcher qhash contextLines maxMatches hmetadata hbytes _
  have hcount : (lines content).countP (fun line => (matcher.find line).isSome) = 0 := by
    rw [List.countP_eq_zero]
    intro line hline
    rw [hempty line hline, ContentMatcher.find_empty]
    exact Bool.false_ne_true
  rw [contentSearchFile_read content hread hmetadata hbytes, if_pos hcount]
  refine ⟨_, rfl, ?_⟩
  intro searched hsearched
  cases hsearched

/-- With no carriage return before a line feed nothing fails and each match is right. -/
theorem findsRight_plain {content : String} (hread : ¬Skipped content)
    (hplain : ¬['\r', '\n'] <:+: content.toList) : FindsRight content := by
  intro file matcher qhash contextLines maxMatches hmetadata hbytes _
  rw [contentSearchFile_read content hread hmetadata hbytes]
  split
  · refine ⟨_, rfl, ?_⟩
    intro searched hsearched
    cases hsearched
  · obtain ⟨found, hfound, hright⟩ := mapM_some
      (fun row => searchMatch ⟨file.rel, qhash, contextLines, maxMatches⟩ content
        (lineRanges matcher.find (byteLength content.toList) 0 (lines content))
        row.1 row.2.1 row.2.2.1 row.2.2.2)
      (fun _ found => PointsAt (lines content) matcher contextLines found)
      ((foundRows 0 (lineRanges matcher.find (byteLength content.toList) 0
        (lines content))).take maxMatches) (by
        rintro ⟨index, offset, matchStart, matchEnd⟩ hrow
        obtain ⟨k, rfl, hrange⟩ := mem_foundRows.mp (List.mem_of_mem_take hrow)
        rw [Nat.zero_add]
        exact searchMatch_plain hplain matcher _ hrange)
    rw [hfound]
    refine ⟨_, rfl, ?_⟩
    intro searched hsearched
    cases hhash : file.hash with
    | error err =>
      rw [hhash] at hsearched
      cases hsearched
    | ok hash =>
      rw [hhash] at hsearched
      cases hsearched
      intro more hmore
      obtain ⟨row, -, hpoints⟩ := hright more hmore
      exact hpoints

theorem length_rows_le (rows : List (List Char)) : rows.length ≤ byteLength (endedRows rows) := by
  induction rows with
  | nil => simp
  | cons row rows ih =>
    have hbreak : byteLength ['\n'] = 1 := rfl
    rw [endedRows, List.flatMap_cons, byteLength_append, byteLength_append, hbreak,
      List.length_cons]
    rw [endedRows] at ih
    omega

theorem length_lines_le (content : String) :
    (lines content).length ≤ content.toUTF8.size + 1 := by
  obtain ⟨rows, last, hsplit, hchars, -⟩ := splitOn_rows content.toList
  have hsize : content.toUTF8.size = byteLength (endedRows rows) + byteLength last := by
    have hbytes := utf8ByteSize_ofList content.toList
    rw [String.ofList_toList, hchars, byteLength_append] at hbytes
    exact hbytes
  have hrows := length_rows_le rows
  rw [lines_rows hsplit, List.length_append, List.length_map]
  by_cases hempty : last = []
  · rw [if_pos hempty, List.length_nil]
    omega
  · rw [if_neg hempty, List.length_singleton]
    omega

theorem exists_row_changed {content : String} (hcrlf : ['\r', '\n'] <:+: content.toList) :
    ∃ i line text, (lines content)[i]? = some line ∧ text ≠ line ∧ ∀ find,
      rowAt content (lineRanges find (byteLength content.toList) 0 (lines content)) i =
        some text := by
  obtain ⟨rows, last, hsplit, hchars, hrows, hlast⟩ := splitOn_rows content.toList
  rw [hchars, crlf_infix_rows hrows hlast] at hcrlf
  obtain ⟨row, hfirst⟩ := Option.isSome_iff_exists.mp
    (List.find?_isSome (p := fun row : List Char => row.getLast? = some '\r') |>.mpr
      (by simpa using hcrlf))
  obtain ⟨hreturn, front, back, rfl, hfront⟩ := List.find?_eq_some_iff_append.mp hfirst
  have hkept : ∀ row ∈ front, dropCr (String.ofList row) = String.ofList row := by
    intro row hrow
    rw [dropCr_eq_self, String.toList_ofList]
    simpa using hfront row hrow
  refine ⟨front.length, dropCr (String.ofList row), String.ofList row, ?_, ?_, ?_⟩
  · rw [lines_rows hsplit, List.getElem?_append_left (by simp), List.getElem?_map,
      List.getElem?_append_right le_rfl, Nat.sub_self]
    rfl
  · intro heq
    rw [eq_comm, dropCr_eq_self, String.toList_ofList] at heq
    exact heq (of_decide_eq_true hreturn)
  · exact rowAt_split hsplit hchars (hrows row (by simp)) rfl hkept

theorem findStr_self (needle : List Char) : findStr needle needle = some 0 := by
  cases needle with
  | nil => rfl
  | cons c needle =>
    have hself : (c :: needle).isPrefixOf (c :: needle) = true :=
      List.isPrefixOf_iff_prefix.mpr (List.prefix_refl _)
    rw [findStr, if_pos hself]

theorem length_foundRows_le (index : Nat) (ranges : List LineRange) :
    (foundRows index ranges).length ≤ ranges.length := by
  induction ranges generalizing index with
  | nil => simp [foundRows]
  | cons range rest ih =>
    obtain ⟨offset, found⟩ := range
    have hrest := ih (index + 1)
    cases found with
    | none =>
      rw [foundRows, List.length_cons]
      omega
    | some range =>
      rw [foundRows, List.length_cons, List.length_cons]
      omega

/-- Where a match with all the lines next to it is right, each line is cut out as it is. -/
theorem rowAt_of_pointsAt {request : SearchRequest} {content : String} {ranges : List LineRange}
    {ls : List String} {matcher : ContentMatcher} {index offset matchStart matchEnd : Nat}
    {found : ContentSearchMatch} (hlength : ranges.length = ls.length)
    (hwide : ranges.length ≤ request.contextLines)
    (hrow : ranges[index]? = some (offset, some (matchStart, matchEnd)))
    (hmatch : searchMatch request content ranges index offset matchStart matchEnd = some found)
    (hpoints : PointsAt ls matcher request.contextLines found) (i : Nat) (line : String)
    (hline : ls[i]? = some line) : rowAt content ranges i = some line := by
  have hlt : index < ranges.length := (List.getElem?_eq_some_iff.mp hrow).1
  have hstart : index - request.contextLines = 0 := by omega
  have hstop : min (index + request.contextLines + 1) ranges.length = ranges.length := by omega
  unfold searchMatch at hmatch
  simp only [Option.bind_eq_bind, Option.bind_eq_some_iff, Option.pure_def, hstart, hstop,
    Nat.sub_zero] at hmatch
  obtain ⟨text, htext, before, hbefore, after, hafter, snippet, -, h⟩ := hmatch
  obtain rfl := Option.some.inj h
  obtain ⟨index', line', hindex', -, -, hnumber, heq, hfront, hback⟩ := hpoints
  obtain rfl := Nat.add_right_cancel hnumber
  simp only at heq hfront hback
  subst heq hfront hback
  have hbefore := congrArg (·[i]?) (mapM_eq_some.mp hbefore)
  have hafter := congrArg (·[i - (index + 1)]?) (mapM_eq_some.mp hafter)
  simp only [List.getElem?_map] at hbefore hafter
  rcases Nat.lt_trichotomy i index with hbelow | rfl | habove
  · rw [List.getElem?_range' hbelow, hstart, List.drop_zero,
      List.getElem?_take_of_lt hbelow, hline] at hbefore
    simpa using hbefore
  · rw [hindex'] at hline
    rw [rowAt, hrow, Option.bind_some, htext]
    exact hline
  · have hi : i < ranges.length := by
      rw [hlength]
      exact (List.getElem?_eq_some_iff.mp hline).1
    rw [List.getElem?_range' (by omega), List.getElem?_take_of_lt (by omega), List.getElem?_drop,
      Nat.add_sub_cancel' habove, hline] at hafter
    simpa [Nat.add_sub_cancel' habove] using hafter

theorem not_findsRight {content : String} (hread : ¬Skipped content)
    (hcrlf : ['\r', '\n'] <:+: content.toList) (needle : String)
    (hneedle : needle ∈ lines content) (hne : needle ≠ "") : ¬FindsRight content := by
  intro hright
  obtain ⟨i, line, text, hline, hchanged, hrowAt⟩ := exists_row_changed hcrlf
  obtain ⟨j, hj⟩ := List.getElem?_of_mem hneedle
  have hsmall := length_lines_le content
  have hself : (ContentMatcher.plain needle hne).find needle =
      some (0, byteLength needle.toList) := by
    simp [ContentMatcher.find, findStr_self]
  have hcount : (lines content).countP
      (fun line => ((ContentMatcher.plain needle hne).find line).isSome) ≠ 0 := by
    rw [ne_eq, List.countP_eq_zero]
    intro hnone
    exact hnone needle hneedle (by rw [hself]; rfl)
  obtain ⟨result, hresult, hpoints⟩ := hright
    ⟨"", .ok ⟨true, content.toUTF8.size⟩, .ok content.toUTF8, .ok ""⟩
    (.plain needle hne) "" (lines content).length (lines content).length rfl rfl (by
      rw [Skipped, not_or, maxContentSearchFileBytes] at hread
      omega)
  rw [contentSearchFile_read content hread rfl rfl, if_neg hcount] at hresult
  obtain ⟨found, hfound, rfl⟩ := Option.map_eq_some_iff.mp hresult
  have hlength := length_lineRanges (ContentMatcher.plain needle hne).find
    (byteLength content.toList) 0 (lines content)
  -- The row of the needle is made into a match.
  obtain ⟨offset, hrow⟩ : ∃ offset, (lineRanges (ContentMatcher.plain needle hne).find
      (byteLength content.toList) 0 (lines content))[j]? =
        some (offset, some (0, byteLength needle.toList)) := by
    have hfind := congrArg (·[j]?) (lineRanges_find
      (ContentMatcher.plain needle hne).find (byteLength content.toList) 0 (lines content))
    simp only [List.getElem?_map, hj, Option.map_some, hself] at hfind
    obtain ⟨range, hrange, hsnd⟩ := Option.map_eq_some_iff.mp hfind
    exact ⟨range.1, by rw [hrange, ← hsnd]⟩
  have hmem : (j, offset, 0, byteLength needle.toList) ∈ (foundRows 0 (lineRanges
      (ContentMatcher.plain needle hne).find (byteLength content.toList) 0
        (lines content))).take (lines content).length := by
    rw [List.take_of_length_le ((length_foundRows_le 0 _).trans hlength.le)]
    exact mem_foundRows.mpr ⟨j, (Nat.zero_add j).symm, hrow⟩
  rw [mapM_eq_some] at hfound
  have hmatch := List.mem_map_of_mem hmem (f := fun row : Nat × Nat × Nat × Nat =>
    searchMatch ⟨"", "", (lines content).length, (lines content).length⟩ content
      (lineRanges (ContentMatcher.plain needle hne).find (byteLength content.toList) 0
        (lines content)) row.1 row.2.1 row.2.2.1 row.2.2.2)
  rw [hfound, List.mem_map] at hmatch
  obtain ⟨more, hmore, hmatch⟩ := hmatch
  have hkept := rowAt_of_pointsAt hlength hlength.le hrow hmatch.symm
    (hpoints _ rfl more hmore) i line hline
  rw [hrowAt] at hkept
  exact hchanged (Option.some.inj hkept)

/-- One carriage return moves the row to the end of the line before, and three of them move it
into a character. -/
theorem contentSearchFile_crlf :
    contentSearchFile ⟨"f", .ok ⟨true, 11⟩, .ok "a\r\nneedle\r\n".toUTF8, .ok "h"⟩
        (.plain "needle" (by simp)) "q" 0 1 =
      some (.ok (some ⟨"f", "f", 11, "h", 1, [⟨"f:2:2:q", 2, 1, 0, 6, 2, 2, "", [], "", []⟩],
        false⟩)) ∧
    contentSearchFile ⟨"f", .ok ⟨true, 16⟩, .ok "a\r\nb\r\né\r\nneedle".toUTF8, .ok "h"⟩
        (.plain "needle" (by simp)) "q" 0 1 = none ∧
    ¬FindsRight "a\r\nneedle\r\n" := by
  refine ⟨?_, ?_, ?_⟩
  · rw [contentSearchFile_read "a\r\nneedle\r\n" (by
      rw [Skipped]
      decide +kernel) rfl rfl]
    decide +kernel
  · rw [contentSearchFile_read "a\r\nb\r\né\r\nneedle" (by
      rw [Skipped]
      decide +kernel) rfl rfl]
    decide +kernel
  · refine not_findsRight ?_ ?_ "needle" ?_ ?_
    · rw [Skipped]
      decide +kernel
    · decide +kernel
    · decide +kernel
    · decide +kernel

/-- Each match is right when the file is left out, when no carriage return stands before a line
feed, and when there is nothing to find. -/
theorem contentSearchFile_findsRight_iff (content : String) :
    FindsRight content ↔
      Skipped content ∨ ¬['\r', '\n'] <:+: content.toList ∨ ∀ line ∈ lines content, line = "" := by
  by_cases hread : Skipped content
  · exact iff_of_true (findsRight_skipped hread) (.inl hread)
  · rw [or_iff_right hread]
    constructor
    · intro hright
      by_contra h
      rw [not_or, not_not] at h
      obtain ⟨hcrlf, hlines⟩ := h
      push Not at hlines
      obtain ⟨needle, hneedle, hne⟩ := hlines
      exact not_findsRight hread hcrlf needle hneedle hne hright
    · rintro (hplain | hempty)
      · exact findsRight_plain hread hplain
      · exact findsRight_empty hread hempty

end HerdrWebui.Files
