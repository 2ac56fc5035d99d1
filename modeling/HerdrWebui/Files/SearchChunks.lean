import HerdrWebui.Files.ContentSearch

/-!
The matches in a file as they are shown: the lines around each of them, merged to chunks where
they touch.
-/

namespace HerdrWebui.Files

def escapeHtml (value : List Char) : List Char :=
  value.flatMap fun ch =>
    if ch = '&' then "&amp;".toList
    else if ch = '<' then "&lt;".toList
    else if ch = '>' then "&gt;".toList
    else if ch = '"' then "&quot;".toList
    else if ch = '\'' then "&#39;".toList
    else [ch]

/-- A line with a range marked that is not empty and is cut between characters. -/
def markedLine (text : List Char) (start stop : Nat) : Option (List Char) :=
  if start < stop then do
    let (before, rest) ← splitAtByte start text
    let (hit, after) ← splitAtByte (stop - start) rest
    return escapeHtml before ++ "<mark class=\"herdr-content-search-hit\">".toList ++
      escapeHtml hit ++ "</mark>".toList ++ escapeHtml after
  else none

/-- Where the range is none of the line, the first place of the query is marked. -/
def highlightLineHtml (toLowercase : String → String) (line : String) (matchStart matchEnd : Nat)
    (query : String) : String :=
  let text := line.toList
  let needle := (toLowercase query).toList
  let found := (markedLine text matchStart matchEnd).or do
    let index ← if needle = [] then none else findStr needle (toLowercase line).toList
    markedLine text index (index + byteLength needle)
  String.ofList (found.getD (escapeHtml text))

structure ContentSearchRow where
  line : Nat
  matched : Bool
  matchId : Option String
  highlightHtml : String
  deriving DecidableEq

structure ContentSearchChunk where
  start : Nat
  stop : Nat
  rows : List ContentSearchRow
  matchIds : List String
  deriving DecidableEq

structure ContentSearchChunkRow where
  line : Nat
  matched : Bool
  matchId : Option String
  text : String
  matchStart : Nat
  matchEnd : Nat

def contextRow (line : Nat) (text : String) : ContentSearchChunkRow :=
  ⟨line, false, none, text, 0, 0⟩

/-- The rows of a match, from the first of its context to the last. -/
def matchRows (found : ContentSearchMatch) : List ContentSearchChunkRow :=
  let firstBeforeLine := found.line - found.before.length
  found.before.mapIdx (fun index line => contextRow (firstBeforeLine + index) line) ++
    ⟨found.line, true, some found.id, found.text, found.matchStart, found.matchEnd⟩ ::
      found.after.mapIdx fun index line => contextRow (found.line + index + 1) line

/-- A row goes to the end, but on a line that is there it only takes the place of one that is no
match. -/
def mergeRow (row : ContentSearchChunkRow) :
    List ContentSearchChunkRow → List ContentSearchChunkRow
  | [] => [row]
  | candidate :: rest =>
    if candidate.line = row.line then
      (if row.matched && !candidate.matched then row else candidate) :: rest
    else candidate :: mergeRow row rest

/-- The chunks so far, and the rows and matches of the one that is still open. -/
structure ChunkBuild where
  chunks : List ContentSearchChunk
  openRows : List ContentSearchChunkRow
  openIds : List String
  openEnd : Option Nat

section Build

variable (toLowercase : String → String) (query : String)

def finishContentSearchChunk (rows : List ContentSearchChunkRow) (matchIds : List String) :
    ContentSearchChunk where
  start := (rows.head?.map (·.line)).getD 1
  stop := (rows.getLast?.map (·.line)).getD 1
  rows := (rows.filter (0 < ·.line)).map fun row =>
    { line := row.line
      matched := row.matched
      matchId := row.matchId
      highlightHtml :=
        if row.matched then
          highlightLineHtml toLowercase row.text row.matchStart row.matchEnd query
        else String.ofList (escapeHtml row.text.toList) }
  matchIds

/-- The open chunk goes to the others, if there is one. -/
def ChunkBuild.closed (build : ChunkBuild) : List ContentSearchChunk :=
  if build.openRows = [] then build.chunks
  else build.chunks ++ [finishContentSearchChunk toLowercase query build.openRows build.openIds]

def addMatch (build : ChunkBuild) (found : ContentSearchMatch) : ChunkBuild :=
  let rows := matchRows found
  let start := (rows.head?.map (·.line)).getD found.line
  let stop := (rows.getLast?.map (·.line)).getD found.line
  if build.openEnd.any fun previous => start ≤ previous + 1 then
    { build with
      openRows := (rows.foldl (fun openRows row => mergeRow row openRows) build.openRows).mergeSort
        fun left right => left.line ≤ right.line
      openIds := build.openIds ++ [found.id]
      openEnd := some (max ((build.openEnd.map (max · stop)).getD stop) stop) }
  else
    { chunks := build.closed toLowercase query
      openRows := rows
      openIds := [found.id]
      openEnd := some stop }

def buildContentSearchChunks (found : List ContentSearchMatch) : List ContentSearchChunk :=
  let sorted := found.mergeSort fun left right => left.line ≤ right.line
  (sorted.foldl (addMatch toLowercase query) ⟨[], [], [], none⟩).closed toLowercase query

end Build

def firstLine (found : ContentSearchMatch) : Nat := found.line - found.before.length

def lastLine (found : ContentSearchMatch) : Nat := found.line + found.after.length

/-- A match has the lines around it, as far as the file has them. -/
structure Windowed (length contextLines : Nat) (found : ContentSearchMatch) : Prop where
  line_pos : 0 < found.line
  line_le : found.line ≤ length
  before : found.before.length = min contextLines (found.line - 1)
  after : found.after.length = min contextLines (length - found.line)

/-- The lines of some rows are all from one to another. -/
def Spans (first last : Nat) (rows : List ContentSearchChunkRow) : Prop :=
  rows.map (·.line) = List.range' first (last + 1 - first)

/-- The lines around some matches are all from one to another. -/
def CoversLines (found : List ContentSearchMatch) (first last : Nat) : Prop :=
  ∀ line, (first ≤ line ∧ line ≤ last) ↔ ∃ m ∈ found, firstLine m ≤ line ∧ line ≤ lastLine m

section Windows

variable {length contextLines : Nat} {m m' : ContentSearchMatch}

theorem Windowed.firstLine_pos (h : Windowed length contextLines m) : 0 < firstLine m := by
  have hpos := h.line_pos
  have hbefore := h.before
  unfold firstLine
  omega

theorem firstLine_le (m : ContentSearchMatch) : firstLine m ≤ m.line := Nat.sub_le ..

theorem le_lastLine (m : ContentSearchMatch) : m.line ≤ lastLine m := Nat.le_add_right ..

theorem Windowed.mono (h : Windowed length contextLines m) (h' : Windowed length contextLines m')
    (hline : m.line ≤ m'.line) : firstLine m ≤ firstLine m' ∧ lastLine m ≤ lastLine m' := by
  have hbefore := h.before
  have hbefore' := h'.before
  have hafter := h.after
  have hafter' := h'.after
  have hle := h'.line_le
  unfold firstLine lastLine
  omega

theorem map_line_mapIdx (first : Nat) (texts : List String) :
    (texts.mapIdx fun index text => contextRow (first + index) text).map (·.line) =
      List.range' first texts.length := by
  apply List.ext_getElem
  · simp
  · intro i hi hi'
    simp [contextRow]

theorem spans_matchRows (h : Windowed length contextLines m) :
    Spans (firstLine m) (lastLine m) (matchRows m) := by
  have hpos := h.line_pos
  have hbefore := h.before
  have hline : m.line = firstLine m + m.before.length := by
    unfold firstLine
    omega
  have hcount : lastLine m + 1 - firstLine m = m.before.length + (m.after.length + 1) := by
    unfold lastLine firstLine
    omega
  have hafter : (fun index text => contextRow (m.line + index + 1) text) =
      fun index text => contextRow (m.line + 1 + index) text := by
    funext index text
    rw [Nat.add_right_comm]
  unfold Spans matchRows
  dsimp only
  rw [List.map_append, List.map_cons, hafter, map_line_mapIdx, map_line_mapIdx, hcount,
    ← List.range'_append_1, List.range'_succ, ← hline]
  rfl

theorem map_line_mergeRow {row : ContentSearchChunkRow} {rows : List ContentSearchChunkRow}
    (h : row.line ∈ rows.map (·.line)) : (mergeRow row rows).map (·.line) = rows.map (·.line) := by
  induction rows with
  | nil => exact absurd h List.not_mem_nil
  | cons candidate rows ih =>
    rw [mergeRow]
    by_cases hline : candidate.line = row.line
    · rw [if_pos hline, List.map_cons, List.map_cons]
      split
      · rw [hline]
      · rfl
    · rw [List.map_cons, List.mem_cons, or_iff_right (Ne.symm hline)] at h
      rw [if_neg hline, List.map_cons, List.map_cons, ih h]

theorem mergeRow_new {row : ContentSearchChunkRow} {rows : List ContentSearchChunkRow}
    (h : row.line ∉ rows.map (·.line)) : mergeRow row rows = rows ++ [row] := by
  induction rows with
  | nil => rfl
  | cons candidate rows ih =>
    rw [List.map_cons, List.mem_cons, not_or] at h
    rw [mergeRow, if_neg (Ne.symm h.1), ih h.2]
    rfl

theorem mem_mergeRow {row candidate : ContentSearchChunkRow} {rows : List ContentSearchChunkRow}
    (h : candidate ∈ rows) (hmatched : candidate.matched = true) :
    candidate ∈ mergeRow row rows := by
  induction rows with
  | nil => exact absurd h List.not_mem_nil
  | cons first rows ih =>
    rw [mergeRow]
    rcases List.mem_cons.mp h with rfl | hmem
    · rw [hmatched, Bool.not_true, Bool.and_false]
      split <;> exact List.mem_cons_self
    · split
      · exact List.mem_cons_of_mem _ hmem
      · exact List.mem_cons_of_mem _ (ih hmem)

theorem exists_matched_mergeRow {row : ContentSearchChunkRow} (hmatched : row.matched = true)
    (rows : List ContentSearchChunkRow) :
    ∃ kept ∈ mergeRow row rows, kept.line = row.line ∧ kept.matched = true := by
  induction rows with
  | nil => exact ⟨row, List.mem_cons_self, rfl, hmatched⟩
  | cons first rows ih =>
    rw [mergeRow]
    by_cases hline : first.line = row.line
    · rw [if_pos hline, hmatched, Bool.true_and]
      cases hfirst : first.matched with
      | true => exact ⟨first, List.mem_cons_self, hline, hfirst⟩
      | false => exact ⟨row, List.mem_cons_self, rfl, hmatched⟩
    · rw [if_neg hline]
      obtain ⟨kept, hkept, hboth⟩ := ih
      exact ⟨kept, List.mem_cons_of_mem _ hkept, hboth⟩

theorem mem_foldl_mergeRow {candidate : ContentSearchChunkRow}
    {rows openRows : List ContentSearchChunkRow} (h : candidate ∈ openRows)
    (hmatched : candidate.matched = true) :
    candidate ∈ rows.foldl (fun openRows row => mergeRow row openRows) openRows := by
  induction rows generalizing openRows with
  | nil => exact h
  | cons row rows ih => exact ih (mem_mergeRow h hmatched)

theorem exists_matched_foldl {row : ContentSearchChunkRow} {rows : List ContentSearchChunkRow}
    (h : row ∈ rows) (hmatched : row.matched = true) (openRows : List ContentSearchChunkRow) :
    ∃ kept ∈ rows.foldl (fun openRows row => mergeRow row openRows) openRows,
      kept.line = row.line ∧ kept.matched = true := by
  induction rows generalizing openRows with
  | nil => exact absurd h List.not_mem_nil
  | cons first rows ih =>
    rw [List.foldl_cons]
    rcases List.mem_cons.mp h with rfl | hmem
    · obtain ⟨kept, hkept, hline, hkeptMatched⟩ := exists_matched_mergeRow hmatched openRows
      exact ⟨kept, mem_foldl_mergeRow hkept hkeptMatched, hline, hkeptMatched⟩
    · exact ih hmem _

theorem mem_lines_of_spans {first last : Nat} {rows : List ContentSearchChunkRow}
    (h : Spans first last rows) (hle : first ≤ last + 1) {line : Nat} :
    line ∈ rows.map (·.line) ↔ first ≤ line ∧ line ≤ last := by
  rw [h, List.mem_range'_1]
  omega

theorem Spans.foldl_mergeRow {first last start stop : Nat}
    {rows openRows : List ContentSearchChunkRow} (hrows : Spans start stop rows)
    (hopen : Spans first last openRows) (hfirst : first ≤ start) (hstart : start ≤ last + 1)
    (hstop : start ≤ stop + 1) :
    Spans first (max last stop)
      (rows.foldl (fun openRows row => mergeRow row openRows) openRows) := by
  induction rows generalizing start last openRows with
  | nil =>
    have hlength := congrArg List.length hrows
    rw [List.length_map, List.length_nil, List.length_range'] at hlength
    have hmax : max last stop = last := by omega
    rw [hmax]
    exact hopen
  | cons row rows ih =>
    have hcount : stop + 1 - start = stop - start + 1 := by
      have hlength := congrArg List.length hrows
      rw [List.length_map, List.length_cons, List.length_range'] at hlength
      omega
    unfold Spans at hrows
    rw [List.map_cons, hcount, List.range'_succ] at hrows
    obtain ⟨hline, hrest⟩ := List.cons_eq_cons.mp hrows
    have hrest : Spans (start + 1) stop rows := by
      unfold Spans
      rw [hrest, Nat.add_sub_add_right]
    rw [List.foldl_cons]
    by_cases hin : start ≤ last
    · apply ih hrest _ (by omega) (by omega) (by omega)
      unfold Spans
      rw [map_line_mergeRow, hopen]
      exact (mem_lines_of_spans hopen (by omega)).mpr (by omega)
    · have hnext : max last stop = max start stop := by omega
      rw [hnext]
      apply ih hrest _ (by omega) (by omega) (by omega)
      unfold Spans
      rw [mergeRow_new, List.map_append, hopen, List.map_singleton, hline]
      · have hmore : start + 1 - first = last + 1 - first + 1 := by omega
        have hthere : first + 1 * (last + 1 - first) = start := by omega
        rw [hmore, List.range'_concat, hthere]
      · rw [mem_lines_of_spans hopen (by omega)]
        omega

end Windows

/-- The rows of some matches: all lines around them, and a row of a match on the line of each. -/
structure GroupRows (group : List ContentSearchMatch) (first last : Nat)
    (rows : List ContentSearchChunkRow) : Prop where
  nonempty : group ≠ []
  spans : Spans first last rows
  covers : CoversLines group first last
  matched : ∀ m ∈ group, ∃ row ∈ rows, row.line = m.line ∧ row.matched = true

/-- A chunk shows the lines around some matches and names these. -/
structure IsChunk (group : List ContentSearchMatch) (first last : Nat)
    (chunk : ContentSearchChunk) : Prop where
  nonempty : group ≠ []
  lines : chunk.rows.map (·.line) = List.range' first (last + 1 - first)
  covers : CoversLines group first last
  ids : chunk.matchIds = group.map (·.id)
  matched : ∀ m ∈ group, ∃ row ∈ chunk.rows, row.line = m.line ∧ row.matched = true

/-- Matches in groups with a chunk for each, and a gap of a line at least behind each chunk. -/
inductive Tiles : List ContentSearchMatch → List ContentSearchChunk → Prop where
  | nil : Tiles [] []
  | cons {group rest : List ContentSearchMatch} {chunk : ContentSearchChunk}
      {chunks : List ContentSearchChunk} (first last : Nat)
      (hchunk : IsChunk group first last chunk)
      (hgap : ∀ m ∈ rest, last + 1 < firstLine m) (h : Tiles rest chunks) :
      Tiles (group ++ rest) (chunk :: chunks)

section Tiles

variable {toLowercase : String → String} {query : String} {length contextLines : Nat}

theorem GroupRows.first_le {group : List ContentSearchMatch} {first last : Nat}
    {rows : List ContentSearchChunkRow} (h : GroupRows group first last rows)
    {m : ContentSearchMatch} (hm : m ∈ group) : first ≤ firstLine m ∧ lastLine m ≤ last := by
  have hfirst := (h.covers (firstLine m)).mpr
    ⟨m, hm, le_rfl, (firstLine_le m).trans (le_lastLine m)⟩
  have hlast := (h.covers (lastLine m)).mpr
    ⟨m, hm, (firstLine_le m).trans (le_lastLine m), le_rfl⟩
  exact ⟨hfirst.1, hlast.2⟩

theorem GroupRows.first_le_last {group : List ContentSearchMatch} {first last : Nat}
    {rows : List ContentSearchChunkRow} (h : GroupRows group first last rows) : first ≤ last := by
  obtain ⟨m, hm⟩ := List.exists_mem_of_ne_nil _ h.nonempty
  have hwindow := (firstLine_le m).trans (le_lastLine m)
  exact (h.first_le hm).1.trans (hwindow.trans (h.first_le hm).2)

theorem GroupRows.rows_ne_nil {group : List ContentSearchMatch} {first last : Nat}
    {rows : List ContentSearchChunkRow} (h : GroupRows group first last rows) : rows ≠ [] := by
  rintro rfl
  obtain ⟨m, hm⟩ := List.exists_mem_of_ne_nil _ h.nonempty
  obtain ⟨row, hrow, -⟩ := h.matched m hm
  exact absurd hrow List.not_mem_nil

theorem GroupRows.isChunk {group : List ContentSearchMatch} {first last : Nat}
    {rows : List ContentSearchChunkRow} (h : GroupRows group first last rows) (hfirst : 0 < first) :
    IsChunk group first last
      (finishContentSearchChunk toLowercase query rows (group.map (·.id))) := by
  have hkept : rows.filter (0 < ·.line) = rows := by
    apply List.filter_eq_self.mpr
    intro row hrow
    have hline : row.line ∈ rows.map (·.line) := List.mem_map.mpr ⟨row, hrow, rfl⟩
    rw [h.spans, List.mem_range'_1] at hline
    exact decide_eq_true (by omega)
  refine ⟨h.nonempty, ?_, h.covers, rfl, ?_⟩
  · unfold finishContentSearchChunk
    rw [hkept, List.map_map]
    exact h.spans
  · intro m hm
    obtain ⟨row, hrow, hline, hmatched⟩ := h.matched m hm
    refine ⟨_, List.mem_map.mpr ⟨row, ?_, rfl⟩, hline, hmatched⟩
    rw [hkept]
    exact hrow

theorem groupRows_matchRows {m : ContentSearchMatch} (h : Windowed length contextLines m) :
    GroupRows [m] (firstLine m) (lastLine m) (matchRows m) := by
  refine ⟨List.cons_ne_nil _ _, spans_matchRows h, ?_, ?_⟩
  · intro line
    simp
  · intro m' hm'
    rw [List.mem_singleton.mp hm']
    exact ⟨_, List.mem_append_right _ List.mem_cons_self, rfl, rfl⟩

theorem sorted_of_spans {first last : Nat} {rows : List ContentSearchChunkRow}
    (h : Spans first last rows) :
    rows.mergeSort (fun left right => left.line ≤ right.line) = rows := by
  apply List.mergeSort_of_pairwise
  have hpairs : (rows.map (·.line)).Pairwise (· ≤ ·) := by
    rw [h]
    exact List.pairwise_le_range'
  rw [List.pairwise_map] at hpairs
  exact hpairs.imp fun hle => decide_eq_true hle

theorem GroupRows.addMatch {group : List ContentSearchMatch} {first last : Nat}
    {rows : List ContentSearchChunkRow} (h : GroupRows group first last rows)
    {m : ContentSearchMatch} (hm : Windowed length contextLines m)
    (hgroup : ∀ m' ∈ group, firstLine m' ≤ firstLine m ∧ lastLine m' ≤ lastLine m)
    (htouch : firstLine m ≤ last + 1) :
    GroupRows (group ++ [m]) first (lastLine m)
      (((matchRows m).foldl (fun openRows row => mergeRow row openRows) rows).mergeSort
        fun left right => left.line ≤ right.line) := by
  obtain ⟨m', hm'⟩ := List.exists_mem_of_ne_nil _ h.nonempty
  have hfirst := (h.first_le hm').1.trans (hgroup m' hm').1
  have hwindow := (firstLine_le m).trans (le_lastLine m)
  have hlast : last ≤ lastLine m := by
    obtain ⟨m'', hm'', -, hle⟩ := (h.covers last).mp ⟨h.first_le_last, le_rfl⟩
    exact hle.trans (hgroup m'' hm'').2
  have hspans := (spans_matchRows hm).foldl_mergeRow h.spans hfirst htouch (by omega)
  rw [Nat.max_eq_right hlast] at hspans
  rw [sorted_of_spans hspans]
  refine ⟨List.append_ne_nil_of_left_ne_nil h.nonempty _, hspans, ?_, ?_⟩
  · intro line
    have hold := h.covers line
    constructor
    · intro hline
      by_cases hin : line ≤ last
      · obtain ⟨m'', hm'', hboth⟩ := hold.mp ⟨hline.1, hin⟩
        exact ⟨m'', List.mem_append_left _ hm'', hboth⟩
      · exact ⟨m, List.mem_append_right _ List.mem_cons_self, by omega⟩
    · rintro ⟨m'', hm'', hboth⟩
      rcases List.mem_append.mp hm'' with hin | hnew
      · have hline := hold.mpr ⟨m'', hin, hboth⟩
        omega
      · rw [List.mem_singleton.mp hnew] at hboth
        omega
  · intro m'' hm''
    rcases List.mem_append.mp hm'' with hin | hnew
    · obtain ⟨row, hrow, hline, hmatched⟩ := h.matched m'' hin
      exact ⟨row, mem_foldl_mergeRow hrow hmatched, hline, hmatched⟩
    · rw [List.mem_singleton.mp hnew]
      exact exists_matched_foldl (List.mem_append_right _ List.mem_cons_self) rfl rows

theorem matchRows_ends {m : ContentSearchMatch} (hm : Windowed length contextLines m) :
    ((matchRows m).head?.map (·.line)).getD m.line = firstLine m ∧
      ((matchRows m).getLast?.map (·.line)).getD m.line = lastLine m := by
  have hwindow := (firstLine_le m).trans (le_lastLine m)
  have hcount : lastLine m + 1 - firstLine m = lastLine m - firstLine m + 1 := by omega
  have hlines := spans_matchRows hm
  unfold Spans at hlines
  rw [hcount] at hlines
  constructor
  · rw [← List.head?_map, hlines, List.range'_succ]
    rfl
  · rw [← List.getLast?_map, hlines, List.range'_concat, List.getLast?_concat]
    simp
    omega

theorem addMatch_touch {m : ContentSearchMatch} (hm : Windowed length contextLines m)
    (chunks : List ContentSearchChunk) (rows : List ContentSearchChunkRow) (ids : List String)
    {last : Nat} (htouch : firstLine m ≤ last + 1) (hlast : last ≤ lastLine m) :
    addMatch toLowercase query ⟨chunks, rows, ids, some last⟩ m =
      ⟨chunks, ((matchRows m).foldl (fun openRows row => mergeRow row openRows) rows).mergeSort
        fun left right => left.line ≤ right.line, ids ++ [m.id], some (lastLine m)⟩ := by
  obtain ⟨hstart, hstop⟩ := matchRows_ends hm
  have hmax : max (max last (lastLine m)) (lastLine m) = lastLine m := by omega
  unfold addMatch
  dsimp only
  rw [hstart, hstop, if_pos (by simpa using htouch), Option.map_some, Option.getD_some, hmax]

theorem addMatch_apart {m : ContentSearchMatch} (hm : Windowed length contextLines m)
    (build : ChunkBuild) (hapart : ∀ last ∈ build.openEnd, last + 1 < firstLine m) :
    addMatch toLowercase query build m =
      ⟨build.closed toLowercase query, matchRows m, [m.id], some (lastLine m)⟩ := by
  obtain ⟨hstart, hstop⟩ := matchRows_ends hm
  have hnot : ¬(build.openEnd.any fun previous => firstLine m ≤ previous + 1) = true := by
    rw [Option.any_eq_true]
    rintro ⟨last, hlast, htouch⟩
    exact absurd (of_decide_eq_true htouch) (not_le.mpr (hapart last hlast))
  unfold addMatch
  dsimp only
  rw [hstart, hstop, if_neg hnot]

theorem foldl_addMatch {group ms : List ContentSearchMatch} {first last : Nat}
    {rows : List ContentSearchChunkRow} (h : GroupRows group first last rows) (hfirst : 0 < first)
    (hwindows : ∀ m ∈ group ++ ms, Windowed length contextLines m)
    (hsorted : (group ++ ms).Pairwise fun m m' => m.line ≤ m'.line)
    (chunks : List ContentSearchChunk) :
    ∃ tail, (ms.foldl (addMatch toLowercase query)
        ⟨chunks, rows, group.map (·.id), some last⟩).closed toLowercase query = chunks ++ tail ∧
      Tiles (group ++ ms) tail := by
  induction ms generalizing group first last rows chunks with
  | nil =>
    refine ⟨[finishContentSearchChunk toLowercase query rows (group.map (·.id))], ?_, ?_⟩
    · exact if_neg h.rows_ne_nil
    · exact .cons first last (h.isChunk hfirst) nofun .nil
  | cons m ms ih =>
    have hm : Windowed length contextLines m := hwindows m (by simp)
    have hbehind : ∀ m' ∈ group, firstLine m' ≤ firstLine m ∧ lastLine m' ≤ lastLine m := by
      intro m' hm'
      apply (hwindows m' (List.mem_append_left _ hm')).mono hm
      exact (List.pairwise_append.mp hsorted).2.2 m' hm' m List.mem_cons_self
    rw [List.append_cons] at hwindows hsorted
    rw [List.foldl_cons]
    by_cases htouch : firstLine m ≤ last + 1
    · have hlast : last ≤ lastLine m := by
        obtain ⟨m', hm', -, hle⟩ := (h.covers last).mp ⟨h.first_le_last, le_rfl⟩
        exact hle.trans (hbehind m' hm').2
      obtain ⟨tail, htail, htiles⟩ := ih (h.addMatch hm hbehind htouch) hfirst hwindows hsorted
        chunks
      rw [addMatch_touch hm chunks rows (group.map (·.id)) htouch hlast,
        List.append_cons group m ms]
      rw [List.map_append] at htail
      exact ⟨tail, htail, htiles⟩
    · have hone := groupRows_matchRows hm
      rw [List.append_assoc] at hwindows hsorted
      obtain ⟨tail, htail, htiles⟩ := ih hone hm.firstLine_pos
        (fun m' hm' => hwindows m' (List.mem_append_right _ hm'))
        (List.pairwise_append.mp hsorted).2.1
        (chunks ++ [finishContentSearchChunk toLowercase query rows (group.map (·.id))])
      have hclosed : ChunkBuild.closed toLowercase query
          ⟨chunks, rows, group.map (·.id), some last⟩ =
            chunks ++ [finishContentSearchChunk toLowercase query rows (group.map (·.id))] :=
        if_neg h.rows_ne_nil
      refine ⟨finishContentSearchChunk toLowercase query rows (group.map (·.id)) :: tail, ?_, ?_⟩
      · rw [addMatch_apart hm _ fun last' hlast' => ?_, hclosed]
        · rw [List.append_cons chunks _ tail]
          exact htail
        · rw [← Option.some.inj hlast']
          omega
      · apply Tiles.cons first last (h.isChunk hfirst) _ htiles
        intro m' hm'
        rcases List.mem_cons.mp hm' with rfl | hlater
        · omega
        · have hle := (List.pairwise_append.mp hsorted).2.1
          have hmono := hm.mono (hwindows m' (List.mem_append_right _ hm'))
            (List.rel_of_pairwise_cons hle hlater)
          omega

theorem tiles_sorted {sorted : List ContentSearchMatch}
    (hwindows : ∀ m ∈ sorted, Windowed length contextLines m)
    (hsorted : sorted.Pairwise fun m m' => m.line ≤ m'.line) :
    Tiles sorted ((sorted.foldl (addMatch toLowercase query) ⟨[], [], [], none⟩).closed
      toLowercase query) := by
  cases sorted with
  | nil => exact .nil
  | cons m ms =>
    have hm : Windowed length contextLines m := hwindows m List.mem_cons_self
    have hapart : addMatch toLowercase query ⟨[], [], [], none⟩ m =
        ⟨[], matchRows m, [m].map (·.id), some (lastLine m)⟩ := addMatch_apart hm _ nofun
    obtain ⟨tail, htail, htiles⟩ := foldl_addMatch (groupRows_matchRows hm)
      hm.firstLine_pos hwindows hsorted []
    rw [List.foldl_cons, hapart, htail]
    exact htiles

theorem IsChunk.mem_lines_iff {group : List ContentSearchMatch} {first last : Nat}
    {chunk : ContentSearchChunk} (h : IsChunk group first last chunk) (line : Nat) :
    (∃ row ∈ chunk.rows, row.line = line) ↔
      ∃ m ∈ group, firstLine m ≤ line ∧ line ≤ lastLine m := by
  rw [← List.mem_map, h.lines, ← h.covers line, List.mem_range'_1]
  omega

theorem Tiles.exists_group {found : List ContentSearchMatch} {chunks : List ContentSearchChunk}
    (h : Tiles found chunks) {chunk : ContentSearchChunk} (hchunk : chunk ∈ chunks) :
    ∃ group first last, (∀ m ∈ group, m ∈ found) ∧ IsChunk group first last chunk := by
  induction h with
  | nil => exact absurd hchunk List.not_mem_nil
  | @cons group rest first' chunks first last hfirst hgap h ih =>
    rcases List.mem_cons.mp hchunk with rfl | hmem
    · exact ⟨group, first, last, fun m hm => List.mem_append_left _ hm, hfirst⟩
    · obtain ⟨group', first', last', hsub, hthere⟩ := ih hmem
      exact ⟨group', first', last', fun m hm => List.mem_append_right _ (hsub m hm), hthere⟩

theorem Tiles.ids {found : List ContentSearchMatch} {chunks : List ContentSearchChunk}
    (h : Tiles found chunks) : chunks.flatMap (·.matchIds) = found.map (·.id) := by
  induction h with
  | nil => rfl
  | cons first last hchunk hgap h ih => rw [List.flatMap_cons, ih, hchunk.ids, List.map_append]

theorem Tiles.mem_lines_iff {found : List ContentSearchMatch} {chunks : List ContentSearchChunk}
    (h : Tiles found chunks) (line : Nat) :
    (∃ chunk ∈ chunks, ∃ row ∈ chunk.rows, row.line = line) ↔
      ∃ m ∈ found, firstLine m ≤ line ∧ line ≤ lastLine m := by
  induction h with
  | nil => simp
  | @cons group rest chunk chunks first last hchunk hgap h ih =>
    have hthere := hchunk.mem_lines_iff line
    simp only [List.mem_cons, List.mem_append, or_and_right, exists_or, exists_eq_left]
    rw [hthere, ih]

theorem Tiles.gaps {found : List ContentSearchMatch} {chunks : List ContentSearchChunk}
    (h : Tiles found chunks) :
    chunks.Pairwise fun chunk later =>
      ∀ row ∈ chunk.rows, ∀ row' ∈ later.rows, row.line + 1 < row'.line := by
  induction h with
  | nil => exact List.Pairwise.nil
  | @cons group rest chunk chunks first last hchunk hgap h ih =>
    refine List.pairwise_cons.mpr ⟨?_, ih⟩
    intro later hlater row hrow row' hrow'
    obtain ⟨m, hm, hfirst, -⟩ := (h.mem_lines_iff row'.line).mp ⟨later, hlater, row', hrow', rfl⟩
    have hline : row.line ∈ chunk.rows.map (·.line) := List.mem_map.mpr ⟨row, hrow, rfl⟩
    rw [hchunk.lines, List.mem_range'_1] at hline
    have hbehind := hgap m hm
    omega

theorem Tiles.exists_chunk {found : List ContentSearchMatch} {chunks : List ContentSearchChunk}
    (h : Tiles found chunks) {m : ContentSearchMatch} (hm : m ∈ found) :
    ∃ chunk ∈ chunks, m.id ∈ chunk.matchIds ∧
      ∃ row ∈ chunk.rows, row.line = m.line ∧ row.matched = true := by
  induction h with
  | nil => exact absurd hm List.not_mem_nil
  | @cons group rest chunk chunks first last hchunk hgap h ih =>
    rcases List.mem_append.mp hm with hin | hrest
    · refine ⟨chunk, List.mem_cons_self, ?_, hchunk.matched m hin⟩
      rw [hchunk.ids]
      exact List.mem_map.mpr ⟨m, hin, rfl⟩
    · obtain ⟨later, hlater, hshown⟩ := ih hrest
      exact ⟨later, List.mem_cons_of_mem _ hlater, hshown⟩

end Tiles

/-- A line of the file that is in the context of a match. -/
def InContext (length contextLines : Nat) (found : ContentSearchMatch) (line : Nat) : Prop :=
  0 < line ∧ line ≤ length ∧ found.line ≤ line + contextLines ∧ line ≤ found.line + contextLines

theorem Windowed.inContext_iff {length contextLines : Nat} {m : ContentSearchMatch}
    (h : Windowed length contextLines m) {line : Nat} :
    firstLine m ≤ line ∧ line ≤ lastLine m ↔ InContext length contextLines m line := by
  have hpos := h.line_pos
  have hle := h.line_le
  have hbefore := h.before
  have hafter := h.after
  unfold firstLine lastLine InContext
  omega

/-- A match of one character at the start of its line. -/
def sampleMatch (line before after : Nat) : ContentSearchMatch where
  id := s!"f:{line}"
  line
  column := 1
  matchStart := 0
  matchEnd := 1
  startLine := line - before
  endLine := line + after
  content := "x"
  before := List.replicate before "y"
  text := "x"
  after := List.replicate after "y"

def sampleMatches : List ContentSearchMatch :=
  [sampleMatch 2 1 2, sampleMatch 2 1 2, sampleMatch 11 2 1]

/-- The chunks tile the lines around the matches: their rows are in the order of the lines, no
two of them touch, they have just the lines in the context of a match, and each match is named
once and shown in one of them. -/
theorem buildContentSearchChunks_tile (toLowercase : String → String) (query : String)
    {length contextLines : Nat} {found : List ContentSearchMatch}
    (hwindows : ∀ m ∈ found, Windowed length contextLines m) :
    (∀ chunk ∈ buildContentSearchChunks toLowercase query found,
        (chunk.rows.map (·.line)).Pairwise (· < ·) ∧
          ∀ row ∈ chunk.rows, 0 < row.line ∧ row.line ≤ length) ∧
      ((buildContentSearchChunks toLowercase query found).Pairwise fun chunk later =>
        ∀ row ∈ chunk.rows, ∀ row' ∈ later.rows, row.line + 1 < row'.line) ∧
      (∀ line, (∃ chunk ∈ buildContentSearchChunks toLowercase query found,
          ∃ row ∈ chunk.rows, row.line = line) ↔
        ∃ m ∈ found, InContext length contextLines m line) ∧
      ((buildContentSearchChunks toLowercase query found).flatMap (·.matchIds)).Perm
        (found.map (·.id)) ∧
      ∀ m ∈ found, ∃! i : Nat, ∃ chunk : ContentSearchChunk,
        (buildContentSearchChunks toLowercase query found)[i]? = some chunk ∧
          m.id ∈ chunk.matchIds ∧ ∃ row ∈ chunk.rows, row.line = m.line ∧ row.matched = true := by
  have hperm : (found.mergeSort fun left right => left.line ≤ right.line).Perm found :=
    List.mergeSort_perm _ _
  have hpairs : (found.mergeSort fun left right => left.line ≤ right.line).Pairwise
      fun m m' => m.line ≤ m'.line := by
    have htrans (a b c : ContentSearchMatch) (hab : decide (a.line ≤ b.line) = true)
        (hbc : decide (b.line ≤ c.line) = true) : decide (a.line ≤ c.line) = true :=
      decide_eq_true ((of_decide_eq_true hab).trans (of_decide_eq_true hbc))
    have htotal (a b : ContentSearchMatch) :
        (decide (a.line ≤ b.line) || decide (b.line ≤ a.line)) = true := by
      simpa using Nat.le_total a.line b.line
    exact (List.pairwise_mergeSort htrans htotal found).imp of_decide_eq_true
  have htiles : Tiles (found.mergeSort fun left right => left.line ≤ right.line)
      (buildContentSearchChunks toLowercase query found) :=
    tiles_sorted (fun m hm => hwindows m (hperm.mem_iff.mp hm)) hpairs
  have hlines (line : Nat) : (∃ chunk ∈ buildContentSearchChunks toLowercase query found,
      ∃ row ∈ chunk.rows, row.line = line) ↔
        ∃ m ∈ found, InContext length contextLines m line := by
    rw [htiles.mem_lines_iff]
    constructor
    · rintro ⟨m, hm, hline⟩
      have hin := hperm.mem_iff.mp hm
      exact ⟨m, hin, (hwindows m hin).inContext_iff.mp hline⟩
    · rintro ⟨m, hm, hline⟩
      exact ⟨m, hperm.mem_iff.mpr hm, (hwindows m hm).inContext_iff.mpr hline⟩
  refine ⟨?_, htiles.gaps, hlines, ?_, ?_⟩
  · intro chunk hchunk
    obtain ⟨group, first, last, hgroup, hthere⟩ := htiles.exists_group hchunk
    constructor
    · rw [hthere.lines]
      exact List.pairwise_lt_range'
    · intro row hrow
      obtain ⟨m, hm, hpos, hle, -⟩ := (hlines row.line).mp ⟨chunk, hchunk, row, hrow, rfl⟩
      exact ⟨hpos, hle⟩
  · rw [htiles.ids]
    exact hperm.map _
  · intro m hm
    obtain ⟨chunk, hchunk, hshown⟩ := htiles.exists_chunk (hperm.mem_iff.mpr hm)
    obtain ⟨i, hi⟩ := List.mem_iff_getElem?.mp hchunk
    refine ⟨i, ⟨chunk, hi, hshown⟩, ?_⟩
    rintro j ⟨other, hj, -, row', hrow', hline', -⟩
    obtain ⟨-, row, hrow, hline, -⟩ := hshown
    -- The line of the match is in no two chunks.
    obtain ⟨hilt, rfl⟩ := List.getElem?_eq_some_iff.mp hi
    obtain ⟨hjlt, rfl⟩ := List.getElem?_eq_some_iff.mp hj
    have hgaps := List.pairwise_iff_getElem.mp htiles.gaps
    rcases Nat.lt_trichotomy i j with hlt | heq | hgt
    · have hgap := hgaps i j hilt hjlt hlt row hrow row' hrow'
      omega
    · exact heq.symm
    · have hgap := hgaps j i hjlt hilt hgt row' hrow' row hrow
      omega

/-- Two matches on one line and one far below, in a file of twelve lines. -/
theorem buildContentSearchChunks_three :
    (∀ chunk ∈ buildContentSearchChunks id "x" sampleMatches,
        (chunk.rows.map (·.line)).Pairwise (· < ·) ∧
          ∀ row ∈ chunk.rows, 0 < row.line ∧ row.line ≤ 12) ∧
      ((buildContentSearchChunks id "x" sampleMatches).Pairwise fun chunk later =>
        ∀ row ∈ chunk.rows, ∀ row' ∈ later.rows, row.line + 1 < row'.line) ∧
      (∀ line, (∃ chunk ∈ buildContentSearchChunks id "x" sampleMatches,
          ∃ row ∈ chunk.rows, row.line = line) ↔
        ∃ m ∈ sampleMatches, InContext 12 2 m line) ∧
      ((buildContentSearchChunks id "x" sampleMatches).flatMap (·.matchIds)).Perm
        (sampleMatches.map (·.id)) ∧
      ∀ m ∈ sampleMatches, ∃! i : Nat, ∃ chunk : ContentSearchChunk,
        (buildContentSearchChunks id "x" sampleMatches)[i]? = some chunk ∧
          m.id ∈ chunk.matchIds ∧ ∃ row ∈ chunk.rows, row.line = m.line ∧ row.matched = true := by
  apply buildContentSearchChunks_tile id "x"
  intro m hm
  simp only [sampleMatches, List.mem_cons, List.not_mem_nil, or_false] at hm
  rcases hm with rfl | rfl | rfl
  · exact ⟨by decide, by decide, by decide, by decide⟩
  · exact ⟨by decide, by decide, by decide, by decide⟩
  · exact ⟨by decide, by decide, by decide, by decide⟩

theorem windowed_searchMatch {request : SearchRequest} {content : String}
    {ranges : List LineRange} {index offset matchStart matchEnd : Nat}
    (hindex : index < ranges.length) {found : ContentSearchMatch}
    (h : searchMatch request content ranges index offset matchStart matchEnd = some found) :
    Windowed ranges.length request.contextLines found := by
  unfold searchMatch at h
  simp only [Option.bind_eq_bind, Option.bind_eq_some_iff, Option.pure_def, Option.some.injEq,
    mapM_eq_some] at h
  obtain ⟨line, -, before, hbefore, after, hafter, snippet, -, rfl⟩ := h
  have hbeforeLength := congrArg List.length hbefore
  have hafterLength := congrArg List.length hafter
  rw [List.length_map, List.length_map, List.length_range'] at hbeforeLength hafterLength
  constructor
  · exact Nat.succ_pos _
  · exact hindex
  · dsimp only
    omega
  · dsimp only
    omega

theorem windowed_collectMatches {request : SearchRequest} {content : String}
    {ranges : List LineRange} {found : List ContentSearchMatch}
    (h : collectMatches request content ranges 0 ranges [] = some found) :
    ∀ m ∈ found, Windowed ranges.length request.contextLines m := by
  rw [collectMatches_eq, Option.map_eq_some_iff] at h
  obtain ⟨ms, hms, rfl⟩ := h
  rw [mapM_eq_some] at hms
  intro m hm
  have hmap : some m ∈ ms.map some := List.mem_map.mpr ⟨m, hm, rfl⟩
  rw [← hms] at hmap
  obtain ⟨⟨index, offset, matchStart, matchEnd⟩, hrow, hmatch⟩ := List.mem_map.mp hmap
  obtain ⟨k, hk, hrange⟩ := mem_foundRows.mp (List.mem_of_mem_take hrow)
  have hindex : index < ranges.length := by
    rw [hk, Nat.zero_add]
    exact (List.getElem?_eq_some_iff.mp hrange).1
  exact windowed_searchMatch hindex hmatch

/-- What a search finds in a file can be shown in chunks that tile the lines around it. -/
theorem windowed_contentSearchFile {file : SearchedFile} {matcher : ContentMatcher}
    {qhash : String} {contextLines maxMatches : Nat} {searched : ContentSearchFile}
    (h : contentSearchFile file matcher qhash contextLines maxMatches =
      some (.ok (some searched))) :
    ∃ length, ∀ m ∈ searched.found, Windowed length contextLines m := by
  unfold contentSearchFile at h
  split at h
  · cases h
  · split at h
    · cases h
    · split at h
      · cases h
      · split at h
        · cases h
        · split at h
          · cases h
          · next content _ =>
              dsimp only at h
              split at h
              · cases h
              · rw [Option.map_eq_some_iff] at h
                obtain ⟨found, hfound, hsearched⟩ := h
                have hwindows := windowed_collectMatches hfound
                cases hhash : file.hash with
                | error err =>
                  rw [hhash] at hsearched
                  cases hsearched
                | ok hash =>
                  rw [hhash] at hsearched
                  obtain rfl := Option.some.inj (Except.ok.inj hsearched)
                  exact ⟨_, hwindows⟩

end HerdrWebui.Files
