import HerdrWebui.Concurrency.System
import HerdrWebui.Data.Blocks
import HerdrWebui.Git.UnifiedDiff
import HerdrWebui.Terminal.Paste
import HerdrWebui.Tui.Selection

/-!
The Changes view of the git screen (`tui/panels/git`): the status list, the diff of the
selected file and the cursor on its hunks, and the patch that is sent for the hunk under
the cursor.

The search in a diff, the blame beside it and the other views are left out.
-/

namespace HerdrWebui.Tui

open Concurrency
open Git (GitDiffLine GitDiffRow GitDiffChunk GitDiffFile LineType)
open Terminal (getU64)

def jsonNat (n : Nat) : Json := .number (toString n)

/-- `Option` in JSON. -/
def jsonOption {α : Type} (f : α → Json) (value : Option α) : Json := value.elim .null f

def lineTypeName : LineType → String
  | .add => "add"
  | .delete => "delete"
  | .normal => "normal"

def fileStatusName : Git.FileStatus → String
  | .added => "added"
  | .deleted => "deleted"
  | .renamed => "renamed"
  | .modified => "modified"

def lineJson (line : GitDiffLine) : Json :=
  .object
    [("line_type", .string (lineTypeName line.lineType)), ("content", .string line.content),
      ("old_line_number", jsonOption jsonNat line.oldLineNumber),
      ("new_line_number", jsonOption jsonNat line.newLineNumber)]

def rowJson (row : GitDiffRow) : Json :=
  .object
    [("old_line", jsonOption lineJson row.oldLine), ("new_line", jsonOption lineJson row.newLine)]

def chunkJson (chunk : GitDiffChunk) : Json :=
  .object
    ([("header", .string chunk.header), ("old_start", jsonNat chunk.oldStart),
        ("old_lines", jsonNat chunk.oldLines), ("new_start", jsonNat chunk.newStart),
        ("new_lines", jsonNat chunk.newLines), ("lines", .array (chunk.lines.map lineJson))] ++
      if chunk.rows = [] then [] else [("rows", .array (chunk.rows.map rowJson))])

def fileJson (file : GitDiffFile) : Json :=
  .object
    ([("path", .string file.path), ("old_path", jsonOption .string file.oldPath),
        ("status", .string (fileStatusName file.status)), ("additions", jsonNat file.additions),
        ("deletions", jsonNat file.deletions), ("chunks", .array (file.chunks.map chunkJson))] ++
      file.matchCount.toList.map fun count => ("match_count", jsonNat count))

/-- What `/api/git-ui/diff` answers. -/
def diffResponse (files : List GitDiffFile) : Json :=
  .object [("files", .array (files.map fileJson))]

structure GitDiffLineMeta where
  oldLine : Option Nat
  newLine : Option Nat
  deriving DecidableEq

def parseDiffLine (line : Json) : String × Option GitDiffLineMeta :=
  let kind := (line.getStr "line_type").getD "normal"
  let content := (line.getStr "content").getD ""
  let mark := if kind = "add" then "+" else if kind = "delete" then "-" else " "
  (mark ++ content, some ⟨getU64 line "old_line_number", getU64 line "new_line_number"⟩)

def parseDiffChunk (chunk : Json) : List (String × Option GitDiffLineMeta) :=
  (chunk.getStr "header").toList.map (fun header => (header, none)) ++
    (((chunk.get "lines").bind Json.asArray).getD []).map parseDiffLine

def parseDiffFile (file : Json) : List (String × Option GitDiffLineMeta) :=
  (((file.get "chunks").bind Json.asArray).getD []).flatMap parseDiffChunk

/-- `parse_diff_lines_with_meta`, its two lists line by line. -/
def parseDiffLinesWithMeta (data : Json) : List (String × Option GitDiffLineMeta) :=
  (((data.get "files").bind Json.asArray).getD []).flatMap parseDiffFile

def parseDiffOldPath (data : Json) : Option String := do
  let files ← (data.get "files").bind Json.asArray
  let file ← files.head?
  ((file.getStr "old_path").filter (· ≠ "")).or (file.getStr "path")

inductive GitFileStatus where
  | staged
  | unstaged
  | untracked
  | conflicted
  deriving DecidableEq

structure GitFileEntry where
  path : String
  status : GitFileStatus
  deriving DecidableEq

def statusEntries (data : Json) (key : String) (status : GitFileStatus) : List GitFileEntry :=
  (((data.get key).bind Json.asArray).getD []).filterMap fun value =>
    value.asStr.map fun path => ⟨path, status⟩

def parseGitFiles (data : Json) : List GitFileEntry :=
  statusEntries data "conflicted" .conflicted ++ statusEntries data "staged" .staged ++
    statusEntries data "unstaged" .unstaged ++ statusEntries data "untracked" .untracked

structure ChangesView where
  files : List GitFileEntry
  fileSelected : Nat
  diffLines : List String
  diffMeta : List (Option GitDiffLineMeta)
  diffTitle : String
  diffOldPath : Option String
  diffHunkSelected : Nat

inductive DiffScope where
  | working
  | staged
  deriving DecidableEq

/-- What `git_diff` is asked for. -/
structure DiffQuery where
  scope : DiffScope
  file : Option String
  deriving DecidableEq

/-- The body of `/api/git-ui/apply-patch`. -/
structure ApplyBody where
  patch : String
  reverse : Bool
  cached : Bool
  deriving DecidableEq

namespace ChangesView

def selectedFile (view : ChangesView) : Option GitFileEntry := view.files[view.fileSelected]?

def moveSelection (delta : Int) (view : ChangesView) : ChangesView :=
  { view with fileSelected := moveIndex view.fileSelected view.files.length delta }

/-- `refresh`, with the status that is answered. -/
def refresh (data : Json) (view : ChangesView) : ChangesView :=
  let files := parseGitFiles data
  { view with
    files
    fileSelected :=
      if files.length ≤ view.fileSelected then files.length - 1 else view.fileSelected }

/-- The request of `refresh_diff`. -/
def diffQuery (view : ChangesView) : DiffQuery where
  scope := if view.selectedFile.map (·.status) = some .staged then .staged else .working
  file := view.selectedFile.map (·.path)

/-- `refresh_diff`, with the diff that is answered. -/
def refreshDiff (data : Json) (view : ChangesView) : ChangesView :=
  let file := view.diffQuery.file
  { view with
    diffLines := (parseDiffLinesWithMeta data).map Prod.fst
    diffMeta := (parseDiffLinesWithMeta data).map Prod.snd
    diffTitle := file.getD "working tree"
    diffOldPath := file.bind fun _ => parseDiffOldPath data
    diffHunkSelected := 0 }

def hunkHeaders (view : ChangesView) : List Nat := view.diffMeta.findIdxs Option.isNone

/-- `move_hunk_selection`; without hunks the cursor stays. -/
def moveHunkSelection (delta : Int) (view : ChangesView) : ChangesView :=
  let len := view.hunkHeaders.length
  if view.hunkHeaders = [] then view
  else
    let current := min view.diffHunkSelected (len - 1)
    { view with
      diffHunkSelected :=
        if 0 ≤ delta then (current + delta.natAbs) % len
        else (current + len - delta.natAbs % len) % len }

/-- `apply_hunk_action` up to the request that it sends. -/
def hunkAction (view : ChangesView) : Except String ApplyBody :=
  let file := trim view.diffTitle
  if file = "" ∨ file = "working tree" then .error "select a file to load its diff"
  else
    let hunks := view.hunkHeaders
    match hunks[min view.diffHunkSelected (hunks.length - 1)]? with
    | none => .error "no hunk selected"
    | some start =>
      let finish := (hunks[view.diffHunkSelected + 1]?).getD view.diffLines.length
      let oldPath := view.diffOldPath.getD file
      let patch :=
        s!"diff --git a/{oldPath} b/{file}\n" ++ s!"--- a/{oldPath}\n" ++ s!"+++ b/{file}\n" ++
          String.join (((view.diffLines.take finish).drop start).map (· ++ "\n"))
      let staged :=
        (view.files.find? (·.path = file)).any fun entry => entry.status = .staged
      .ok ⟨patch, staged, true⟩

end ChangesView

section response

variable (line : GitDiffLine) (chunk : GitDiffChunk) (file : GitDiffFile)

def shownLine : String × Option GitDiffLineMeta :=
  (Git.linePrefix line.lineType ++ line.content, (parseDiffLine (lineJson line)).2)

def shownChunk : List (String × Option GitDiffLineMeta) :=
  (chunk.header, none) :: chunk.lines.map shownLine

theorem parseDiffLine_lineJson : parseDiffLine (lineJson line) = shownLine line := by
  refine Prod.ext ?_ rfl
  change (if lineTypeName line.lineType = "add" then "+"
    else if lineTypeName line.lineType = "delete" then "-" else " ") ++ line.content = _
  cases h : line.lineType <;> rw [shownLine, h] <;> rfl

theorem parseDiffChunk_chunkJson : parseDiffChunk (chunkJson chunk) = shownChunk chunk := by
  have hlines : (((chunkJson chunk).get "lines").bind Json.asArray) =
      some (chunk.lines.map lineJson) := by
    simp [chunkJson, Json.get, Json.asObject, Json.asArray, List.lookup_cons]
  have hheader : (chunkJson chunk).getStr "header" = some chunk.header := rfl
  rw [parseDiffChunk, hlines, hheader, shownChunk, Option.getD_some, List.map_map]
  refine congrArg _ (List.map_congr_left fun line _ => ?_)
  exact parseDiffLine_lineJson line

theorem parseDiffLinesWithMeta_response :
    parseDiffLinesWithMeta (diffResponse [file]) = (file.chunks.map shownChunk).flatten := by
  have hchunks : (((fileJson file).get "chunks").bind Json.asArray) =
      some (file.chunks.map chunkJson) := by
    simp [fileJson, Json.get, Json.asObject, Json.asArray, List.lookup_cons]
  have hfile : parseDiffFile (fileJson file) = (file.chunks.map shownChunk).flatten := by
    rw [parseDiffFile, hchunks, Option.getD_some, List.flatMap_map, List.flatMap_def]
    exact congrArg _ (List.map_congr_left fun chunk _ => parseDiffChunk_chunkJson chunk)
  change [fileJson file].flatMap parseDiffFile = _
  rw [List.flatMap_singleton, hfile]

theorem parseDiffOldPath_response :
    parseDiffOldPath (diffResponse [file]) =
      some ((file.oldPath.filter (· ≠ "")).getD file.path) := by
  cases hold : file.oldPath with
  | none =>
    simp [parseDiffOldPath, diffResponse, fileJson, hold, Json.get, Json.getStr, Json.asObject,
      Json.asArray, Json.asStr, jsonOption, List.lookup_cons]
  | some old =>
    by_cases hempty : old = "" <;>
      simp [parseDiffOldPath, diffResponse, fileJson, hold, hempty, Json.get, Json.getStr,
        Json.asObject, Json.asArray, Json.asStr, jsonOption, List.lookup_cons]

theorem isBlock_shownChunk : IsBlock (fun item => item.2.isNone) (shownChunk chunk) := by
  refine ⟨_, _, rfl, rfl, fun item hitem => ?_⟩
  obtain ⟨line, -, rfl⟩ := List.mem_map.mp hitem
  rfl

end response

section status

variable {data : Json} {path key : String} {status : GitFileStatus}

theorem status_of_mem {entry : GitFileEntry} (h : entry ∈ statusEntries data key status) :
    entry.status = status := by
  obtain ⟨value, -, hvalue⟩ := List.mem_filterMap.mp h
  obtain ⟨_, -, rfl⟩ := Option.map_eq_some_iff.mp hvalue
  rfl

theorem find?_statusEntries (data : Json) (path key : String) (status : GitFileStatus) :
    (statusEntries data key status).find? (·.path = path) =
      if ⟨path, status⟩ ∈ statusEntries data key status then some ⟨path, status⟩ else none := by
  cases hfind : (statusEntries data key status).find? (·.path = path) with
  | none =>
    rw [if_neg]
    intro hmem
    simpa using List.find?_eq_none.mp hfind _ hmem
  | some entry =>
    have hmem := List.mem_of_find?_eq_some hfind
    have hpath := List.find?_some hfind
    have hentry : entry = ⟨path, status⟩ := by
      cases entry
      rw [← status_of_mem hmem, ← of_decide_eq_true hpath]
    rw [hentry] at hmem
    rw [if_pos hmem, hentry]

/-- The first entry of a path is a conflict if there is one, and then a staged change. -/
theorem find?_staged_iff (data : Json) (path : String) :
    (((parseGitFiles data).find? (·.path = path)).any fun entry => entry.status = .staged) = true ↔
      ⟨path, .staged⟩ ∈ parseGitFiles data ∧ ⟨path, .conflicted⟩ ∉ parseGitFiles data := by
  have hother {key : String} {status other : GitFileStatus} (hne : other ≠ status) :
      ⟨path, other⟩ ∉ statusEntries data key status := fun hmem => hne (status_of_mem hmem)
  have hstaged : ⟨path, .staged⟩ ∈ parseGitFiles data ↔
      ⟨path, .staged⟩ ∈ statusEntries data "staged" .staged := by
    simp [parseGitFiles, hother]
  have hconflicted : ⟨path, .conflicted⟩ ∈ parseGitFiles data ↔
      ⟨path, .conflicted⟩ ∈ statusEntries data "conflicted" .conflicted := by
    simp [parseGitFiles, hother]
  rw [hstaged, hconflicted, parseGitFiles, List.find?_append, List.find?_append,
    List.find?_append, find?_statusEntries, find?_statusEntries, find?_statusEntries,
    find?_statusEntries]
  by_cases hc : ⟨path, .conflicted⟩ ∈ statusEntries data "conflicted" .conflicted
  · simp [hc]
  by_cases hs : ⟨path, .staged⟩ ∈ statusEntries data "staged" .staged
  · simp [hc, hs]
  by_cases hu : ⟨path, .unstaged⟩ ∈ statusEntries data "unstaged" .unstaged
  · simp [hc, hs, hu]
  by_cases hn : ⟨path, .untracked⟩ ∈ statusEntries data "untracked" .untracked <;>
    simp [hc, hs, hu, hn]

end status

/-- The view and the diff that was loaded last, with the query that it answers. -/
structure ChangesRun where
  view : ChangesView
  loaded : Option (DiffQuery × Json)

/-- What happens in the view, with the answers of its round trips, which may fail. -/
inductive ChangesAction where
  | moveSelection (delta : Int)
  | moveHunkSelection (delta : Int)
  | refresh (status : Option Json)
  | refreshDiff (diff : Option Json)
  | applyHunkAction (accepted : Bool) (status diff diff' : Option Json)

namespace ChangesRun

def refreshed (data : Json) (s : ChangesRun) : ChangesRun := { s with view := s.view.refresh data }

def diffLoaded (data : Json) (s : ChangesRun) : ChangesRun :=
  ⟨s.view.refreshDiff data, some (s.view.diffQuery, data)⟩

/-- `refresh_view` and `refresh_diff`, as far as they get. -/
def reloaded (status diff diff' : Option Json) (s : ChangesRun) : ChangesRun :=
  match status with
  | none => s
  | some status =>
    match diff with
    | none => s.refreshed status
    | some diff =>
      let s := (s.refreshed status).diffLoaded diff
      diff'.elim s s.diffLoaded

def step (s : ChangesRun) : ChangesAction → ChangesRun
  | .moveSelection delta => { s with view := s.view.moveSelection delta }
  | .moveHunkSelection delta => { s with view := s.view.moveHunkSelection delta }
  | .refresh status => status.elim s s.refreshed
  | .refreshDiff diff => diff.elim s s.diffLoaded
  | .applyHunkAction accepted status diff diff' =>
    match s.view.hunkAction with
    | .error _ => s
    | .ok _ => if accepted then s.reloaded status diff diff' else s

def start (status : Json) : ChangesRun :=
  ⟨⟨parseGitFiles status, 0, [], [], "", none, 0⟩, none⟩

/-- The diff on display is the one that was loaded, and the cursor is on one of its hunks. -/
structure Shows (s : ChangesRun) : Prop where
  files : ∃ status, s.view.files = parseGitFiles status
  lines (query : DiffQuery) (data : Json) (h : s.loaded = some (query, data)) :
    s.view.diffLines = (parseDiffLinesWithMeta data).map Prod.fst ∧
      s.view.diffMeta = (parseDiffLinesWithMeta data).map Prod.snd
  names (query : DiffQuery) (data : Json) (h : s.loaded = some (query, data)) :
    s.view.diffTitle = query.file.getD "working tree" ∧
      s.view.diffOldPath = query.file.bind fun _ => parseDiffOldPath data
  cursor : s.view.diffHunkSelected ≤ s.view.hunkHeaders.length - 1

variable {s : ChangesRun}

theorem Shows.withView (h : s.Shows) {view : ChangesView}
    (hfiles : ∃ status, view.files = parseGitFiles status)
    (hlines : view.diffLines = s.view.diffLines) (hmeta : view.diffMeta = s.view.diffMeta)
    (htitle : view.diffTitle = s.view.diffTitle) (hold : view.diffOldPath = s.view.diffOldPath)
    (hcursor : view.diffHunkSelected ≤ s.view.hunkHeaders.length - 1) :
    Shows ⟨view, s.loaded⟩ where
  files := hfiles
  lines query data hloaded := by
    rw [hlines, hmeta]
    exact h.lines query data hloaded
  names query data hloaded := by
    rw [htitle, hold]
    exact h.names query data hloaded
  cursor := by
    change _ ≤ (view.diffMeta.findIdxs Option.isNone).length - 1
    rw [hmeta]
    exact hcursor

theorem Shows.refreshed (h : s.Shows) (data : Json) : (s.refreshed data).Shows :=
  h.withView ⟨data, rfl⟩ rfl rfl rfl rfl h.cursor

theorem Shows.diffLoaded (h : s.Shows) (data : Json) : (s.diffLoaded data).Shows where
  files := h.files
  lines query data' hloaded := by
    obtain ⟨rfl, rfl⟩ := Prod.mk.inj (Option.some.inj hloaded)
    exact ⟨rfl, rfl⟩
  names query data' hloaded := by
    obtain ⟨rfl, rfl⟩ := Prod.mk.inj (Option.some.inj hloaded)
    exact ⟨rfl, rfl⟩
  cursor := Nat.zero_le _

theorem Shows.moveHunk (h : s.Shows) (delta : Int) :
    Shows ⟨s.view.moveHunkSelection delta, s.loaded⟩ := by
  rw [ChangesView.moveHunkSelection]
  dsimp only
  split
  · exact h
  · next hne =>
      have hpos := List.length_pos_of_ne_nil hne
      refine h.withView h.files rfl rfl rfl rfl ?_
      dsimp only
      split <;> exact Nat.le_sub_one_of_lt (Nat.mod_lt _ hpos)

theorem Shows.reloaded (h : s.Shows) (status diff diff' : Option Json) :
    (s.reloaded status diff diff').Shows := by
  cases status with
  | none => exact h
  | some status =>
    cases diff with
    | none => exact h.refreshed status
    | some diff =>
      cases diff' with
      | none => exact (h.refreshed status).diffLoaded diff
      | some diff' => exact ((h.refreshed status).diffLoaded diff).diffLoaded diff'

theorem Shows.step (h : s.Shows) (a : ChangesAction) : (s.step a).Shows := by
  cases a with
  | moveSelection delta => exact h.withView h.files rfl rfl rfl rfl h.cursor
  | moveHunkSelection delta => exact h.moveHunk delta
  | refresh status =>
    cases status with
    | none => exact h
    | some status => exact h.refreshed status
  | refreshDiff diff =>
    cases diff with
    | none => exact h
    | some diff => exact h.diffLoaded diff
  | applyHunkAction accepted status diff diff' =>
    rw [ChangesRun.step]
    split
    · exact h
    · split
      · exact h.reloaded status diff diff'
      · exact h

theorem start_shows (status : Json) : (start status).Shows where
  files := ⟨status, rfl⟩
  lines _ _ hloaded := by cases hloaded
  names _ _ hloaded := by cases hloaded
  cursor := Nat.zero_le _

end ChangesRun

def changesSystem : System ChangesRun ChangesAction where
  init s := ∃ status, s = ChangesRun.start status
  step s a := some (s.step a)

theorem ChangesRun.shows {s : ChangesRun} (h : changesSystem.Reachable s) : s.Shows := by
  refine System.ReachVia.invariant (fun s hinit => ?_) (fun s a s' _ hs _ hstep => ?_) h
  · obtain ⟨status, rfl⟩ := hinit
    exact start_shows status
  · obtain rfl : s.step a = s' := Option.some.inj hstep
    exact hs.step a

def patchText (old name : String) (chunk : GitDiffChunk) : String :=
  s!"diff --git a/{old} b/{name}\n" ++ s!"--- a/{old}\n" ++ s!"+++ b/{name}\n" ++
    String.join (((shownChunk chunk).map Prod.fst).map (· ++ "\n"))

theorem length_headed (old name : String) (a b c d e f g rest : String) :
    (a ++ old ++ b ++ name ++ c ++ (d ++ old ++ e) ++ (f ++ name ++ g) ++ rest).length =
      2 * old.length + 2 * name.length +
        (a ++ "" ++ b ++ "" ++ c ++ (d ++ "" ++ e) ++ (f ++ "" ++ g) ++ rest).length := by
  simp only [String.length_append, String.length_empty]
  omega

theorem length_patchText (old name : String) (chunk : GitDiffChunk) :
    (patchText old name chunk).length =
      2 * old.length + 2 * name.length + (patchText "" "" chunk).length :=
  length_headed old name _ _ _ _ _ _ _ _

theorem intercalate_ended {lines : List String} (h : lines ≠ []) :
    "\n".intercalate lines ++ "\n" = String.join (lines.map (· ++ "\n")) := by
  induction lines with
  | nil => exact absurd rfl h
  | cons line lines ih =>
    cases lines with
    | nil => simp
    | cons next lines =>
      rw [String.intercalate_cons_cons, List.map_cons, String.join_cons,
        ← ih (List.cons_ne_nil _ _), String.append_assoc, String.append_assoc]

theorem join_ended (a b c : String) :
    String.join ([a, b, c].map (· ++ "\n")) = a ++ "\n" ++ (b ++ "\n") ++ (c ++ "\n") := by
  simp only [List.map_cons, List.map_nil, String.join_cons, String.join_nil, String.append_empty,
    String.append_assoc]

theorem chunkLines_eq (file : GitDiffFile) (chunk : GitDiffChunk) :
    Git.chunkLines file chunk =
      [s!"diff --git a/{file.oldPath.getD file.path} b/{file.path}",
        s!"--- a/{file.oldPath.getD file.path}", s!"+++ b/{file.path}"] ++
          (shownChunk chunk).map Prod.fst := by
  rw [shownChunk, List.map_cons, List.map_map]
  rfl

theorem ended_chunkLines (file : GitDiffFile) (chunk : GitDiffChunk) :
    "\n".intercalate (Git.chunkLines file chunk) ++ "\n" =
      patchText (file.oldPath.getD file.path) file.path chunk := by
  have hne : Git.chunkLines file chunk ≠ [] := List.cons_ne_nil _ _
  refine (intercalate_ended hne).trans ?_
  refine (congrArg (fun lines => String.join (lines.map (· ++ "\n")))
    (chunkLines_eq file chunk)).trans ?_
  refine (congrArg String.join (List.map_append ..)).trans ?_
  refine (String.join_append ..).trans ?_
  exact congrArg (· ++ _) (join_ended _ _ _)

theorem selectedPatch_singleton {file : GitDiffFile} {i : Nat} {chunk : GitDiffChunk}
    (h : file.chunks[i]? = some chunk) :
    Git.selectedPatch [file] file.path i =
      .ok (patchText (file.oldPath.getD file.path) file.path chunk) := by
  have hfind : [file].find? (·.path = file.path) = some file := by simp
  rw [Git.selectedPatch, hfind, ← ended_chunkLines]
  dsimp only
  rw [h]

namespace ChangesView

variable {view : ChangesView} {file : GitDiffFile} {chunk : GitDiffChunk} {data : Json}

theorem hunkHeaders_eq
    (hmeta : view.diffMeta = (parseDiffLinesWithMeta (diffResponse [file])).map Prod.snd) :
    view.hunkHeaders =
      (List.range file.chunks.length).map fun i =>
        ((file.chunks.map shownChunk).take i).flatten.length := by
  have hblocks : ∀ block ∈ file.chunks.map shownChunk,
      IsBlock (Option.isNone ∘ Prod.snd) block := by
    intro block hblock
    obtain ⟨chunk, -, rfl⟩ := List.mem_map.mp hblock
    exact isBlock_shownChunk chunk
  rw [hunkHeaders, hmeta, List.findIdxs_map, parseDiffLinesWithMeta_response,
    findIdxs_flatten hblocks, List.length_map]
  simp

theorem hunkAction_eq
    (hlines : view.diffLines = (parseDiffLinesWithMeta (diffResponse [file])).map Prod.fst)
    (hmeta : view.diffMeta = (parseDiffLinesWithMeta (diffResponse [file])).map Prod.snd)
    (hchunk : file.chunks[view.diffHunkSelected]? = some chunk)
    (hnamed : ¬(trim view.diffTitle = "" ∨ trim view.diffTitle = "working tree")) :
    view.hunkAction =
      .ok
        ⟨patchText (view.diffOldPath.getD (trim view.diffTitle)) (trim view.diffTitle) chunk,
          (view.files.find? (·.path = trim view.diffTitle)).any
            fun entry => entry.status = .staged,
          true⟩ := by
  have hlt : view.diffHunkSelected < file.chunks.length := (List.getElem?_eq_some_iff.mp hchunk).1
  have hheaders := hunkHeaders_eq hmeta
  have hlength : view.hunkHeaders.length = file.chunks.length := by
    rw [hheaders, List.length_map, List.length_range]
  have hitems := parseDiffLinesWithMeta_response file
  have hblock : (file.chunks.map shownChunk)[view.diffHunkSelected]? = some (shownChunk chunk) := by
    rw [List.getElem?_map, hchunk]
    rfl
  have hstart : view.hunkHeaders[min view.diffHunkSelected (view.hunkHeaders.length - 1)]? =
      some ((file.chunks.map shownChunk).take view.diffHunkSelected).flatten.length := by
    rw [hlength, Nat.min_eq_left (Nat.le_sub_one_of_lt hlt), hheaders, List.getElem?_map,
      List.getElem?_range hlt]
    rfl
  have hfinish : (view.hunkHeaders[view.diffHunkSelected + 1]?).getD view.diffLines.length =
      ((file.chunks.map shownChunk).take (view.diffHunkSelected + 1)).flatten.length := by
    by_cases hnext : view.diffHunkSelected + 1 < file.chunks.length
    · rw [hheaders, List.getElem?_map, List.getElem?_range hnext]
      rfl
    · have hall : (file.chunks.map shownChunk).take (view.diffHunkSelected + 1) =
          file.chunks.map shownChunk :=
        List.take_of_length_le (by rw [List.length_map]; omega)
      rw [List.getElem?_eq_none (by omega), Option.getD_none, hall, hlines, hitems,
        List.length_map]
  have hslice : (view.diffLines.take
        ((file.chunks.map shownChunk).take (view.diffHunkSelected + 1)).flatten.length).drop
          ((file.chunks.map shownChunk).take view.diffHunkSelected).flatten.length =
      (shownChunk chunk).map Prod.fst := by
    rw [hlines, hitems, ← List.map_take (f := Prod.fst), ← List.map_drop (f := Prod.fst),
      drop_take_flatten hblock]
  rw [hunkAction]
  dsimp only
  rw [if_neg hnamed, hstart]
  dsimp only
  rw [hfinish, hslice]
  rfl

end ChangesView

theorem trim_eq_of_length {text : String} (h : (trim text).length = text.length) :
    trim text = text := by
  have hsuffix := List.dropWhile_suffix (l := text.toList) isWhitespace
  have hprefix := List.rdropWhile_prefix isWhitespace (text.toList.dropWhile isWhitespace)
  have hlength : (trim text).toList.length = text.toList.length := h
  rw [trim_eq, String.toList_ofList] at hlength
  have hfirst := hsuffix.length_le
  have hlast := hprefix.length_le
  have hstart := hsuffix.eq_of_length (by omega)
  rw [trim_eq, hprefix.eq_of_length (by omega), hstart, String.ofList_toList]

theorem filter_nonempty {path : Option String} (h : path ≠ some "") :
    path.filter (· ≠ "") = path := by
  cases path with
  | none => rfl
  | some text => exact Option.filter_some_pos (by simpa using h)

/-- The chunk under the cursor is sent as the server prints it, to the index or back. -/
def ActsOnHunk (view : ChangesView) (scope : DiffScope) (file : GitDiffFile) : Prop :=
  ∃ patch, Git.selectedPatch [file] file.path view.diffHunkSelected = .ok patch ∧
    view.hunkAction = .ok ⟨patch, decide (scope = .staged), true⟩

/-- The path is one that the title of the view keeps, and the first entry of the path is a
staged one just where the diff is of what is staged. -/
structure FindsHunk (files : List GitFileEntry) (scope : DiffScope) (file : GitDiffFile) :
    Prop where
  trimmed : trim file.path = file.path
  named : ¬(file.path = "" ∨ file.path = "working tree")
  renamed : file.oldPath ≠ some ""
  status :
    ⟨file.path, .staged⟩ ∈ files ∧ ⟨file.path, .conflicted⟩ ∉ files ↔ scope = .staged

/-- The hunk action acts on the hunk shown where the entry that it finds by the path is of
the list that the diff was loaded for. -/
theorem applyHunkAction_acts_iff {s : ChangesRun} (h : changesSystem.Reachable s)
    {query : DiffQuery} {file : GitDiffFile}
    (hloaded : s.loaded = some (query, diffResponse [file]))
    (hquery : query.file = some file.path) (hhunks : file.chunks ≠ []) :
    ActsOnHunk s.view query.scope file ↔ FindsHunk s.view.files query.scope file := by
  have hshows := ChangesRun.shows h
  obtain ⟨hlines, hmeta⟩ := hshows.lines _ _ hloaded
  obtain ⟨htitle, hold⟩ := hshows.names _ _ hloaded
  rw [hquery, Option.getD_some] at htitle
  rw [hquery, Option.bind_some, parseDiffOldPath_response] at hold
  obtain ⟨status, hfiles⟩ := hshows.files
  have hcount : s.view.hunkHeaders.length = file.chunks.length := by
    rw [ChangesView.hunkHeaders_eq hmeta, List.length_map, List.length_range]
  have hcursor := hshows.cursor
  have hpos := List.length_pos_of_ne_nil hhunks
  obtain ⟨chunk, hchunk⟩ : ∃ chunk, file.chunks[s.view.diffHunkSelected]? = some chunk :=
    ⟨_, List.getElem?_eq_getElem (by omega)⟩
  have hsent := selectedPatch_singleton hchunk
  by_cases hnamed : trim file.path = "" ∨ trim file.path = "working tree"
  · -- Nothing is sent.
    have hrefused : s.view.hunkAction = .error "select a file to load its diff" := by
      rw [ChangesView.hunkAction, htitle]
      exact if_pos hnamed
    refine iff_of_false ?_ fun hfinds => ?_
    · rintro ⟨patch, -, haction⟩
      rw [hrefused] at haction
      cases haction
    · rw [hfinds.trimmed] at hnamed
      exact hfinds.named hnamed
  have haction := ChangesView.hunkAction_eq hlines hmeta hchunk (by rwa [htitle])
  rw [htitle, hold, Option.getD_some, hfiles] at haction
  have hstaged := find?_staged_iff status file.path
  rw [← hfiles] at haction hstaged
  constructor
  · rintro ⟨patch, hpatch, hbody⟩
    rw [hsent] at hpatch
    rw [haction] at hbody
    obtain rfl := Except.ok.inj hpatch
    obtain ⟨htext, hreverse, -⟩ := ApplyBody.mk.inj (Except.ok.inj hbody)
    have hlength := congrArg String.length htext
    rw [length_patchText, length_patchText (file.oldPath.getD file.path)] at hlength
    have hrenamed : file.oldPath ≠ some "" := by
      intro hempty
      have hzero : (trim file.path).length = 0 := by
        have hold : ((some "").filter (· ≠ "")).getD file.path = file.path := rfl
        have hnone : (some "").getD file.path = "" := rfl
        rw [hempty, hold, hnone, String.length_empty] at hlength
        omega
      exact hnamed (.inl (String.length_eq_zero_iff.mp hzero))
    have hkept := filter_nonempty hrenamed
    have htrimmed : trim file.path = file.path := by
      rw [hkept] at hlength
      exact trim_eq_of_length (by omega)
    rw [htrimmed] at hreverse hnamed
    refine ⟨htrimmed, hnamed, hrenamed, ?_⟩
    rw [← hstaged, hreverse, decide_eq_true_iff]
  · rintro ⟨htrimmed, -, hrenamed, hstatus⟩
    refine ⟨_, hsent, ?_⟩
    have hkept := filter_nonempty hrenamed
    rw [htrimmed, hkept] at haction
    rw [haction]
    refine congrArg (fun reverse => Except.ok (ApplyBody.mk _ reverse true)) ?_
    rw [Bool.eq_iff_iff, hstaged, hstatus, decide_eq_true_iff]

/-- A file that is staged and has changed again. -/
def stagedAndChanged : Json :=
  .object [("staged", .array [.string "a.rs"]), ("unstaged", .array [.string "a.rs"])]

def oneHunkFile : GitDiffFile where
  path := "a.rs"
  oldPath := none
  status := .modified
  additions := 1
  deletions := 0
  chunks :=
    [{ header := "@@ -0,0 +1 @@", oldStart := 0, oldLines := 0, newStart := 1, newLines := 1
       lines := [⟨.add, "one", none, some 1⟩] }]

/-- An entry of the list is selected, and its diff loaded. -/
def loadedAt (delta : Int) : ChangesRun :=
  ((ChangesRun.start stagedAndChanged).step (.moveSelection delta)).step
    (.refreshDiff (some (diffResponse [oneHunkFile])))

theorem loadedAt_reachable (delta : Int) : changesSystem.Reachable (loadedAt delta) :=
  .step (.step (.init ⟨stagedAndChanged, rfl⟩) trivial rfl) trivial rfl

/-- The staged change is unstaged. -/
theorem applyHunkAction_acts_staged : ActsOnHunk (loadedAt 0).view .staged oneHunkFile :=
  (@applyHunkAction_acts_iff _ (loadedAt_reachable 0) ⟨.staged, some "a.rs"⟩ oneHunkFile rfl rfl
    (List.cons_ne_nil _ _)).mpr
    ⟨by decide +kernel, by decide, by decide, by decide +kernel⟩

/-- So would be the change that is not staged. -/
theorem applyHunkAction_reverses :
    changesSystem.Reachable (loadedAt 1) ∧
      (loadedAt 1).loaded = some (⟨.working, some "a.rs"⟩, diffResponse [oneHunkFile]) ∧
        ¬ActsOnHunk (loadedAt 1).view .working oneHunkFile := by
  have hreverse : (loadedAt 1).view.hunkAction.toOption.map ApplyBody.reverse = some true := by
    decide +kernel
  refine ⟨loadedAt_reachable 1, rfl, ?_⟩
  rintro ⟨patch, -, haction⟩
  rw [haction] at hreverse
  have hstaged : decide (DiffScope.working = .staged) = true := Option.some.inj hreverse
  exact absurd hstaged (by decide)

end HerdrWebui.Tui
