import HerdrWebui.Data.Text

/-!
The text `git diff` prints, read into files, chunks and lines, and the patch that is
made of one chunk again.
-/

namespace HerdrWebui.Git

inductive LineType where
  | add
  | delete
  | normal
deriving DecidableEq, Repr

structure GitDiffLine where
  lineType : LineType
  content : String
  oldLineNumber : Option Nat
  newLineNumber : Option Nat
deriving DecidableEq, Repr

structure GitDiffRow where
  oldLine : Option GitDiffLine
  newLine : Option GitDiffLine
deriving DecidableEq, Repr

/-- The rows are filled in for a side by side layout only. -/
structure GitDiffChunk where
  header : String
  oldStart : Nat
  oldLines : Nat
  newStart : Nat
  newLines : Nat
  lines : List GitDiffLine := []
  rows : List GitDiffRow := []
deriving DecidableEq, Repr

inductive FileStatus where
  | added
  | deleted
  | renamed
  | modified
deriving DecidableEq, Repr

/-- The match count is filled in where a search goes with the request. -/
structure GitDiffFile where
  path : String
  oldPath : Option String
  status : FileStatus
  additions : Nat
  deletions : Nat
  chunks : List GitDiffChunk
  matchCount : Option Nat := none
deriving DecidableEq, Repr

/-- No path is read from `/dev/null`. -/
def parseDiffPath (raw : String) : Option String :=
  let quote := some (Char.ofNat 0x22)
  let path := trim raw
  if path = "/dev/null" then none
  else
    let path :=
      if path.toList.head? = quote ∧ path.toList.getLast? = quote ∧ 2 ≤ path.length then
        String.ofList (path.toList.drop 1).dropLast
      else path
    let path := ((stripPrefix "a/" path).or (stripPrefix "b/" path)).getD path
    some (replaceStr (replaceStr path "\\t" "\t") "\\\"" "\"")

/-- Start and length of one side of a hunk, without the mark of the side. -/
def hunkRange (mark : Char) (part : String) : Nat × Nat :=
  let parts := ((part.toList.dropWhile (· = mark)).splitOn ',').map String.ofList
  ((parts[0]?.bind parseUsize).getD 0, (parts[1]?.bind parseUsize).getD 1)

def parseHunkHeader (line : String) : (Nat × Nat) × (Nat × Nat) :=
  match splitWhitespace line with
  | _ :: old :: new :: _ => (hunkRange '-' old, hunkRange '+' new)
  | _ => ((0, 1), (0, 1))

/-- How far the lines of a file have been read. -/
structure ChunkReader where
  chunks : List GitDiffChunk
  current : Option GitDiffChunk
  oldLine : Nat
  newLine : Nat

/-- The kind a line has by its first character. -/
def lineType? : Char → Option LineType
  | '+' => some .add
  | '-' => some .delete
  | ' ' => some .normal
  | _ => none

def ChunkReader.readLine (reader : ChunkReader) (line : String) : ChunkReader :=
  if hasPrefix "@@" line then
    let ((oldStart, oldLines), (newStart, newLines)) := parseHunkHeader line
    { chunks := reader.chunks ++ reader.current.toList
      current := some { header := line, oldStart, oldLines, newStart, newLines }
      oldLine := oldStart
      newLine := newStart }
  else
    match reader.current, line.toList with
    | some chunk, first :: content =>
      match lineType? first with
      | none => reader
      | some lineType =>
        let diffLine : GitDiffLine :=
          { lineType
            content := String.ofList content
            oldLineNumber := if lineType ≠ .add then some reader.oldLine else none
            newLineNumber := if lineType ≠ .delete then some reader.newLine else none }
        { reader with
          current := some { chunk with lines := chunk.lines ++ [diffLine] }
          oldLine := if lineType ≠ .add then reader.oldLine + 1 else reader.oldLine
          newLine := if lineType ≠ .delete then reader.newLine + 1 else reader.newLine }
    | _, _ => reader

def readChunks (lines : List String) : List GitDiffChunk :=
  let reader := lines.foldl ChunkReader.readLine ⟨[], none, 0, 0⟩
  reader.chunks ++ reader.current.toList

def countLines (chunks : List GitDiffChunk) (lineType : LineType) : Nat :=
  (chunks.flatMap (·.lines)).countP (·.lineType = lineType)

/-- A block that names no path is passed over. -/
def parseBlock (block : String) : Option GitDiffFile := do
  let lines := lines block
  let minus := lines.find? (hasPrefix "--- ")
  let plus := lines.find? (hasPrefix "+++ ")
  let diffPath (line : String) := parseDiffPath (String.ofList (line.toList.drop 4))
  let oldPath := (lines.findSome? (stripPrefix "rename from ")).or (minus.bind diffPath)
  let newPath := (lines.findSome? (stripPrefix "rename to ")).or (plus.bind diffPath)
  let path ← newPath.or oldPath
  let status : FileStatus :=
    if lines.any (hasPrefix "new file mode") ∨ minus.any (hasInfix "/dev/null") then .added
    else if lines.any (hasPrefix "deleted file mode") ∨ plus.any (hasInfix "/dev/null") then
      .deleted
    else if oldPath ≠ some path then .renamed
    else .modified
  let chunks := readChunks lines
  return {
    path
    oldPath := if status = .renamed then some (oldPath.getD "") else none
    status
    additions := countLines chunks .add
    deletions := countLines chunks .delete
    chunks }

/-- Cutting the text takes the header off every block but the first. It is put on
again, except where no file has been read yet. -/
def readBlock (files : List GitDiffFile) (block : String) : List GitDiffFile :=
  if hasPrefix "diff --git " block then files ++ (parseBlock block).toList
  else if files = [] then files
  else files ++ (parseBlock ("diff --git " ++ block)).toList

def parseUnifiedDiff (text : String) : List GitDiffFile :=
  (splitStr "\ndiff --git " text).foldl readBlock []

def linePrefix : LineType → String
  | .add => "+"
  | .delete => "-"
  | .normal => " "

def chunkLines (file : GitDiffFile) (chunk : GitDiffChunk) : List String :=
  let path := file.path
  let oldPath := file.oldPath.getD path
  [s!"diff --git a/{oldPath} b/{path}", s!"--- a/{oldPath}", s!"+++ b/{path}", chunk.header] ++
    chunk.lines.map fun line => linePrefix line.lineType ++ line.content

/-- The patch of the chunk at an index of a file, as the diff shows them. -/
def selectedPatch (files : List GitDiffFile) (file : String) (chunkIndex : Nat) :
    Except String String :=
  match files.find? (·.path = file) with
  | none => .error s!"no diff found for {file}"
  | some entry =>
    match entry.chunks[chunkIndex]? with
    | none => .error s!"chunk {chunkIndex} does not exist for {file}"
    | some chunk => .ok ("\n".intercalate (chunkLines entry chunk) ++ "\n")

end HerdrWebui.Git
