import HerdrWebui.Builtin.Registry
import HerdrWebui.Data.Text

/-!
What `git worktree list --porcelain` prints, read by three parsers: for the list of the
built-in backend, for the branch picker and for the cleanup.
-/

namespace HerdrWebui.Git

structure WorktreeRow where
  path : String
  branch : Option String
  isBare : Bool
  isDetached : Bool
  isPrunable : Bool
  isLinkedWorktree : Bool
  openWorkspaceId : Option String
  label : String

structure WorktreeReader where
  rows : List WorktreeRow
  currentPath : Option String
  branch : Option String
  detached : Bool

def WorktreeReader.flush (s : WorktreeReader) : WorktreeReader :=
  match s.currentPath with
  | none => s
  | some path =>
    let row : WorktreeRow :=
      { path
        branch := s.branch
        isBare := false
        isDetached := s.detached
        isPrunable := false
        isLinkedWorktree := true
        openWorkspaceId := none
        label := (Builtin.fileName path).getD path }
    ⟨s.rows ++ [row], none, none, false⟩

def WorktreeReader.readLine (s : WorktreeReader) (line : String) : WorktreeReader :=
  match stripPrefix "worktree " line with
  | some path => { s.flush with currentPath := some path }
  | none =>
    match stripPrefix "branch " line with
    | some value => { s with branch := some (trimStartMatches "refs/heads/" value) }
    | none => if line = "detached" then { s with detached := true } else s

def parseGitWorktrees (raw : String) : List WorktreeRow :=
  ((lines raw).foldl WorktreeReader.readLine ⟨[], none, none, false⟩).flush.rows

structure BranchPathReader where
  paths : Finmap fun _ : String => String
  currentPath : Option String

def BranchPathReader.readLine (s : BranchPathReader) (line : String) : BranchPathReader :=
  match stripPrefix "worktree " line with
  | some path => { s with currentPath := some path }
  | none =>
    match stripPrefix "branch refs/heads/" line with
    | some branch =>
      match s.currentPath with
      | some path => { s with paths := s.paths.insert branch path }
      | none => s
    | none => if (trim line).isEmpty then { s with currentPath := none } else s

def parseWorktreeBranchPaths (raw : String) : Finmap fun _ : String => String :=
  ((lines raw).foldl BranchPathReader.readLine ⟨∅, none⟩).paths

structure GitCleanupWorktree where
  path : String
  branch : Option String
  detached : Bool
  prunable : Bool
  primary : Bool
  pushed : Option Bool

structure CleanupReader where
  rows : List GitCleanupWorktree
  current : Option GitCleanupWorktree

def CleanupReader.take (s : CleanupReader) : CleanupReader :=
  ⟨s.rows ++ s.current.toList, none⟩

def CleanupReader.update (s : CleanupReader) (f : GitCleanupWorktree → GitCleanupWorktree) :
    CleanupReader := { s with current := s.current.map f }

section Cleanup

variable (root : String) (pushedByBranch : String → Option Bool)

def CleanupReader.readLine (s : CleanupReader) (line : String) : CleanupReader :=
  if line.isEmpty then s.take
  else
    match stripPrefix "worktree " line with
    | some path => { s.take with current := some ⟨path, none, false, false, path == root, none⟩ }
    | none =>
      match stripPrefix "branch " line with
      | some branch =>
        let branch := (stripPrefix "refs/heads/" branch).getD branch
        s.update fun row =>
          { row with branch := some branch, pushed := pushedByBranch branch }
      | none =>
        if line = "detached" then s.update ({ · with detached := true })
        else if hasPrefix "prunable" line then s.update ({ · with prunable := true })
        else s

/-- The rows of `cleanup_worktrees`; the top level of the checkout and the branches that
are pushed come from other commands. -/
def cleanupWorktrees (text : String) : List GitCleanupWorktree :=
  ((lines text ++ [""]).foldl (CleanupReader.readLine root pushedByBranch) ⟨[], none⟩).rows

end Cleanup

/-- A text of the output that git prints in one line: an id, the name of a branch or a
quoted reason. -/
structure LineText where
  text : String
  noBreak : Unbroken text

inductive WorktreeHead where
  | bare
  | detached (oid : LineText)
  | branch (oid name : LineText)

structure WorktreeRecord where
  path : String
  head : WorktreeHead
  /-- The reason, which may be empty. -/
  locked : Option LineText
  prunable : Option LineText

def WorktreeHead.lines : WorktreeHead → List String
  | .bare => ["bare"]
  | .detached oid => ["HEAD " ++ oid.text, "detached"]
  | .branch oid name => ["HEAD " ++ oid.text, "branch refs/heads/" ++ name.text]

def WorktreeHead.branch? : WorktreeHead → Option String
  | .branch _ name => some name.text
  | _ => none

def WorktreeHead.isDetached : WorktreeHead → Bool
  | .detached _ => true
  | _ => false

def reasonLine (key : String) (reason : LineText) : String :=
  if reason.text = "" then key else key ++ " " ++ reason.text

namespace WorktreeRecord

def attributes (record : WorktreeRecord) : List String :=
  record.head.lines ++ (record.locked.map (reasonLine "locked")).toList ++
    (record.prunable.map (reasonLine "prunable")).toList

def lines (record : WorktreeRecord) : List String :=
  ["worktree " ++ record.path] ++ record.attributes ++ [""]

def facts (record : WorktreeRecord) : String × Option String × Bool × Bool :=
  (record.path, record.head.branch?, record.head.isDetached, record.prunable.isSome)

end WorktreeRecord

def worktreeListText (records : List WorktreeRecord) : String :=
  String.join ((records.flatMap WorktreeRecord.lines).map (· ++ "\n"))

/-- The three parsers recover the records. -/
structure ParsersAgree (root : String) (pushedByBranch : String → Option Bool)
    (records : List WorktreeRecord) : Prop where
  listed : (parseGitWorktrees (worktreeListText records)).map
    (fun row => (row.path, row.branch, row.isDetached, row.isPrunable)) =
      records.map WorktreeRecord.facts
  picked : ∀ branch path,
    (parseWorktreeBranchPaths (worktreeListText records)).lookup branch = some path ↔
      ∃ record ∈ records, record.head.branch? = some branch ∧ record.path = path
  cleaned : (cleanupWorktrees root pushedByBranch (worktreeListText records)).map
    (fun row => (row.path, row.branch, row.detached, row.prunable)) =
      records.map WorktreeRecord.facts

/-- A path that is printed in one line, which is read back. -/
def OneLine (path : String) : Prop := '\n' ∉ path.toList ∧ path.toList.getLast? ≠ some '\r'

/-- What the parsers need of the records. -/
structure Readable (records : List WorktreeRecord) : Prop where
  paths : ∀ record ∈ records, OneLine record.path
  branches : ∀ record ∈ records, ∀ branch, record.head.branch? = some branch →
    hasPrefix "refs/heads/" branch = false
  kept : ∀ record ∈ records, record.prunable = none
  distinct : ∀ record ∈ records, ∀ other ∈ records, ∀ branch,
    record.head.branch? = some branch → other.head.branch? = some branch →
      record.path = other.path

theorem unbroken_reasonLine {key : String} (hkey : Unbroken key) (reason : LineText) :
    Unbroken (reasonLine key reason) := by
  unfold reasonLine
  split
  · exact hkey
  · exact (hkey.append (by decide)).append reason.noBreak

theorem unbroken_headLines (head : WorktreeHead) : ∀ line ∈ head.lines, Unbroken line := by
  have hoid (oid : LineText) : Unbroken ("HEAD " ++ oid.text) :=
    Unbroken.append (by decide) oid.noBreak
  cases head with
  | bare =>
    intro line hline
    obtain rfl := List.mem_singleton.mp hline
    decide
  | detached oid =>
    intro line hline
    rcases List.mem_cons.mp hline with rfl | hlast
    · exact hoid oid
    · obtain rfl := List.mem_singleton.mp hlast
      decide
  | branch oid name =>
    intro line hline
    rcases List.mem_cons.mp hline with rfl | hlast
    · exact hoid oid
    · obtain rfl := List.mem_singleton.mp hlast
      exact Unbroken.append (by decide) name.noBreak

theorem unbroken_attributes (record : WorktreeRecord) :
    ∀ line ∈ record.attributes, Unbroken line := by
  intro line hline
  rcases List.mem_append.mp hline with hfront | hprunable
  · rcases List.mem_append.mp hfront with hhead | hlocked
    · exact unbroken_headLines record.head line hhead
    · obtain ⟨reason, -, rfl⟩ := Option.map_eq_some_iff.mp (Option.mem_toList.mp hlocked)
      exact unbroken_reasonLine (by decide) reason
  · obtain ⟨reason, -, rfl⟩ := Option.map_eq_some_iff.mp (Option.mem_toList.mp hprunable)
    exact unbroken_reasonLine (by decide) reason

/-- A record as its lines are read: the path without a carriage return at its end. -/
def WorktreeRecord.seen (record : WorktreeRecord) : WorktreeRecord :=
  { record with path := dropCr record.path }

theorem map_dropCr_lines (record : WorktreeRecord) :
    record.lines.map dropCr = record.seen.lines := by
  have hattributes : record.attributes.map dropCr = record.attributes :=
    (List.map_congr_left fun line hline => (unbroken_attributes record line hline).dropCr).trans
      (List.map_id _)
  have hmark : Unbroken "worktree " := by decide
  have hblank : Unbroken "" := by decide
  rw [WorktreeRecord.lines, List.map_append, List.map_append, hattributes, List.map_singleton,
    List.map_singleton, dropCr_append hmark, hblank.dropCr]
  rfl

theorem lines_worktreeListText {records : List WorktreeRecord}
    (h : ∀ record ∈ records, '\n' ∉ record.path.toList) :
    lines (worktreeListText records) = records.flatMap fun record => record.seen.lines := by
  have hlines : ∀ line ∈ records.flatMap WorktreeRecord.lines, '\n' ∉ line.toList := by
    intro line hline
    obtain ⟨record, hrecord, hmem⟩ := List.mem_flatMap.mp hline
    rcases List.mem_append.mp hmem with hfront | hblank
    · rcases List.mem_append.mp hfront with hpath | hattribute
      · obtain rfl := List.mem_singleton.mp hpath
        rw [String.toList_append, List.mem_append, not_or]
        exact ⟨by decide, h record hrecord⟩
      · exact (unbroken_attributes record line hattribute).1
    · obtain rfl := List.mem_singleton.mp hblank
      decide
  rw [worktreeListText, lines_join hlines, List.map_flatMap]
  exact congrArg (List.flatMap · records) (funext map_dropCr_lines)

/-- A line that starts with neither `w`, `b`, `d` nor a blank. -/
def Plain (line : String) : Prop :=
  ∃ c rest, line.toList = c :: rest ∧ 'w' ≠ c ∧ 'b' ≠ c ∧ 'd' ≠ c ∧ isWhitespace c = false

theorem plain_append {key : String} (hkey : Plain key) (text : String) : Plain (key ++ text) := by
  obtain ⟨c, rest, hline, hc⟩ := hkey
  exact ⟨c, rest ++ text.toList, by rw [String.toList_append, hline, List.cons_append], hc⟩

theorem plain_reasonLine {key : String} (hkey : Plain key) (reason : LineText) :
    Plain (reasonLine key reason) := by
  unfold reasonLine
  split
  · exact hkey
  · exact plain_append (plain_append hkey _) _

theorem Plain.stripPrefix_eq_none {line pre : String} (h : Plain line)
    (hpre : pre.toList.head? = some 'w' ∨ pre.toList.head? = some 'b') :
    stripPrefix pre line = none := by
  obtain ⟨c, rest, hline, hw, hb, -⟩ := h
  have hprefix : hasPrefix pre line = false := by
    rcases hpre with hpre | hpre
    · exact hasPrefix_eq_false hpre hline hw
    · exact hasPrefix_eq_false hpre hline hb
  rw [stripPrefix, hprefix, if_neg Bool.false_ne_true]

theorem Plain.ne_detached {line : String} (h : Plain line) : line ≠ "detached" := by
  rintro rfl
  obtain ⟨c, rest, hline, -, -, hd, -⟩ := h
  exact hd (List.cons.inj hline).1

theorem plain_head (oid : LineText) : Plain ("HEAD " ++ oid.text) :=
  plain_append ⟨'H', "EAD ".toList, rfl, by decide⟩ _

theorem plain_locked : Plain "locked" := ⟨'l', "ocked".toList, rfl, by decide⟩

theorem plain_prunable : Plain "prunable" := ⟨'p', "runable".toList, rfl, by decide⟩

theorem stripPrefix_worktree_branch (name : String) :
    stripPrefix "worktree " ("branch refs/heads/" ++ name) = none := by
  have hprefix : hasPrefix "worktree " ("branch refs/heads/" ++ name) = false :=
    hasPrefix_eq_false rfl (String.toList_append ..) (by decide)
  rw [stripPrefix, hprefix, if_neg Bool.false_ne_true]

theorem stripPrefix_branch (name : String) :
    stripPrefix "branch " ("branch refs/heads/" ++ name) = some ("refs/heads/" ++ name) := by
  have hbranch : "branch refs/heads/" ++ name = "branch " ++ ("refs/heads/" ++ name) := by
    rw [← String.append_assoc]
    rfl
  rw [hbranch, stripPrefix_append]

theorem foldl_reason {σ : Type} {step : σ → String → σ} {s : σ} {key : String}
    (h : ∀ reason, step s (reasonLine key reason) = s) (reason : Option LineText) :
    (reason.map (reasonLine key)).toList.foldl step s = s := by
  cases reason with
  | none => rfl
  | some reason => exact h reason

def WorktreeRecord.row (record : WorktreeRecord) : WorktreeRow where
  path := record.path
  branch := record.head.branch?.map fun name =>
    trimStartMatches "refs/heads/" ("refs/heads/" ++ name)
  isBare := false
  isDetached := record.head.isDetached
  isPrunable := false
  isLinkedWorktree := true
  openWorkspaceId := none
  label := (Builtin.fileName record.path).getD record.path

namespace WorktreeReader

theorem readLine_plain (s : WorktreeReader) {line : String} (h : Plain line) :
    s.readLine line = s := by
  rw [readLine, h.stripPrefix_eq_none (.inl rfl), h.stripPrefix_eq_none (.inr rfl)]
  exact if_neg h.ne_detached

theorem readLines_reason (s : WorktreeReader) {key : String} (hkey : Plain key)
    (reason : Option LineText) :
    (reason.map (reasonLine key)).toList.foldl readLine s = s :=
  foldl_reason (fun other => s.readLine_plain (plain_reasonLine hkey other)) reason

theorem readLines_head (rows : List WorktreeRow) (path : String) (head : WorktreeHead) :
    head.lines.foldl readLine ⟨rows, some path, none, false⟩ =
      ⟨rows, some path, head.branch?.map fun name =>
        trimStartMatches "refs/heads/" ("refs/heads/" ++ name), head.isDetached⟩ := by
  cases head with
  | bare => rfl
  | detached oid =>
    rw [WorktreeHead.lines, List.foldl_cons, readLine_plain _ (plain_head oid)]
    rfl
  | branch oid name =>
    rw [WorktreeHead.lines, List.foldl_cons, readLine_plain _ (plain_head oid),
      List.foldl_cons, readLine, stripPrefix_worktree_branch, stripPrefix_branch]
    rfl

/-- Nothing is kept of a record that has been flushed. -/
def Settled (s : WorktreeReader) : Prop :=
  s.currentPath = none → s.branch = none ∧ s.detached = false

theorem flush_eq {s : WorktreeReader} (h : s.Settled) :
    s.flush = ⟨s.flush.rows, none, none, false⟩ := by
  obtain ⟨rows, _ | path, branch, detached⟩ := s
  · obtain ⟨rfl, rfl⟩ := h rfl
    rfl
  · rfl

theorem readRecord {s : WorktreeReader} (h : s.Settled) (record : WorktreeRecord) :
    (record.lines.foldl readLine s).flush.rows = s.flush.rows ++ [record.row] ∧
      (record.lines.foldl readLine s).Settled := by
  have hpath : ["worktree " ++ record.path].foldl readLine s =
      ⟨s.flush.rows, some record.path, none, false⟩ := by
    rw [List.foldl_cons, List.foldl_nil, readLine, stripPrefix_append, flush_eq h]
  have hread : record.lines.foldl readLine s =
      ⟨s.flush.rows, some record.path, record.row.branch, record.row.isDetached⟩ := by
    rw [WorktreeRecord.lines, WorktreeRecord.attributes, List.foldl_append, List.foldl_append,
      List.foldl_append, List.foldl_append, hpath, readLines_head,
      readLines_reason _ plain_locked, readLines_reason _ plain_prunable]
    rfl
  rw [hread]
  exact ⟨rfl, fun hnone => by cases hnone⟩

theorem readRecords {s : WorktreeReader} (h : s.Settled) (records : List WorktreeRecord) :
    ((records.flatMap WorktreeRecord.lines).foldl readLine s).flush.rows =
      s.flush.rows ++ records.map WorktreeRecord.row := by
  induction records generalizing s with
  | nil => exact (List.append_nil _).symm
  | cons record records ih =>
    obtain ⟨hrows, hsettled⟩ := readRecord h record
    rw [List.flatMap_cons, List.foldl_append, ih hsettled, hrows, List.append_assoc]
    rfl

end WorktreeReader

section Cleanup

variable (root : String) (pushedByBranch : String → Option Bool)

def WorktreeRecord.cleanupRow (record : WorktreeRecord) : GitCleanupWorktree where
  path := record.path
  branch := record.head.branch?
  detached := record.head.isDetached
  prunable := record.prunable.isSome
  primary := record.path == root
  pushed := record.head.branch?.bind pushedByBranch

namespace CleanupReader

variable {root pushedByBranch}

theorem isEmpty_of_plain {line : String} (h : Plain line) : line.isEmpty = false := by
  obtain ⟨c, rest, hline, -⟩ := h
  apply Bool.eq_false_iff.mpr
  intro hempty
  rw [String.isEmpty_iff.mp hempty] at hline
  cases hline

theorem readLine_plain (s : CleanupReader) {line : String} (h : Plain line)
    (hprunable : hasPrefix "prunable" line = false) :
    readLine root pushedByBranch s line = s := by
  rw [readLine, isEmpty_of_plain h, if_neg Bool.false_ne_true,
    h.stripPrefix_eq_none (.inl rfl), h.stripPrefix_eq_none (.inr rfl)]
  dsimp only
  rw [if_neg h.ne_detached, hprunable, if_neg Bool.false_ne_true]

theorem readLine_head (s : CleanupReader) (oid : LineText) :
    readLine root pushedByBranch s ("HEAD " ++ oid.text) = s :=
  readLine_plain s (plain_head oid)
    (hasPrefix_eq_false rfl (String.toList_append ..) (by decide))

theorem readLines_locked (s : CleanupReader) (reason : Option LineText) :
    (reason.map (reasonLine "locked")).toList.foldl (readLine root pushedByBranch) s = s := by
  refine foldl_reason (fun other => ?_) reason
  apply readLine_plain s (plain_reasonLine plain_locked other)
  unfold reasonLine
  split
  · rfl
  · rw [String.append_assoc]
    exact hasPrefix_eq_false rfl (String.toList_append ..) (by decide)

theorem readLines_prunable (rows : List GitCleanupWorktree) (row : GitCleanupWorktree)
    (hrow : row.prunable = false) (reason : Option LineText) :
    (reason.map (reasonLine "prunable")).toList.foldl (readLine root pushedByBranch)
      ⟨rows, some row⟩ = ⟨rows, some { row with prunable := reason.isSome }⟩ := by
  cases reason with
  | none =>
    rw [Option.isSome_none, ← hrow]
    rfl
  | some reason =>
    have hprefix : hasPrefix "prunable" (reasonLine "prunable" reason) = true := by
      unfold reasonLine
      split
      · rfl
      · rw [String.append_assoc]
        exact hasPrefix_append _ _
    have hplain := plain_reasonLine plain_prunable reason
    change readLine root pushedByBranch _ _ = _
    rw [readLine, isEmpty_of_plain hplain, if_neg Bool.false_ne_true,
      hplain.stripPrefix_eq_none (.inl rfl), hplain.stripPrefix_eq_none (.inr rfl)]
    dsimp only
    rw [if_neg hplain.ne_detached, if_pos hprefix]
    rfl

theorem readLines_head (rows : List GitCleanupWorktree) (path : String) (primary : Bool)
    (head : WorktreeHead) :
    head.lines.foldl (readLine root pushedByBranch)
      ⟨rows, some ⟨path, none, false, false, primary, none⟩⟩ =
      ⟨rows, some ⟨path, head.branch?, head.isDetached, false, primary,
        head.branch?.bind pushedByBranch⟩⟩ := by
  cases head with
  | bare => rfl
  | detached oid =>
    rw [WorktreeHead.lines, List.foldl_cons, readLine_head]
    rfl
  | branch oid name =>
    rw [WorktreeHead.lines, List.foldl_cons, readLine_head, List.foldl_cons, readLine,
      isEmpty_append (by decide), if_neg Bool.false_ne_true, stripPrefix_worktree_branch,
      stripPrefix_branch]
    dsimp only
    rw [stripPrefix_append]
    rfl

theorem readRecord (rows : List GitCleanupWorktree) (record : WorktreeRecord) :
    record.lines.foldl (readLine root pushedByBranch) ⟨rows, none⟩ =
      ⟨rows ++ [record.cleanupRow root pushedByBranch], none⟩ := by
  have hpath : ["worktree " ++ record.path].foldl (readLine root pushedByBranch) ⟨rows, none⟩ =
      ⟨rows, some ⟨record.path, none, false, false, record.path == root, none⟩⟩ := by
    rw [List.foldl_cons, List.foldl_nil, readLine, isEmpty_append (by decide),
      if_neg Bool.false_ne_true, stripPrefix_append]
    exact congrArg (CleanupReader.mk · _) (List.append_nil rows)
  rw [WorktreeRecord.lines, WorktreeRecord.attributes, List.foldl_append, List.foldl_append,
    List.foldl_append, List.foldl_append, hpath, readLines_head, readLines_locked,
    readLines_prunable _ _ rfl]
  rfl

theorem readRecords (rows : List GitCleanupWorktree) (records : List WorktreeRecord) :
    (records.flatMap WorktreeRecord.lines).foldl (readLine root pushedByBranch) ⟨rows, none⟩ =
      ⟨rows ++ records.map (WorktreeRecord.cleanupRow root pushedByBranch), none⟩ := by
  induction records generalizing rows with
  | nil => exact congrArg (CleanupReader.mk · none) (List.append_nil rows).symm
  | cons record records ih =>
    rw [List.flatMap_cons, List.foldl_append, readRecord, ih, List.append_assoc]
    rfl

end CleanupReader

end Cleanup

def addBranch (paths : Finmap fun _ : String => String) (record : WorktreeRecord) :
    Finmap fun _ : String => String :=
  match record.head.branch? with
  | some branch => paths.insert branch record.path
  | none => paths

namespace BranchPathReader

theorem readLine_plain (s : BranchPathReader) {line : String} (h : Plain line) :
    s.readLine line = s := by
  rw [readLine, h.stripPrefix_eq_none (.inl rfl), h.stripPrefix_eq_none (.inr rfl)]
  obtain ⟨c, rest, hline, -, -, -, hc⟩ := h
  dsimp only
  rw [isEmpty_trim hline hc, if_neg Bool.false_ne_true]

theorem readLines_reason (s : BranchPathReader) {key : String} (hkey : Plain key)
    (reason : Option LineText) :
    (reason.map (reasonLine key)).toList.foldl readLine s = s :=
  foldl_reason (fun other => s.readLine_plain (plain_reasonLine hkey other)) reason

theorem readLines_head (paths : Finmap fun _ : String => String) (record : WorktreeRecord) :
    record.head.lines.foldl readLine ⟨paths, some record.path⟩ =
      ⟨addBranch paths record, some record.path⟩ := by
  obtain ⟨path, head, locked, prunable⟩ := record
  cases head with
  | bare => rfl
  | detached oid =>
    rw [WorktreeHead.lines, List.foldl_cons, readLine_plain _ (plain_head oid)]
    rfl
  | branch oid name =>
    rw [WorktreeHead.lines, List.foldl_cons, readLine_plain _ (plain_head oid),
      List.foldl_cons, readLine, stripPrefix_worktree_branch, stripPrefix_append]
    rfl

theorem readRecord (s : BranchPathReader) (record : WorktreeRecord) :
    record.lines.foldl readLine s = ⟨addBranch s.paths record, none⟩ := by
  have hpath : ["worktree " ++ record.path].foldl readLine s = ⟨s.paths, some record.path⟩ := by
    rw [List.foldl_cons, List.foldl_nil, readLine, stripPrefix_append]
  rw [WorktreeRecord.lines, WorktreeRecord.attributes, List.foldl_append, List.foldl_append,
    List.foldl_append, List.foldl_append, hpath, readLines_head,
    readLines_reason _ plain_locked, readLines_reason _ plain_prunable]
  rfl

theorem readRecords (s : BranchPathReader) (records : List WorktreeRecord) :
    ((records.flatMap WorktreeRecord.lines).foldl readLine s).paths =
      records.foldl addBranch s.paths := by
  induction records generalizing s with
  | nil => rfl
  | cons record records ih =>
    rw [List.flatMap_cons, List.foldl_append, readRecord, ih, List.foldl_cons]

end BranchPathReader

theorem lookup_addBranches (branch : String) (records : List WorktreeRecord)
    (paths : Finmap fun _ : String => String) :
    (records.foldl addBranch paths).lookup branch =
      ((records.reverse.find? fun record => record.head.branch? = some branch).map
        WorktreeRecord.path).or (paths.lookup branch) := by
  induction records generalizing paths with
  | nil => rfl
  | cons record records ih =>
    rw [List.foldl_cons, ih, List.reverse_cons, List.find?_append]
    cases records.reverse.find? fun record => record.head.branch? = some branch with
    | some found => rfl
    | none =>
      rw [Option.map_none, Option.none_or, Option.none_or, List.find?_singleton]
      by_cases hbranch : record.head.branch? = some branch
      · rw [addBranch, hbranch]
        simp
      · rw [if_neg (by simpa using hbranch)]
        cases hother : record.head.branch? with
        | none => rw [addBranch, hother]; rfl
        | some other =>
          have hne : branch ≠ other := by
            rintro rfl
            exact hbranch hother
          rw [addBranch, hother]
          exact Finmap.lookup_insert_of_ne paths hne

section Whole

variable {records : List WorktreeRecord} {root : String} {pushedByBranch : String → Option Bool}

theorem lines_seen (h : ∀ record ∈ records, '\n' ∉ record.path.toList) :
    lines (worktreeListText records) =
      (records.map WorktreeRecord.seen).flatMap WorktreeRecord.lines := by
  rw [lines_worktreeListText h, List.flatMap_map]

theorem parseGitWorktrees_eq (h : ∀ record ∈ records, '\n' ∉ record.path.toList) :
    parseGitWorktrees (worktreeListText records) =
      records.map fun record => record.seen.row := by
  have hsettled : WorktreeReader.Settled ⟨[], none, none, false⟩ := fun _ => ⟨rfl, rfl⟩
  rw [parseGitWorktrees, lines_seen h, WorktreeReader.readRecords hsettled, List.map_map]
  rfl

theorem parseWorktreeBranchPaths_eq (h : ∀ record ∈ records, '\n' ∉ record.path.toList) :
    parseWorktreeBranchPaths (worktreeListText records) =
      (records.map WorktreeRecord.seen).foldl addBranch ∅ := by
  rw [parseWorktreeBranchPaths, lines_seen h, BranchPathReader.readRecords]

theorem cleanupWorktrees_eq (h : ∀ record ∈ records, '\n' ∉ record.path.toList) :
    cleanupWorktrees root pushedByBranch (worktreeListText records) =
      records.map fun record => record.seen.cleanupRow root pushedByBranch := by
  rw [cleanupWorktrees, lines_seen h, List.foldl_append, CleanupReader.readRecords, List.map_map]
  exact List.append_nil _

def WorktreeReader.NoFeed (s : WorktreeReader) : Prop :=
  (∀ row ∈ s.rows, '\n' ∉ row.path.toList) ∧
    ∀ path, s.currentPath = some path → '\n' ∉ path.toList

theorem WorktreeReader.NoFeed.flush {s : WorktreeReader} (h : s.NoFeed) : s.flush.NoFeed := by
  obtain ⟨rows, _ | path, branch, detached⟩ := s
  · exact h
  · refine ⟨fun row hrow => ?_, fun _ hnone => by cases hnone⟩
    rcases List.mem_append.mp hrow with hold | hlast
    · exact h.1 row hold
    · obtain rfl := List.mem_singleton.mp hlast
      exact h.2 path rfl

theorem WorktreeReader.NoFeed.readLine {s : WorktreeReader} (h : s.NoFeed) {line : String}
    (hline : '\n' ∉ line.toList) : (s.readLine line).NoFeed := by
  unfold WorktreeReader.readLine
  split
  · next path hpath =>
      refine ⟨h.flush.1, fun other hother => ?_⟩
      obtain rfl := Option.some.inj hother
      exact fun hmem => hline (stripPrefix_subset hpath hmem)
  · split
    · exact h
    · split
      · exact h
      · exact h

theorem parseGitWorktrees_noFeed (raw : String) :
    ∀ row ∈ parseGitWorktrees raw, '\n' ∉ row.path.toList := by
  have hread : ((lines raw).foldl WorktreeReader.readLine ⟨[], none, none, false⟩).NoFeed := by
    apply List.foldlRecOn (motive := WorktreeReader.NoFeed)
    · exact ⟨fun _ hmem => absurd hmem List.not_mem_nil, fun _ hnone => by cases hnone⟩
    · exact fun s hs line hline => hs.readLine (not_mem_lines hline)
  exact hread.flush.1

theorem facts_row_iff (record : WorktreeRecord) :
    (record.seen.row.path, record.seen.row.branch, record.seen.row.isDetached,
        record.seen.row.isPrunable) = record.facts ↔
      record.path.toList.getLast? ≠ some '\r' ∧
        (∀ branch, record.head.branch? = some branch → hasPrefix "refs/heads/" branch = false) ∧
        record.prunable = none := by
  have hbranch : record.seen.row.branch = record.head.branch? ↔
      ∀ branch, record.head.branch? = some branch →
        hasPrefix "refs/heads/" branch = false := by
    change record.head.branch?.map _ = _ ↔ _
    cases record.head.branch? with
    | none => simp
    | some branch =>
      rw [Option.map_some, Option.some_inj, trimStartMatches_append (by decide)]
      exact ⟨fun h other hother => Option.some.inj hother ▸ h, fun h => h branch rfl⟩
  have hprunable : (false = record.prunable.isSome) ↔ record.prunable = none := by
    cases record.prunable <;> simp
  rw [WorktreeRecord.facts, Prod.mk.injEq, Prod.mk.injEq, Prod.mk.injEq, hbranch]
  change dropCr record.path = record.path ∧ _ ∧ _ ∧ false = record.prunable.isSome ↔ _
  rw [dropCr_eq_self, hprunable]
  exact ⟨fun ⟨hpath, hbranches, _, hnone⟩ => ⟨hpath, hbranches, hnone⟩,
    fun ⟨hpath, hbranches, hnone⟩ => ⟨hpath, hbranches, rfl, hnone⟩⟩

theorem seen_eq {record : WorktreeRecord} (h : record.path.toList.getLast? ≠ some '\r') :
    record.seen = record := by
  rw [WorktreeRecord.seen, dropCr_eq_self.mpr h]

theorem ParsersAgree.noFeed (h : ParsersAgree root pushedByBranch records) :
    ∀ record ∈ records, '\n' ∉ record.path.toList := by
  intro record hrecord
  have hfacts : record.facts ∈ (parseGitWorktrees (worktreeListText records)).map
      fun row => (row.path, row.branch, row.isDetached, row.isPrunable) := by
    rw [h.listed]
    exact List.mem_map_of_mem hrecord
  obtain ⟨row, hrow, hsame⟩ := List.mem_map.mp hfacts
  have hpath : row.path = record.path := congrArg Prod.fst hsame
  rw [← hpath]
  exact parseGitWorktrees_noFeed _ row hrow

/-- The parsers recover the records exactly if the paths are printed in one line, no branch
is in a directory `refs/heads`, nothing is prunable, and a branch has one path. -/
theorem parsersAgree_iff (root : String) (pushedByBranch : String → Option Bool)
    (records : List WorktreeRecord) :
    ParsersAgree root pushedByBranch records ↔ Readable records := by
  constructor
  · intro h
    have hfeed := h.noFeed
    have hfacts := h.listed
    rw [parseGitWorktrees_eq hfeed, List.map_map, List.map_inj_left] at hfacts
    have hrow (record : WorktreeRecord) (hrecord : record ∈ records) :=
      (facts_row_iff record).mp (hfacts record hrecord)
    refine ⟨fun record hrecord => ⟨hfeed record hrecord, (hrow record hrecord).1⟩,
      fun record hrecord => (hrow record hrecord).2.1,
      fun record hrecord => (hrow record hrecord).2.2, ?_⟩
    intro record hrecord other hother branch hbranch hbranch'
    have hfound := (h.picked branch _).mpr ⟨record, hrecord, hbranch, rfl⟩
    have hfound' := (h.picked branch _).mpr ⟨other, hother, hbranch', rfl⟩
    exact Option.some.inj (hfound.symm.trans hfound')
  · intro h
    have hfeed : ∀ record ∈ records, '\n' ∉ record.path.toList :=
      fun record hrecord => (h.paths record hrecord).1
    have hseen : records.map WorktreeRecord.seen = records :=
      (List.map_congr_left fun record hrecord => seen_eq (h.paths record hrecord).2).trans
        (List.map_id _)
    refine ⟨?_, fun branch path => ?_, ?_⟩
    · rw [parseGitWorktrees_eq hfeed, List.map_map, List.map_inj_left]
      intro record hrecord
      exact (facts_row_iff record).mpr
        ⟨(h.paths record hrecord).2, h.branches record hrecord, h.kept record hrecord⟩
    · rw [parseWorktreeBranchPaths_eq hfeed, hseen, lookup_addBranches, Finmap.lookup_empty,
        Option.or_none, Option.map_eq_some_iff]
      constructor
      · rintro ⟨record, hfound, rfl⟩
        refine ⟨record, List.mem_reverse.mp (List.mem_of_find?_eq_some hfound), ?_, rfl⟩
        have hbranch := List.find?_some hfound
        exact of_decide_eq_true hbranch
      · rintro ⟨record, hrecord, hbranch, rfl⟩
        cases hfind : records.reverse.find? fun record => record.head.branch? = some branch with
        | none =>
          have hnone := List.find?_eq_none.mp hfind record (List.mem_reverse.mpr hrecord)
          exact absurd (decide_eq_true hbranch) hnone
        | some found =>
          have hfound := List.mem_reverse.mp (List.mem_of_find?_eq_some hfind)
          have hbranch' := List.find?_some hfind
          exact ⟨found, rfl, h.distinct found hfound record hrecord branch
            (of_decide_eq_true hbranch') hbranch⟩
    · rw [cleanupWorktrees_eq hfeed, List.map_map, List.map_inj_left]
      intro record hrecord
      rw [Function.comp_apply, seen_eq (h.paths record hrecord).2]
      rfl

end Whole

def sampleOid : LineText := ⟨"5d41402abc4b2a76b9719d911017c592aabbccdd", by decide⟩

/-- A branch `refs/heads/x`, whose reference has the prefix twice, and a checkout of the
branch `main` that is gone. -/
def sampleWorktrees : List WorktreeRecord :=
  [⟨"/repo", .branch sampleOid ⟨"refs/heads/x", by decide⟩, none, none⟩,
    ⟨"/gone", .branch sampleOid ⟨"main", by decide⟩, none,
      some ⟨"gitdir file points to non-existent location", by decide⟩⟩]

/-- The list has another branch and a checkout that is not prunable. -/
theorem sampleWorktrees_disagree :
    (parseGitWorktrees (worktreeListText sampleWorktrees)).map
        (fun row => (row.path, row.branch, row.isPrunable)) =
      [("/repo", some "x", false), ("/gone", some "main", false)] ∧
    ¬ParsersAgree "/repo" (fun _ => none) sampleWorktrees := by
  have hfeed : ∀ record ∈ sampleWorktrees, '\n' ∉ record.path.toList := by decide
  refine ⟨?_, fun h => ?_⟩
  · rw [parseGitWorktrees_eq hfeed]
    decide +kernel
  · have hlisted := h.listed
    rw [parseGitWorktrees_eq hfeed] at hlisted
    exact absurd hlisted (by decide +kernel)

end HerdrWebui.Git
