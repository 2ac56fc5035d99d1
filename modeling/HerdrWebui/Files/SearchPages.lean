import HerdrWebui.Data.BreadthFirst
import HerdrWebui.Data.Paging
import HerdrWebui.Data.Utf8Lossy
import HerdrWebui.Files.PathSearch

/-!
The pages of the two searches in a tree of directories. Every page walks over the tree from the
start, with a queue of directories and a limit of entries. The path search ranks what it has found
and cuts the page out; the content search counts the files that match and ends with a full page.
-/

namespace HerdrWebui.Files

/-- The names on the way to a place, as the system has them. -/
abbrev OsPath := List (List UInt8)

structure EntryMetadata where
  isDir : Bool
  len : Nat
  modifiedMs : Option Nat

/-- An entry as it is read from a directory; its metadata may not be there. -/
structure RawEntry where
  fileName : List UInt8
  metadata : Option EntryMetadata

structure DirectoryEntry where
  sortName : String
  name : String
  path : OsPath
  metadata : EntryMetadata

/-- Directories first, then by the name without regard to case. -/
def entryBefore (a b : DirectoryEntry) : Bool :=
  a.metadata.isDir && !b.metadata.isDir ||
    a.metadata.isDir = b.metadata.isDir && a.sortName ≤ b.sortName

def relativeToRoot (root path : OsPath) : String :=
  match root.isPrefixOf? path with
  | none => ""
  | some value =>
    String.ofList ((fromUtf8Lossy ([0x2f].intercalate value)).toList.map fun c =>
      if c = '\\' then '/' else c)

def maxCollectedSearchMatches : Nat := 10000

def maxContentSearchVisits : Nat := 20000

section Search

variable (toLowercase : String → String) (readDir : OsPath → Except String (List RawEntry))
  (root : OsPath)

def sortedDirectoryEntries (dir : OsPath) : Except String (List DirectoryEntry) :=
  (readDir dir).map fun entries =>
    (entries.filterMap fun entry => entry.metadata.map fun metadata =>
      let name := fromUtf8Lossy entry.fileName
      ⟨toLowercase name, name, dir ++ [entry.fileName], metadata⟩).mergeSort entryBefore

/-- What the walk sees of a directory; one that cannot be read is skipped. -/
def readableEntries (dir : OsPath) : List DirectoryEntry :=
  match sortedDirectoryEntries toLowercase readDir dir with
  | .ok entries => entries
  | .error _ => []

/-- The walk so far. -/
structure SearchWalk where
  visited : Nat
  truncated : Bool
  candidates : List SearchCandidate

structure SearchPage where
  entries : List FileBrowserEntry
  truncated : Bool
  visited : Nat
  matched : Nat
  deriving DecidableEq

section Paths

variable (fzfRankMatches : String → Bool → List String → Option (List Nat)) (matcher : PathMatcher)
  (searchKind : Option String) (dir : OsPath) (maxVisits : Nat)

def entryKind (entry : DirectoryEntry) : String := if entry.metadata.isDir then "dir" else "file"

def accepts (found : DirectoryEntry × Nat) : Bool :=
  searchKind.all (· = entryKind found.1) &&
    matcher.matches toLowercase found.1.name (relativeToRoot root found.1.path)

def searchCandidate (found : DirectoryEntry × Nat) : SearchCandidate where
  entry :=
    { name := found.1.name
      path := relativeToRoot root found.1.path
      kind := entryKind found.1
      size := if found.1.metadata.isDir then none else some found.1.metadata.len
      modifiedMs := found.1.metadata.modifiedMs
      level := 0
      expanded := false }
  depth := found.2

/-- The walk ends at the entry that the limit is reached with, without a look at it. -/
def searchVisit (walk : SearchWalk) (found : DirectoryEntry × Nat) :
    Except SearchWalk SearchWalk :=
  if maxVisits ≤ walk.visited + 1 then
    .error { walk with visited := walk.visited + 1, truncated := true }
  else
    .ok { walk with
      visited := walk.visited + 1
      candidates :=
        if accepts toLowercase root matcher searchKind found &&
            walk.candidates.length < maxCollectedSearchMatches then
          walk.candidates ++ [searchCandidate root found]
        else walk.candidates }

def searchListing (node : OsPath × Nat) : List (DirectoryEntry × Nat) :=
  (readableEntries toLowercase readDir node.1).map fun entry => (entry, node.2)

def searchNode (found : DirectoryEntry × Nat) : Option (OsPath × Nat) :=
  if found.1.metadata.isDir then some (found.1.path, found.2 + 1) else none

def ended {σ : Type} : Except σ σ → σ
  | .ok s => s
  | .error s => s

/-- Each directory of the queue but the first is an entry that was visited. -/
def searchWalk : SearchWalk :=
  ended (walkQueue (searchListing toLowercase readDir) searchNode
    (searchVisit toLowercase root matcher searchKind maxVisits) (maxVisits + 1) [(dir, 0)]
    ⟨0, false, []⟩)

def pushSearchEntriesWithVisitLimit (offset limit : Nat) : Except String SearchPage :=
  if maxCollectedSearchMatches ≤ offset then .ok ⟨[], false, 0, 0⟩
  else
    match sortedDirectoryEntries toLowercase readDir dir with
    | .error err => .error err
    | .ok _ =>
      let walk := searchWalk toLowercase readDir root matcher searchKind dir maxVisits
      let matched := walk.candidates.length
      if matched = 0 then .ok ⟨[], walk.truncated, walk.visited, matched⟩
      else
        let ranked := rankSearchCandidates toLowercase fzfRankMatches matcher walk.candidates
        let page := ((ranked.drop offset).take limit).map (·.entry)
        .ok ⟨page, walk.truncated || offset + page.length < matched, walk.visited, matched⟩

end Paths

structure ContentSearchBuild where
  files : List ContentSearchFile
  totalFiles : Nat
  totalMatches : Nat
  visited : Nat
  truncated : Bool
  deriving DecidableEq

/-- A plain query is taken as it is only with regard to case. -/
def ContentMatcher.new (compile : String → Bool → Except String Regex) (escape : String → String)
    (query : String) (matchCase regex : Bool) : Except String ContentMatcher :=
  if hempty : query = "" then .error "empty query"
  else if regex || !matchCase then
    match compile (if regex then query else escape query) !matchCase with
    | .error err => .error ("invalid regex: " ++ err)
    | .ok compiled => .ok (.regex compiled)
  else .ok (.plain query hempty)

def shouldSkipContentDir (path : OsPath) : Bool :=
  [".git", "node_modules", "target", "dist", "build", ".venv", "venv"].any fun name =>
    path.getLast? = some name.toUTF8.data.toList

section Contents

variable (fileAt : OsPath → SearchedFile) (matcher : ContentMatcher) (qhash : String)
  (contextLines maxMatchesPerFile : Nat) (dir : OsPath)

def searchEntry (entry : DirectoryEntry) : Option (Except String (Option ContentSearchFile)) :=
  contentSearchFile { fileAt entry.path with rel := relativeToRoot root entry.path } matcher qhash
    contextLines maxMatchesPerFile

/-- The walk ends with no result at a panic. -/
def contentVisit (offset limit : Nat) (build : ContentSearchBuild) (entry : DirectoryEntry) :
    Except (Option ContentSearchBuild) ContentSearchBuild :=
  let build := { build with visited := build.visited + 1 }
  if maxContentSearchVisits ≤ build.visited then .error (some { build with truncated := true })
  else if entry.metadata.isDir then .ok build
  else
    match searchEntry root fileAt matcher qhash contextLines maxMatchesPerFile entry with
    | none => .error none
    | some (.error _) | some (.ok none) => .ok build
    | some (.ok (some result)) =>
      let build := { build with
        totalFiles := build.totalFiles + 1
        totalMatches := build.totalMatches + result.matchCount }
      let build :=
        if offset < build.totalFiles ∧ build.files.length < limit then
          { build with files := build.files ++ [result] }
        else build
      if limit ≤ build.files.length then .error (some { build with truncated := true })
      else .ok build

def contentNode (entry : DirectoryEntry) : Option OsPath :=
  if entry.metadata.isDir && !shouldSkipContentDir entry.path then some entry.path else none

/-- A walk that was ended with or without a panic, or not. -/
def outcome {σ : Type} : Except (Option σ) σ → Option σ
  | .ok s => some s
  | .error result => result

/-- `none` is a panic. -/
def collectContentSearch (matcher : Except String ContentMatcher) (offset limit : Nat) :
    Option (Except String ContentSearchBuild) :=
  match matcher with
  | .error err => some (.error err)
  | .ok matcher =>
    match sortedDirectoryEntries toLowercase readDir dir with
    | .error err => some (.error err)
    | .ok _ =>
      (outcome (walkQueue (readableEntries toLowercase readDir) contentNode
        (contentVisit root fileAt matcher qhash contextLines maxMatchesPerFile offset limit)
        (maxContentSearchVisits + 1) [dir] ⟨[], 0, 0, 0, false⟩)).map .ok

end Contents

section PathPages

variable (fzfRankMatches : String → Bool → List String → Option (List Nat)) (matcher : PathMatcher)
  (searchKind : Option String) (dir : OsPath) (maxVisits limit : Nat)

def pathPage (offset : Nat) : Option (List FileBrowserEntry × Bool) :=
  match pushSearchEntriesWithVisitLimit toLowercase readDir root fzfRankMatches matcher searchKind
      dir maxVisits offset limit with
  | .ok page => some (page.entries, page.truncated)
  | .error _ => none

/-- The entries of the tree, level by level. -/
def searchEntries : List (DirectoryEntry × Nat) :=
  HerdrWebui.levels (searchListing toLowercase readDir) searchNode maxVisits [(dir, 0)]

def acceptedCandidates (entries : List (DirectoryEntry × Nat)) : List SearchCandidate :=
  (entries.filter (accepts toLowercase root matcher searchKind)).map (searchCandidate root)

/-- The matches that are collected: the first ones, in front of the limit of entries. -/
def collectedMatches : List SearchCandidate :=
  (acceptedCandidates toLowercase root matcher searchKind
    ((searchEntries toLowercase readDir dir maxVisits).take (maxVisits - 1))).take
      maxCollectedSearchMatches

def rankedMatches : List FileBrowserEntry :=
  (rankSearchCandidates toLowercase fzfRankMatches matcher
    (collectedMatches toLowercase readDir root matcher searchKind dir maxVisits)).map (·.entry)

theorem acceptedCandidates_cons (found : DirectoryEntry × Nat)
    (entries : List (DirectoryEntry × Nat)) :
    acceptedCandidates toLowercase root matcher searchKind (found :: entries) =
      (if accepts toLowercase root matcher searchKind found then [searchCandidate root found]
        else []) ++ acceptedCandidates toLowercase root matcher searchKind entries := by
  unfold acceptedCandidates
  by_cases h : accepts toLowercase root matcher searchKind found
  · simp [h]
  · simp [h]

theorem ended_searchVisit (items : List (DirectoryEntry × Nat)) (walk : SearchWalk)
    (hlt : walk.visited < maxVisits)
    (hcap : walk.candidates.length ≤ maxCollectedSearchMatches) :
    (ended (items.foldlM (searchVisit toLowercase root matcher searchKind maxVisits)
        walk)).candidates =
      (walk.candidates ++ acceptedCandidates toLowercase root matcher searchKind
        (items.take (maxVisits - 1 - walk.visited))).take maxCollectedSearchMatches ∧
    (ended (items.foldlM (searchVisit toLowercase root matcher searchKind maxVisits)
        walk)).truncated = (walk.truncated || maxVisits ≤ walk.visited + items.length) := by
  induction items generalizing walk with
  | nil =>
    refine ⟨?_, ?_⟩
    · simpa [ended, acceptedCandidates, pure, Except.pure] using hcap
    · have hreached : ¬maxVisits ≤ walk.visited := by omega
      simp [ended, pure, Except.pure, hreached]
  | cons found items ih =>
    rw [List.foldlM_cons, searchVisit, List.length_cons]
    by_cases hlast : maxVisits ≤ walk.visited + 1
    · have hleft : maxVisits - 1 - walk.visited = 0 := by omega
      have hreached : maxVisits ≤ walk.visited + (items.length + 1) := by omega
      rw [if_pos hlast, hleft]
      refine ⟨?_, ?_⟩
      · simpa [ended, acceptedCandidates, bind, Except.bind] using hcap
      · simp [ended, bind, Except.bind, hreached]
    · obtain ⟨left, hleft⟩ := Nat.exists_eq_add_of_lt (Nat.not_le.mp hlast)
      have htake : maxVisits - 1 - walk.visited = left + 1 := by omega
      have htake' : maxVisits - 1 - (walk.visited + 1) = left := by omega
      rw [if_neg hlast, htake, List.take_succ_cons, acceptedCandidates_cons]
      simp only [bind, Except.bind]
      by_cases haccepts : accepts toLowercase root matcher searchKind found
      · by_cases hroom : walk.candidates.length < maxCollectedSearchMatches
        · have hnext := ih ⟨walk.visited + 1, walk.truncated,
            walk.candidates ++ [searchCandidate root found]⟩ (by simp; omega) (by simp; omega)
          simp only [htake', List.append_assoc] at hnext
          simp only [haccepts, hroom, decide_true, Bool.and_true, if_true]
          rw [hnext.1, hnext.2, Nat.add_right_comm, Nat.add_assoc]
          exact ⟨rfl, rfl⟩
        · have hnext := ih ⟨walk.visited + 1, walk.truncated, walk.candidates⟩
            (by simp; omega) hcap
          simp only [htake'] at hnext
          simp only [haccepts, hroom, decide_false, Bool.and_false, Bool.false_eq_true, if_false]
          rw [hnext.1, hnext.2, Nat.add_right_comm, Nat.add_assoc]
          refine ⟨?_, rfl⟩
          have hfull : maxCollectedSearchMatches ≤ walk.candidates.length := by omega
          rw [List.take_append_of_le_length hfull, List.take_append_of_le_length hfull]
      · have hnext := ih ⟨walk.visited + 1, walk.truncated, walk.candidates⟩
          (by simp; omega) hcap
        simp only [htake'] at hnext
        simp only [haccepts, Bool.false_and, Bool.false_eq_true, if_false, List.nil_append]
        rw [hnext.1, hnext.2, Nat.add_right_comm, Nat.add_assoc]
        exact ⟨rfl, rfl⟩

theorem searchVisit_limit (walk : SearchWalk) (found : DirectoryEntry × Nat)
    (h : maxVisits ≤ walk.visited + 1) :
    ∃ result, searchVisit toLowercase root matcher searchKind maxVisits walk found =
      .error result := by
  rw [searchVisit, if_pos h]
  exact ⟨_, rfl⟩

theorem searchVisit_visited (walk : SearchWalk) (found : DirectoryEntry × Nat) (walk' : SearchWalk)
    (h : searchVisit toLowercase root matcher searchKind maxVisits walk found = .ok walk') :
    walk'.visited = walk.visited + 1 := by
  rw [searchVisit] at h
  split at h
  · cases h
  · cases h
    rfl

theorem searchWalk_spec (hvisits : 0 < maxVisits) :
    (searchWalk toLowercase readDir root matcher searchKind dir maxVisits).candidates =
      collectedMatches toLowercase readDir root matcher searchKind dir maxVisits ∧
    (searchWalk toLowercase readDir root matcher searchKind dir maxVisits).truncated =
      decide (maxVisits ≤ (searchEntries toLowercase readDir dir maxVisits).length) := by
  have hwalk := walkQueue_levels (searchVisit toLowercase root matcher searchKind maxVisits)
    (·.visited) maxVisits (searchListing toLowercase readDir) searchNode
    (searchVisit_limit toLowercase root matcher searchKind maxVisits)
    (searchVisit_visited toLowercase root matcher searchKind maxVisits) [(dir, 0)]
    ⟨0, false, []⟩ hvisits rfl
  rw [List.length_singleton] at hwalk
  rw [searchWalk, hwalk]
  obtain ⟨hcandidates, htruncated⟩ := ended_searchVisit toLowercase root matcher searchKind
    maxVisits ((HerdrWebui.levels (searchListing toLowercase readDir) searchNode maxVisits
      [(dir, 0)]).take maxVisits) ⟨0, false, []⟩ hvisits (Nat.zero_le _)
  refine ⟨hcandidates.trans ?_, htruncated.trans ?_⟩
  · rw [List.take_take, Nat.min_eq_left (by omega)]
    rfl
  · rw [Bool.false_or, Nat.zero_add, List.length_take, searchEntries]
    apply decide_eq_decide.mpr
    omega

theorem length_rankedMatches :
    (rankedMatches toLowercase readDir root fzfRankMatches matcher searchKind dir
        maxVisits).length =
      (collectedMatches toLowercase readDir root matcher searchKind dir maxVisits).length := by
  rw [rankedMatches, List.length_map, (rankSearchCandidates_perm _ _ _ _).length_eq]

theorem length_collectedMatches_le :
    (collectedMatches toLowercase readDir root matcher searchKind dir maxVisits).length ≤
      maxCollectedSearchMatches :=
  List.length_take_le _ _

/-- A page is a slice of the ranked matches, unless the directory cannot be read. -/
theorem pathPage_eq (hvisits : 0 < maxVisits) {entries : List DirectoryEntry}
    (hread : sortedDirectoryEntries toLowercase readDir dir = .ok entries) (offset : Nat) :
    pathPage toLowercase readDir root fzfRankMatches matcher searchKind dir maxVisits limit offset =
      some (((rankedMatches toLowercase readDir root fzfRankMatches matcher searchKind dir
          maxVisits).drop offset).take limit,
        decide (offset < maxCollectedSearchMatches) &&
          (decide (maxVisits ≤ (searchEntries toLowercase readDir dir maxVisits).length) ||
            decide (offset + limit < (rankedMatches toLowercase readDir root fzfRankMatches matcher
              searchKind dir maxVisits).length))) := by
  obtain ⟨hcandidates, htruncated⟩ :=
    searchWalk_spec toLowercase readDir root matcher searchKind dir maxVisits hvisits
  have hlength := length_rankedMatches toLowercase readDir root fzfRankMatches matcher searchKind
    dir maxVisits
  have hcap := length_collectedMatches_le toLowercase readDir root matcher searchKind dir maxVisits
  unfold pathPage pushSearchEntriesWithVisitLimit
  by_cases hoffset : maxCollectedSearchMatches ≤ offset
  · have hbehind : ¬offset < maxCollectedSearchMatches := by omega
    rw [if_pos hoffset, List.drop_of_length_le (by omega)]
    simp [hbehind]
  · have hbefore : offset < maxCollectedSearchMatches := by omega
    simp only [if_neg hoffset, hread, hcandidates, htruncated, hbefore, decide_true, Bool.true_and,
      hlength]
    by_cases hnone : (collectedMatches toLowercase readDir root matcher searchKind dir
        maxVisits).length = 0
    · have hranked := List.eq_nil_of_length_eq_zero (hlength.trans hnone)
      simp [hnone, hranked]
    · have hpage (ranked : List SearchCandidate) :
          ((ranked.drop offset).take limit).map (·.entry) =
            ((ranked.map (·.entry)).drop offset).take limit := by
        rw [List.map_take, List.map_drop]
      simp only [if_neg hnone, hpage]
      rw [← rankedMatches, List.length_take, List.length_drop, hlength]
      congr 3
      apply decide_eq_decide.mpr
      omega

theorem pathPage_tile (hlimit : 0 < limit) (hvisits : 0 < maxVisits)
    {entries : List DirectoryEntry}
    (hread : sortedDirectoryEntries toLowercase readDir dir = .ok entries)
    (hwhole : (searchEntries toLowercase readDir dir maxVisits).length < maxVisits) :
    PagesTile
      (pathPage toLowercase readDir root fzfRankMatches matcher searchKind dir maxVisits limit)
      limit
      (rankedMatches toLowercase readDir root fzfRankMatches matcher searchKind dir maxVisits) := by
  have hlength := length_rankedMatches toLowercase readDir root fzfRankMatches matcher searchKind
    dir maxVisits
  have hcap := length_collectedMatches_le toLowercase readDir root matcher searchKind dir maxVisits
  apply pagesTile_of_slices hlimit
  intro offset
  rw [pathPage_eq toLowercase readDir root fzfRankMatches matcher searchKind dir maxVisits limit
    hvisits hread, decide_eq_false (Nat.not_le.mpr hwhole), Bool.false_or]
  congr 2
  rw [← Bool.decide_and]
  apply decide_eq_decide.mpr
  omega

theorem pathPage_error {err : String}
    (hread : sortedDirectoryEntries toLowercase readDir dir = .error err) (offset : Nat) :
    pathPage toLowercase readDir root fzfRankMatches matcher searchKind dir maxVisits limit offset =
      if maxCollectedSearchMatches ≤ offset then some ([], false) else none := by
  unfold pathPage pushSearchEntriesWithVisitLimit
  by_cases hoffset : maxCollectedSearchMatches ≤ offset
  · simp [hoffset]
  · simp [hoffset, hread]

/-- Whether the walk was ended or not, a page that reports no more reaches the end. -/
theorem pathPage_serves (hvisits : 0 < maxVisits) :
    ServesSlices
      (pathPage toLowercase readDir root fzfRankMatches matcher searchKind dir maxVisits limit)
      (fun answer => !answer.2) limit
      (rankedMatches toLowercase readDir root fzfRankMatches matcher searchKind dir maxVisits) := by
  have hlength := length_rankedMatches toLowercase readDir root fzfRankMatches matcher searchKind
    dir maxVisits
  have hcap := length_collectedMatches_le toLowercase readDir root matcher searchKind dir maxVisits
  cases hread : sortedDirectoryEntries toLowercase readDir dir with
  | error err =>
    have hpage := pathPage_error toLowercase readDir root fzfRankMatches matcher searchKind dir
      maxVisits limit hread
    constructor
    · intro offset answer hanswer
      rw [hpage] at hanswer
      split at hanswer
      · cases hanswer
        rw [List.drop_of_length_le (by omega), List.take_nil]
      · cases hanswer
    · intro offset answer hanswer _
      rw [hpage] at hanswer
      split at hanswer
      · omega
      · cases hanswer
  | ok entries =>
    have hpage := pathPage_eq toLowercase readDir root fzfRankMatches matcher searchKind dir
      maxVisits limit hvisits hread
    constructor
    · intro offset answer hanswer
      rw [hpage] at hanswer
      cases hanswer
      rfl
    · intro offset answer hanswer hlast
      rw [hpage] at hanswer
      cases hanswer
      simp only [Bool.not_eq_true', Bool.and_eq_false_iff, Bool.or_eq_false_iff,
        decide_eq_false_iff_not] at hlast
      omega

theorem pathPage_ends (hlimit : 0 < limit) (hvisits : 0 < maxVisits)
    {entries : List DirectoryEntry}
    (hread : sortedDirectoryEntries toLowercase readDir dir = .ok entries) :
    ∃ fuel, (pagesFrom
      (pathPage toLowercase readDir root fzfRankMatches matcher searchKind dir maxVisits limit)
      (fun answer => !answer.2) limit fuel 0).isSome := by
  have hpage := pathPage_eq toLowercase readDir root fzfRankMatches matcher searchKind dir
    maxVisits limit hvisits hread
  have hanswered (offset : Nat) : (pathPage toLowercase readDir root fzfRankMatches matcher
      searchKind dir maxVisits limit offset).isSome := by simp [hpage]
  have hlast {offset : Nat} {answer : List FileBrowserEntry × Bool}
      (hle : maxCollectedSearchMatches ≤ offset)
      (hanswer : pathPage toLowercase readDir root fzfRankMatches matcher searchKind dir maxVisits
        limit offset = some answer) : (fun answer => !answer.2) answer = true := by
    rw [hpage, decide_eq_false (Nat.not_lt.mpr hle)] at hanswer
    cases hanswer
    rfl
  have hfuel : maxCollectedSearchMatches ≤ 0 + maxCollectedSearchMatches := by omega
  exact ⟨_, pagesFrom_isSome hlimit hanswered hlast hfuel⟩

end PathPages

section ContentPages

variable (fileAt : OsPath → SearchedFile) (matcher : ContentMatcher) (qhash : String)
  (contextLines maxMatchesPerFile : Nat) (dir : OsPath) (offset limit : Nat)

def contentPage (offset : Nat) : Option (List ContentSearchFile × Bool) :=
  match collectContentSearch toLowercase readDir root fileAt qhash contextLines maxMatchesPerFile
      dir (.ok matcher) offset limit with
  | some (.ok build) => some (build.files, build.truncated)
  | _ => none

/-- The search in the file of an entry panics. -/
def Panics (entry : DirectoryEntry) : Prop :=
  entry.metadata.isDir = false ∧
    searchEntry root fileAt matcher qhash contextLines maxMatchesPerFile entry = none

def foundFile (entry : DirectoryEntry) : Option ContentSearchFile :=
  if entry.metadata.isDir then none
  else
    match searchEntry root fileAt matcher qhash contextLines maxMatchesPerFile entry with
    | some (.ok (some result)) => some result
    | _ => none

/-- The entries of the tree, level by level, without the directories that are skipped. -/
def contentEntries : List DirectoryEntry :=
  HerdrWebui.levels (readableEntries toLowercase readDir) contentNode maxContentSearchVisits [dir]

/-- The files that match, in front of the limit of entries. -/
def foundFiles : List ContentSearchFile :=
  ((contentEntries toLowercase readDir dir).take (maxContentSearchVisits - 1)).filterMap
    (foundFile root fileAt matcher qhash contextLines maxMatchesPerFile)

theorem contentVisit_cases (build : ContentSearchBuild) (entry : DirectoryEntry)
    (hlt : build.visited + 1 < maxContentSearchVisits) :
    (Panics root fileAt matcher qhash contextLines maxMatchesPerFile entry ∧
      contentVisit root fileAt matcher qhash contextLines maxMatchesPerFile offset limit build
        entry = .error none) ∨
    (foundFile root fileAt matcher qhash contextLines maxMatchesPerFile entry = none ∧
      contentVisit root fileAt matcher qhash contextLines maxMatchesPerFile offset limit build
        entry = .ok { build with visited := build.visited + 1 }) ∨
    ∃ result build',
      foundFile root fileAt matcher qhash contextLines maxMatchesPerFile entry = some result ∧
      build'.files = (if offset < build.totalFiles + 1 ∧ build.files.length < limit then
        build.files ++ [result] else build.files) ∧
      build'.totalFiles = build.totalFiles + 1 ∧ build'.visited = build.visited + 1 ∧
      build'.truncated = build.truncated ∧
      contentVisit root fileAt matcher qhash contextLines maxMatchesPerFile offset limit build
        entry = if limit ≤ build'.files.length then .error (some { build' with truncated := true })
          else .ok build' := by
  have hlimit : ¬maxContentSearchVisits ≤ build.visited + 1 := by omega
  unfold contentVisit foundFile Panics
  simp only [if_neg hlimit]
  cases hdir : entry.metadata.isDir with
  | true =>
    right
    left
    exact ⟨rfl, rfl⟩
  | false =>
    simp only [Bool.false_eq_true, if_false]
    rcases searchEntry root fileAt matcher qhash contextLines maxMatchesPerFile entry with
      _ | err | _ | result
    · exact .inl ⟨⟨trivial, rfl⟩, rfl⟩
    · exact .inr (.inl ⟨rfl, rfl⟩)
    · exact .inr (.inl ⟨rfl, rfl⟩)
    · right
      right
      by_cases hpush : offset < build.totalFiles + 1 ∧ build.files.length < limit
      · refine ⟨result, { build with
          visited := build.visited + 1
          totalFiles := build.totalFiles + 1
          totalMatches := build.totalMatches + result.matchCount
          files := build.files ++ [result] }, rfl, ?_, rfl, rfl, rfl, ?_⟩
        · simp only [if_pos hpush]
        · simp only [if_pos hpush]
      · refine ⟨result, { build with
          visited := build.visited + 1
          totalFiles := build.totalFiles + 1
          totalMatches := build.totalMatches + result.matchCount }, rfl, ?_, rfl, rfl, rfl, ?_⟩
        · simp only [if_neg hpush]
        · simp only [if_neg hpush]

theorem contentVisit_limit (build : ContentSearchBuild) (entry : DirectoryEntry)
    (h : maxContentSearchVisits ≤ build.visited + 1) :
    contentVisit root fileAt matcher qhash contextLines maxMatchesPerFile offset limit build entry =
      .error (some { build with visited := build.visited + 1, truncated := true }) := by
  unfold contentVisit
  exact if_pos h

theorem contentVisit_visited (build : ContentSearchBuild) (entry : DirectoryEntry)
    (build' : ContentSearchBuild)
    (h : contentVisit root fileAt matcher qhash contextLines maxMatchesPerFile offset limit build
      entry = .ok build') : build'.visited = build.visited + 1 := by
  by_cases hlast : maxContentSearchVisits ≤ build.visited + 1
  · rw [contentVisit_limit root fileAt matcher qhash contextLines maxMatchesPerFile offset limit
      build entry hlast] at h
    cases h
  · rcases contentVisit_cases root fileAt matcher qhash contextLines maxMatchesPerFile offset limit
      build entry (Nat.not_le.mp hlast) with ⟨_, hvisit⟩ | ⟨_, hvisit⟩ |
        ⟨result, next, _, _, _, hvisited, _, hvisit⟩
    · rw [hvisit] at h
      cases h
    · rw [hvisit] at h
      cases h
      rfl
    · rw [hvisit] at h
      split at h
      · cases h
      · cases h
        exact hvisited

/-- A walk from some state on: the files it adds are those behind the offset, up to the limit. It
ends early with a full page, at the limit of entries or at a panic. -/
theorem outcome_contentVisit (items : List DirectoryEntry) (build : ContentSearchBuild)
    (hvisited : build.visited < maxContentSearchVisits) (hfiles : build.files.length < limit)
    (htruncated : build.truncated = false) :
    (∀ found, outcome (items.foldlM (contentVisit root fileAt matcher qhash contextLines
        maxMatchesPerFile offset limit) build) = some found →
      found.files = (build.files ++ ((items.take (maxContentSearchVisits - 1 -
        build.visited)).filterMap (foundFile root fileAt matcher qhash contextLines
          maxMatchesPerFile)).drop (offset - build.totalFiles)).take limit ∧
      (found.truncated = true ↔ limit ≤ found.files.length ∨
        maxContentSearchVisits ≤ build.visited + items.length)) ∧
    (outcome (items.foldlM (contentVisit root fileAt matcher qhash contextLines maxMatchesPerFile
        offset limit) build) = none →
      ∃ entry ∈ items.take (maxContentSearchVisits - 1 - build.visited),
        Panics root fileAt matcher qhash contextLines maxMatchesPerFile entry) := by
  induction items generalizing build with
  | nil =>
    refine ⟨fun found hfound => ?_, fun hnone => by cases hnone⟩
    cases hfound
    have hreached : ¬maxContentSearchVisits ≤ build.visited := by omega
    have hroom : ¬limit ≤ build.files.length := by omega
    simp [List.take_of_length_le hfiles.le, htruncated, hreached, hroom]
  | cons entry items ih =>
    rw [List.foldlM_cons]
    by_cases hlast : maxContentSearchVisits ≤ build.visited + 1
    · have hleft : maxContentSearchVisits - 1 - build.visited = 0 := by omega
      rw [contentVisit_limit root fileAt matcher qhash contextLines maxMatchesPerFile offset limit
        build entry hlast, hleft]
      refine ⟨fun found hfound => ?_, fun hnone => by cases hnone⟩
      cases hfound
      have hreached : maxContentSearchVisits ≤ build.visited + (items.length + 1) := by omega
      simp [List.take_of_length_le hfiles.le, hreached]
    · obtain ⟨left, hleft⟩ := Nat.exists_eq_add_of_lt (Nat.not_le.mp hlast)
      have htake : maxContentSearchVisits - 1 - build.visited = left + 1 := by omega
      have htake' : maxContentSearchVisits - 1 - (build.visited + 1) = left := by omega
      have hlength : build.visited + (entry :: items).length =
          build.visited + 1 + items.length := by
        rw [List.length_cons]
        omega
      rw [htake, List.take_succ_cons, hlength]
      rcases contentVisit_cases root fileAt matcher qhash contextLines maxMatchesPerFile offset
        limit build entry (Nat.not_le.mp hlast) with ⟨hpanics, hvisit⟩ | ⟨hnone, hvisit⟩ |
          ⟨result, next, hresult, hnext, htotal, hcount, hflag, hvisit⟩
      · rw [hvisit]
        refine ⟨?_, fun _ => ⟨entry, List.mem_cons_self, hpanics⟩⟩
        intro found hfound
        cases hfound
      · rw [hvisit, List.filterMap_cons_none hnone]
        obtain ⟨hsome, hpanics⟩ := ih { build with visited := build.visited + 1 }
          (Nat.not_le.mp hlast) hfiles htruncated
        rw [htake'] at hsome hpanics
        refine ⟨hsome, fun hend => ?_⟩
        obtain ⟨panicking, hmem, hpanic⟩ := hpanics hend
        exact ⟨panicking, List.mem_cons_of_mem entry hmem, hpanic⟩
      · rw [hvisit, List.filterMap_cons_some hresult]
        have hadded (rest : List ContentSearchFile) : build.files ++
            (result :: rest).drop (offset - build.totalFiles) =
              next.files ++ rest.drop (offset - next.totalFiles) := by
          rw [hnext, htotal]
          by_cases hpush : offset < build.totalFiles + 1
          · have hnow : offset - build.totalFiles = 0 := by omega
            have hthen : offset - (build.totalFiles + 1) = 0 := by omega
            rw [if_pos ⟨hpush, hfiles⟩, hnow, hthen, List.append_assoc]
            rfl
          · have hnow : offset - build.totalFiles = offset - (build.totalFiles + 1) + 1 := by
              omega
            rw [if_neg fun h => hpush h.1, hnow, List.drop_succ_cons]
        rw [hadded]
        by_cases hfull : limit ≤ next.files.length
        · rw [if_pos hfull]
          refine ⟨fun found hfound => ?_, fun hnone => by cases hnone⟩
          cases hfound
          have hgrown : next.files.length ≤ build.files.length + 1 := by
            rw [hnext]
            split
            · rw [List.length_append, List.length_singleton]
            · omega
          rw [List.take_append_of_le_length hfull, List.take_of_length_le (by omega)]
          simp [hfull]
        · rw [if_neg hfull]
          obtain ⟨hsome, hpanics⟩ := ih next (by omega) (Nat.not_le.mp hfull)
            (hflag.trans htruncated)
          rw [hcount, htake'] at hsome hpanics
          refine ⟨hsome, fun hend => ?_⟩
          obtain ⟨panicking, hmem, hpanic⟩ := hpanics hend
          exact ⟨panicking, List.mem_cons_of_mem entry hmem, hpanic⟩

theorem contentPage_eq {entries : List DirectoryEntry}
    (hread : sortedDirectoryEntries toLowercase readDir dir = .ok entries) :
    contentPage toLowercase readDir root fileAt matcher qhash contextLines maxMatchesPerFile dir
        limit offset =
      (outcome (((contentEntries toLowercase readDir dir).take maxContentSearchVisits).foldlM
        (contentVisit root fileAt matcher qhash contextLines maxMatchesPerFile offset limit)
        ⟨[], 0, 0, 0, false⟩)).map fun build => (build.files, build.truncated) := by
  have hvisits : 0 < maxContentSearchVisits := by
    unfold maxContentSearchVisits
    omega
  have hwalk := walkQueue_levels
    (contentVisit root fileAt matcher qhash contextLines maxMatchesPerFile offset limit)
    (·.visited) maxContentSearchVisits (readableEntries toLowercase readDir) contentNode
    (fun build entry hlast => ⟨_, contentVisit_limit root fileAt matcher qhash contextLines
      maxMatchesPerFile offset limit build entry hlast⟩)
    (contentVisit_visited root fileAt matcher qhash contextLines maxMatchesPerFile offset limit)
    [dir] ⟨[], 0, 0, 0, false⟩ hvisits rfl
  rw [List.length_singleton, ← contentEntries] at hwalk
  simp only [contentPage, collectContentSearch, hread, hwalk]
  cases outcome (((contentEntries toLowercase readDir dir).take maxContentSearchVisits).foldlM
    (contentVisit root fileAt matcher qhash contextLines maxMatchesPerFile offset limit)
    ⟨[], 0, 0, 0, false⟩) <;> rfl

theorem contentPage_error {err : String}
    (hread : sortedDirectoryEntries toLowercase readDir dir = .error err) :
    contentPage toLowercase readDir root fileAt matcher qhash contextLines maxMatchesPerFile dir
      limit offset = none := by
  simp [contentPage, collectContentSearch, hread]

theorem contentWalk_spec (hlimit : 0 < limit) :
    (∀ found, outcome (((contentEntries toLowercase readDir dir).take
        maxContentSearchVisits).foldlM (contentVisit root fileAt matcher qhash contextLines
          maxMatchesPerFile offset limit) ⟨[], 0, 0, 0, false⟩) = some found →
      found.files = ((foundFiles toLowercase readDir root fileAt matcher qhash contextLines
        maxMatchesPerFile dir).drop offset).take limit ∧
      (found.truncated = true ↔ limit ≤ found.files.length ∨
        maxContentSearchVisits ≤ (contentEntries toLowercase readDir dir).length)) ∧
    (outcome (((contentEntries toLowercase readDir dir).take maxContentSearchVisits).foldlM
        (contentVisit root fileAt matcher qhash contextLines maxMatchesPerFile offset limit)
        ⟨[], 0, 0, 0, false⟩) = none →
      ∃ entry ∈ (contentEntries toLowercase readDir dir).take (maxContentSearchVisits - 1),
        Panics root fileAt matcher qhash contextLines maxMatchesPerFile entry) := by
  have hvisits : 0 < maxContentSearchVisits := by
    unfold maxContentSearchVisits
    omega
  have hspec := outcome_contentVisit root fileAt matcher qhash contextLines maxMatchesPerFile offset
    limit ((contentEntries toLowercase readDir dir).take maxContentSearchVisits)
    ⟨[], 0, 0, 0, false⟩ hvisits hlimit rfl
  have hreached : maxContentSearchVisits ≤
      0 + ((contentEntries toLowercase readDir dir).take maxContentSearchVisits).length ↔
        maxContentSearchVisits ≤ (contentEntries toLowercase readDir dir).length := by
    rw [List.length_take]
    omega
  rw [List.take_take, Nat.sub_zero, Nat.min_eq_left (by omega), Nat.sub_zero, List.nil_append,
    hreached] at hspec
  exact hspec

/-- A page is a slice of the files that match. It is said to be cut off if it is full, or the limit
of entries is reached. -/
theorem contentPage_slice (hlimit : 0 < limit) {answer : List ContentSearchFile × Bool}
    (hpage : contentPage toLowercase readDir root fileAt matcher qhash contextLines
      maxMatchesPerFile dir limit offset = some answer) :
    answer.1 = ((foundFiles toLowercase readDir root fileAt matcher qhash contextLines
      maxMatchesPerFile dir).drop offset).take limit ∧
    (answer.2 = true ↔ limit ≤ answer.1.length ∨
      maxContentSearchVisits ≤ (contentEntries toLowercase readDir dir).length) := by
  cases hread : sortedDirectoryEntries toLowercase readDir dir with
  | error err =>
    rw [contentPage_error toLowercase readDir root fileAt matcher qhash contextLines
      maxMatchesPerFile dir offset limit hread] at hpage
    cases hpage
  | ok entries =>
    rw [contentPage_eq toLowercase readDir root fileAt matcher qhash contextLines
      maxMatchesPerFile dir offset limit hread] at hpage
    obtain ⟨found, hfound, rfl⟩ := Option.map_eq_some_iff.mp hpage
    exact (contentWalk_spec toLowercase readDir root fileAt matcher qhash contextLines
      maxMatchesPerFile dir offset limit hlimit).1 found hfound

theorem contentPage_isSome (hlimit : 0 < limit) {entries : List DirectoryEntry}
    (hread : sortedDirectoryEntries toLowercase readDir dir = .ok entries)
    (hcalm : ∀ entry ∈ (contentEntries toLowercase readDir dir).take (maxContentSearchVisits - 1),
      ¬Panics root fileAt matcher qhash contextLines maxMatchesPerFile entry) :
    (contentPage toLowercase readDir root fileAt matcher qhash contextLines maxMatchesPerFile dir
      limit offset).isSome := by
  rw [contentPage_eq toLowercase readDir root fileAt matcher qhash contextLines maxMatchesPerFile
    dir offset limit hread, Option.isSome_map, Option.isSome_iff_ne_none]
  intro hnone
  obtain ⟨entry, hmem, hpanics⟩ := (contentWalk_spec toLowercase readDir root fileAt matcher qhash
    contextLines maxMatchesPerFile dir offset limit hlimit).2 hnone
  exact hcalm entry hmem hpanics

/-- Only a page that reaches the end has nothing, or says that it is not cut off. -/
theorem contentPage_serves (hlimit : 0 < limit) :
    ServesSlices
      (contentPage toLowercase readDir root fileAt matcher qhash contextLines maxMatchesPerFile dir
        limit)
      (fun answer => answer.1.isEmpty || !answer.2) limit
      (foundFiles toLowercase readDir root fileAt matcher qhash contextLines maxMatchesPerFile
        dir) := by
  constructor
  · intro offset answer hanswer
    exact (contentPage_slice toLowercase readDir root fileAt matcher qhash contextLines
      maxMatchesPerFile dir offset limit hlimit hanswer).1
  · intro offset answer hanswer hlast
    obtain ⟨hitems, hflag⟩ := contentPage_slice toLowercase readDir root fileAt matcher qhash
      contextLines maxMatchesPerFile dir offset limit hlimit hanswer
    rcases Bool.or_eq_true_iff.mp hlast with hempty | hmore
    · have hnot := mt (slice_ne_nil_iff hlimit offset).mpr
        (not_not.mpr (hitems.symm.trans (List.isEmpty_iff.mp hempty)))
      omega
    · have hshort : ¬limit ≤ answer.1.length := by
        intro hfull
        rw [hflag.mpr (.inl hfull)] at hmore
        cases hmore
      rw [hitems, List.length_take, List.length_drop] at hshort
      omega

theorem contentPage_ends (hlimit : 0 < limit) {entries : List DirectoryEntry}
    (hread : sortedDirectoryEntries toLowercase readDir dir = .ok entries)
    (hcalm : ∀ entry ∈ (contentEntries toLowercase readDir dir).take (maxContentSearchVisits - 1),
      ¬Panics root fileAt matcher qhash contextLines maxMatchesPerFile entry) :
    ∃ fuel, (pagesFrom
      (contentPage toLowercase readDir root fileAt matcher qhash contextLines maxMatchesPerFile dir
        limit)
      (fun answer => answer.1.isEmpty || !answer.2) limit fuel 0).isSome := by
  have hanswered (offset : Nat) := contentPage_isSome toLowercase readDir root fileAt matcher qhash
    contextLines maxMatchesPerFile dir offset limit hlimit hread hcalm
  have hlast {offset : Nat} {answer : List ContentSearchFile × Bool}
      (hle : (foundFiles toLowercase readDir root fileAt matcher qhash contextLines
        maxMatchesPerFile dir).length ≤ offset)
      (hanswer : contentPage toLowercase readDir root fileAt matcher qhash contextLines
        maxMatchesPerFile dir limit offset = some answer) :
      (fun answer : List ContentSearchFile × Bool => answer.1.isEmpty || !answer.2) answer =
        true := by
    obtain ⟨hitems, _⟩ := contentPage_slice toLowercase readDir root fileAt matcher qhash
      contextLines maxMatchesPerFile dir offset limit hlimit hanswer
    rw [List.drop_of_length_le hle, List.take_nil] at hitems
    simp [hitems]
  exact ⟨_, pagesFrom_isSome hlimit hanswered hlast (Nat.le_add_left _ _)⟩

theorem contentPage_later (hlimit : 0 < limit) {answer : List ContentSearchFile × Bool}
    (hpage : contentPage toLowercase readDir root fileAt matcher qhash contextLines
      maxMatchesPerFile dir limit offset = some answer)
    (hlater : ∃ k later, 0 < k ∧ contentPage toLowercase readDir root fileAt matcher qhash
      contextLines maxMatchesPerFile dir limit (offset + k * limit) = some later ∧
        later.1 ≠ []) : answer.2 = true := by
  obtain ⟨k, later, hk, hanswer, hne⟩ := hlater
  obtain ⟨hitems, hflag⟩ := contentPage_slice toLowercase readDir root fileAt matcher qhash
    contextLines maxMatchesPerFile dir offset limit hlimit hpage
  rw [(contentPage_slice toLowercase readDir root fileAt matcher qhash contextLines
    maxMatchesPerFile dir (offset + k * limit) limit hlimit hanswer).1] at hne
  have hlt := (slice_ne_nil_iff hlimit _).mp hne
  have hle := Nat.le_mul_of_pos_left limit hk
  apply hflag.mpr
  left
  rw [hitems, List.length_take, List.length_drop]
  omega

end ContentPages

inductive SearchError where
  | badRequest (message : String)
  | badGateway (message : String)

/-- A number that is asked for: at least one, and not above a cap. -/
def clampRequested (fallback cap : Nat) (asked : Option Nat) : Nat :=
  min (max (asked.getD fallback) 1) cap

def maxRankedSearchVisits : Nat := 100000

/-- A request for a page of paths, as far as it is about the search. -/
structure FileBrowserQuery where
  dirsOnly : Option Bool
  q : Option String
  searchKind : Option String
  offset : Option Nat
  limit : Option Nat
  matchCase : Option Bool
  regex : Option Bool

/-- Who browses folders only is searching for folders. -/
def FileBrowserQuery.wantedKind (query : FileBrowserQuery) : Option String :=
  (query.searchKind.filter fun kind => kind = "file" || kind = "dir").or
    (if query.dirsOnly.getD false then some "dir" else none)

/-- The search of the tree endpoint, for a query that is not blank. -/
def fileBrowserTreeSearch (compile : String → Bool → Except String (String → Bool))
    (fzfRankMatches : String → Bool → List String → Option (List Nat)) (dir : OsPath)
    (query : FileBrowserQuery) : Except SearchError SearchPage :=
  match PathMatcher.new compile (trim (query.q.getD "")) (query.matchCase.getD false)
      (query.regex.getD false) with
  | .error err => .error (.badRequest err)
  | .ok matcher =>
    match pushSearchEntriesWithVisitLimit toLowercase readDir root fzfRankMatches matcher
        query.wantedKind dir maxRankedSearchVisits (query.offset.getD 0)
        (clampRequested 100 500 query.limit) with
    | .error err => .error (.badGateway err)
    | .ok page => .ok page

structure FileContentSearchQuery where
  q : String
  offset : Option Nat
  limit : Option Nat
  contextLines : Option Nat
  maxMatchesPerFile : Option Nat
  matchCase : Option Bool
  regex : Option Bool

/-- The search of the content endpoint. `none` is a panic. -/
def fileBrowserContentSearch (compile : String → Bool → Except String Regex)
    (escape queryHash : String → String) (fileAt : OsPath → SearchedFile) (dir : OsPath)
    (query : FileContentSearchQuery) : Option (Except SearchError ContentSearchBuild) :=
  let search := trim query.q
  if search = "" then some (.error (.badRequest "query is required"))
  else
    (collectContentSearch toLowercase readDir root fileAt (queryHash search)
      (min (query.contextLines.getD 2) 20) (clampRequested 5 500 query.maxMatchesPerFile) dir
      (ContentMatcher.new compile escape search (query.matchCase.getD false)
        (query.regex.getD false))
      (query.offset.getD 0) (clampRequested 50 200 query.limit)).map fun answer =>
        match answer with
        | .error err =>
          .error (if err.startsWith "invalid regex" then .badRequest err else .badGateway err)
        | .ok build => .ok build

theorem clampRequested_pos {fallback cap : Nat} (asked : Option Nat) (h : 0 < cap) :
    0 < clampRequested fallback cap asked := by
  unfold clampRequested
  omega

/-- The pages of both searches. Those of the paths tile what is collected and ranked, and the flag
is right unless the walk was ended at its limit of entries; then it is on every page up to the cap
of the matches. Those of the contents tile the files that match, up to a page with nothing on it;
the flag is on each page with a later one behind it, but also on a full page with none. -/
theorem searchPages_tile (dir : OsPath) {limit : Nat} (hlimit : 0 < limit) :
    (∀ fzfRankMatches matcher searchKind maxVisits, 0 < maxVisits →
      (rankedMatches toLowercase readDir root fzfRankMatches matcher searchKind dir
        maxVisits).Perm ((collectedMatches toLowercase readDir root matcher searchKind dir
          maxVisits).map (·.entry)) ∧
      (∀ fuel pages, pagesFrom (pathPage toLowercase readDir root fzfRankMatches matcher searchKind
          dir maxVisits limit) (fun answer => !answer.2) limit fuel 0 = some pages →
        pages.flatten =
          rankedMatches toLowercase readDir root fzfRankMatches matcher searchKind dir maxVisits) ∧
      ∀ entries, sortedDirectoryEntries toLowercase readDir dir = .ok entries →
        (∃ fuel, (pagesFrom (pathPage toLowercase readDir root fzfRankMatches matcher searchKind dir
          maxVisits limit) (fun answer => !answer.2) limit fuel 0).isSome) ∧
        ((searchEntries toLowercase readDir dir maxVisits).length < maxVisits →
          PagesTile (pathPage toLowercase readDir root fzfRankMatches matcher searchKind dir
            maxVisits limit) limit (rankedMatches toLowercase readDir root fzfRankMatches matcher
              searchKind dir maxVisits)) ∧
        (maxVisits ≤ (searchEntries toLowercase readDir dir maxVisits).length →
          ∀ offset, offset < maxCollectedSearchMatches →
            (pathPage toLowercase readDir root fzfRankMatches matcher searchKind dir maxVisits limit
              offset).map (·.2) = some true)) ∧
    ∀ fileAt matcher qhash contextLines maxMatchesPerFile,
      (∀ fuel pages, pagesFrom (contentPage toLowercase readDir root fileAt matcher qhash
          contextLines maxMatchesPerFile dir limit)
          (fun answer => answer.1.isEmpty || !answer.2) limit fuel 0 = some pages →
        pages.flatten = foundFiles toLowercase readDir root fileAt matcher qhash contextLines
          maxMatchesPerFile dir) ∧
      (∀ entries, sortedDirectoryEntries toLowercase readDir dir = .ok entries →
        (∀ entry ∈ (contentEntries toLowercase readDir dir).take (maxContentSearchVisits - 1),
          ¬Panics root fileAt matcher qhash contextLines maxMatchesPerFile entry) →
        ∃ fuel, (pagesFrom (contentPage toLowercase readDir root fileAt matcher qhash contextLines
          maxMatchesPerFile dir limit) (fun answer => answer.1.isEmpty || !answer.2) limit fuel
            0).isSome) ∧
      ∀ offset answer, contentPage toLowercase readDir root fileAt matcher qhash contextLines
          maxMatchesPerFile dir limit offset = some answer →
        (answer.2 = true ↔ limit ≤ answer.1.length ∨
          maxContentSearchVisits ≤ (contentEntries toLowercase readDir dir).length) ∧
        ((∃ k later, 0 < k ∧ contentPage toLowercase readDir root fileAt matcher qhash contextLines
          maxMatchesPerFile dir limit (offset + k * limit) = some later ∧ later.1 ≠ []) →
            answer.2 = true) := by
  constructor
  · intro fzfRankMatches matcher searchKind maxVisits hvisits
    refine ⟨?_, fun fuel pages hpages => ?_, fun entries hread => ⟨?_, fun hwhole => ?_, ?_⟩⟩
    · exact (rankSearchCandidates_perm toLowercase fzfRankMatches matcher _).map _
    · have hserves := pathPage_serves toLowercase readDir root fzfRankMatches matcher searchKind dir
        maxVisits limit hvisits
      rw [hserves.flatten_pagesFrom hpages, List.drop_zero]
    · exact pathPage_ends toLowercase readDir root fzfRankMatches matcher searchKind dir maxVisits
        limit hlimit hvisits hread
    · exact pathPage_tile toLowercase readDir root fzfRankMatches matcher searchKind dir maxVisits
        limit hlimit hvisits hread hwhole
    · intro hended offset hoffset
      rw [pathPage_eq toLowercase readDir root fzfRankMatches matcher searchKind dir maxVisits limit
        hvisits hread offset]
      simp [hended, hoffset]
  · intro fileAt matcher qhash contextLines maxMatchesPerFile
    refine ⟨fun fuel pages hpages => ?_, fun entries hread hcalm => ?_,
      fun offset answer hpage => ⟨?_, fun hlater => ?_⟩⟩
    · have hserves := contentPage_serves toLowercase readDir root fileAt matcher qhash contextLines
        maxMatchesPerFile dir limit hlimit
      rw [hserves.flatten_pagesFrom hpages, List.drop_zero]
    · exact contentPage_ends toLowercase readDir root fileAt matcher qhash contextLines
        maxMatchesPerFile dir limit hlimit hread hcalm
    · exact (contentPage_slice toLowercase readDir root fileAt matcher qhash contextLines
        maxMatchesPerFile dir offset limit hlimit hpage).2
    · exact contentPage_later toLowercase readDir root fileAt matcher qhash contextLines
        maxMatchesPerFile dir offset limit hlimit hpage hlater

end Search

def singleFile : OsPath → Except String (List RawEntry)
  | [] => .ok [⟨"a".toUTF8.data.toList, some ⟨false, 6, none⟩⟩]
  | _ => .error "not a directory"

def needleFile (_ : OsPath) : SearchedFile :=
  ⟨"", .ok ⟨true, 6⟩, .ok "needle".toUTF8, .ok "hash"⟩

/-- A directory with a folder that has one file. -/
def fileInFolder : OsPath → Except String (List RawEntry)
  | [] => .ok [⟨"hit".toUTF8.data.toList, some ⟨true, 0, none⟩⟩]
  | [_] => .ok [⟨"b".toUTF8.data.toList, some ⟨false, 6, none⟩⟩]
  | _ => .error "not a directory"

/-- The pages of one file. -/
theorem searchPages_tile_file :
    (pagesFrom (contentPage (fun text => String.ofList (text.toList.map Char.toLower)) singleFile []
      needleFile (.plain "needle" (by decide)) "q" 0 5 [] 1)
      (fun answer => answer.1.isEmpty || !answer.2) 1 2 0).map List.flatten =
      some (foundFiles (fun text => String.ofList (text.toList.map Char.toLower)) singleFile []
        needleFile (.plain "needle" (by decide)) "q" 0 5 []) := by
  have hsome : (pagesFrom (contentPage (fun text => String.ofList (text.toList.map Char.toLower))
      singleFile [] needleFile (.plain "needle" (by decide)) "q" 0 5 [] 1)
      (fun answer => answer.1.isEmpty || !answer.2) 1 2 0).isSome := by
    decide +kernel
  obtain ⟨pages, hpages⟩ := Option.isSome_iff_exists.mp hsome
  rw [hpages, Option.map_some]
  exact congrArg some ((searchPages_tile (fun text => String.ofList (text.toList.map Char.toLower))
    singleFile [] [] Nat.one_pos).2 needleFile _ "q" 0 5 |>.1 2 pages hpages)

/-- A full page of contents reports more where there is no more, and so does a page of paths when
the walk was ended. -/
theorem searchPages_truncated :
    ¬PagesTile (contentPage (fun text => String.ofList (text.toList.map Char.toLower)) singleFile []
        needleFile (.plain "needle" (by decide)) "q" 0 5 [] 1) 1
        (foundFiles (fun text => String.ofList (text.toList.map Char.toLower)) singleFile []
          needleFile (.plain "needle" (by decide)) "q" 0 5 []) ∧
      ¬PagesTile (pathPage (fun text => String.ofList (text.toList.map Char.toLower)) fileInFolder
        [] (fun _ _ _ => none) (.substring "hit" (by decide) false) none [] 2 5) 5
        (rankedMatches (fun text => String.ofList (text.toList.map Char.toLower)) fileInFolder []
          (fun _ _ _ => none) (.substring "hit" (by decide) false) none [] 2) := by
  constructor
  · rintro ⟨_, hflag⟩
    have hfirst : (contentPage (fun text => String.ofList (text.toList.map Char.toLower)) singleFile
        [] needleFile (.plain "needle" (by decide)) "q" 0 5 [] 1 0).map (·.2) = some true := by
      decide +kernel
    have hsecond : (contentPage (fun text => String.ofList (text.toList.map Char.toLower))
        singleFile [] needleFile (.plain "needle" (by decide)) "q" 0 5 [] 1 1).map (·.1) =
          some [] := by
      decide +kernel
    obtain ⟨first, hfirst, hmore⟩ := Option.map_eq_some_iff.mp hfirst
    obtain ⟨second, hsecond, hnone⟩ := Option.map_eq_some_iff.mp hsecond
    obtain ⟨k, later, hk, hlater, hne⟩ := (hflag 0 first hfirst).mp hmore
    rw [(contentPage_slice _ _ _ _ _ _ _ _ _ _ _ Nat.one_pos hlater).1,
      slice_ne_nil_iff Nat.one_pos] at hne
    rw [(contentPage_slice _ _ _ _ _ _ _ _ _ _ _ Nat.one_pos hsecond).1] at hnone
    have hend := mt (slice_ne_nil_iff Nat.one_pos 1).mpr (not_not.mpr hnone)
    omega
  · rintro ⟨_, hflag⟩
    have hfirst : (pathPage (fun text => String.ofList (text.toList.map Char.toLower)) fileInFolder
        [] (fun _ _ _ => none) (.substring "hit" (by decide) false) none [] 2 5 0).map (·.2) =
          some true := by
      decide +kernel
    have hsecond : (pathPage (fun text => String.ofList (text.toList.map Char.toLower))
        fileInFolder [] (fun _ _ _ => none) (.substring "hit" (by decide) false) none [] 2 5
          5).map (·.1) = some [] := by
      decide +kernel
    obtain ⟨first, hfirst, hmore⟩ := Option.map_eq_some_iff.mp hfirst
    obtain ⟨second, hsecond, hnone⟩ := Option.map_eq_some_iff.mp hsecond
    obtain ⟨k, later, hk, hlater, hne⟩ := (hflag 0 first hfirst).mp hmore
    have hserves := pathPage_serves (fun text => String.ofList (text.toList.map Char.toLower))
      fileInFolder [] (fun _ _ _ => none) (.substring "hit" (by decide) false) none [] 2 5
        Nat.two_pos
    rw [hserves.items hlater, slice_ne_nil_iff (by omega)] at hne
    rw [hserves.items hsecond] at hnone
    have hend := mt (slice_ne_nil_iff (by omega) 5).mpr (not_not.mpr hnone)
    omega

end HerdrWebui.Files
