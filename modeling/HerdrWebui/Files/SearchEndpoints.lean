import HerdrWebui.Files.SearchChunks
import HerdrWebui.Files.SearchPages

/-!
What the two search endpoints answer. For one query, whatever places and sizes are asked for, the
answers are cut out of one list.
-/

namespace HerdrWebui.Files

section Endpoints

variable (toLowercase : String → String) (readDir : OsPath → Except String (List RawEntry))
  (root : OsPath)

/-- All answers to a query for paths are cut out of the ranked list of what was collected. -/
theorem fileBrowserTreeSearch_slices (compile : String → Bool → Except String (String → Bool))
    (fzfRankMatches : String → Bool → List String → Option (List Nat)) (dir : OsPath)
    (query : FileBrowserQuery) :
    ∃ found : List FileBrowserEntry, found.length ≤ maxCollectedSearchMatches ∧
      ∀ offset limit page, fileBrowserTreeSearch toLowercase readDir root compile fzfRankMatches dir
          { query with offset, limit } = .ok page →
        page.entries = (found.drop (offset.getD 0)).take (clampRequested 100 500 limit) := by
  cases hmatcher : PathMatcher.new compile (trim (query.q.getD "")) (query.matchCase.getD false)
      (query.regex.getD false) with
  | error err =>
    refine ⟨[], Nat.zero_le _, fun offset limit page h => ?_⟩
    simp [fileBrowserTreeSearch, hmatcher] at h
  | ok matcher =>
    refine ⟨rankedMatches toLowercase readDir root fzfRankMatches matcher query.wantedKind dir
      maxRankedSearchVisits, ?_, fun offset limit page h => ?_⟩
    · rw [length_rankedMatches]
      apply length_collectedMatches_le
    · have hpage : pathPage toLowercase readDir root fzfRankMatches matcher query.wantedKind dir
          maxRankedSearchVisits (clampRequested 100 500 limit) (offset.getD 0) =
            some (page.entries, page.truncated) := by
        simp only [fileBrowserTreeSearch, hmatcher] at h
        rw [show query.wantedKind =
          FileBrowserQuery.wantedKind { query with offset, limit } from rfl, pathPage]
        split at h
        · cases h
        · next heq =>
            cases h
            rw [heq]
      exact (pathPage_serves toLowercase readDir root fzfRankMatches matcher query.wantedKind dir
        maxRankedSearchVisits (clampRequested 100 500 limit) (by decide)).items hpage

end Endpoints

end HerdrWebui.Files
