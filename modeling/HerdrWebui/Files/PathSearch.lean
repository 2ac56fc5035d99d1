import HerdrWebui.Files.ContentSearch
import Mathlib.Data.String.Basic

/-!
The search for files and folders by name. An entry is in it when its name or its path matches;
the entries are ranked by a score, with a case rule of its own, or by the `fzf` program.
-/

namespace HerdrWebui.Files

def containsStr (needle text : String) : Bool := (findStr needle.toList text.toList).isSome

/-- No matcher is made of an empty query. -/
inductive PathMatcher where
  | substring (needle : String) (nonempty : needle ≠ "") (matchCase : Bool)
  | regex (isMatch : String → Bool)

/-- `compile` is the builder of regular expressions, with or without regard to case. -/
def PathMatcher.new (compile : String → Bool → Except String (String → Bool)) (query : String)
    (matchCase regex : Bool) : Except String PathMatcher :=
  if hempty : query = "" then .error "empty query"
  else if regex then
    match compile query !matchCase with
    | .error err => .error ("invalid regex: " ++ err)
    | .ok isMatch => .ok (.regex isMatch)
  else .ok (.substring query hempty matchCase)

def PathMatcher.plainNeedle : PathMatcher → Option String
  | .substring needle _ _ => some needle
  | .regex _ => none

structure FileBrowserEntry where
  name : String
  path : String
  kind : String
  size : Option Nat
  modifiedMs : Option Nat
  level : Nat
  expanded : Bool
  deriving DecidableEq

structure SearchCandidate where
  entry : FileBrowserEntry
  depth : Nat
  deriving DecidableEq

section Ranking

variable (toLowercase : String → String)

/-- What the matcher finds in a name or a path. -/
def PathMatcher.hits : PathMatcher → String → Bool
  | .substring needle _ matchCase, text =>
    if matchCase then containsStr needle text
    else containsStr (toLowercase needle) (toLowercase text)
  | .regex isMatch, text => isMatch text

def PathMatcher.matches (matcher : PathMatcher) (name path : String) : Bool :=
  matcher.hits toLowercase name || matcher.hits toLowercase path

/-- The case rule of the score: case is left out of account if the query has none. -/
def scoreFind (needle text : String) : Option Nat :=
  if needle = toLowercase needle then
    findStr (toLowercase needle).toList (toLowercase text).toList
  else findStr needle.toList text.toList

def pathSearchTier (needle name path : String) : Nat × Nat :=
  if toLowercase name = toLowercase needle ∨ needle ≠ toLowercase needle ∧ name = needle then (0, 0)
  else if (scoreFind toLowercase needle name).isSome then
    (1, (scoreFind toLowercase needle name).getD 0)
  else (2, (scoreFind toLowercase needle path).getD 0)

def pathSearchScore (matcher : PathMatcher) (name path : String) (depth : Nat) : Nat :=
  match matcher.plainNeedle with
  | none => depth
  | some needle =>
    let (tier, position) := pathSearchTier toLowercase needle name path
    tier * 1000 + min position 500 + min depth 200

def SearchCandidate.score (matcher : PathMatcher) (candidate : SearchCandidate) : Nat :=
  pathSearchScore toLowercase matcher candidate.entry.name candidate.entry.path candidate.depth

/-- The order of the scores, and of the paths where the scores are the same. -/
def rankedBefore (matcher : PathMatcher) (a b : SearchCandidate) : Bool :=
  a.score toLowercase matcher < b.score toLowercase matcher ||
    a.score toLowercase matcher = b.score toLowercase matcher && a.entry.path ≤ b.entry.path

/-- The candidates with the indices of an order, each of them once, and those that are left. -/
def takeIndices : List Nat → List (SearchCandidate × Nat) →
    List SearchCandidate × List (SearchCandidate × Nat)
  | [], source => ([], source)
  | index :: order, source =>
    match source.find? (·.2 = index) with
    | none => takeIndices order source
    | some taken =>
      let (ranked, left) := takeIndices order (source.erase taken)
      (taken.1 :: ranked, left)

/-- `fzfRankMatches` is what the program answers to a query, a case mode and the paths. -/
def rankSearchCandidates (fzfRankMatches : String → Bool → List String → Option (List Nat))
    (matcher : PathMatcher) (candidates : List SearchCandidate) : List SearchCandidate :=
  let matchCase := match matcher with
    | .substring _ _ matchCase => matchCase
    | .regex _ => false
  let paths := candidates.map (·.entry.path)
  match matcher.plainNeedle.bind fun needle => fzfRankMatches needle matchCase paths with
  | some order => (takeIndices (order ++ List.range paths.length) candidates.zipIdx).1
  | none => candidates.mergeSort (rankedBefore toLowercase matcher)

def ScoredHit (needle name : String) : Prop :=
  toLowercase name = toLowercase needle ∨ (scoreFind toLowercase needle name).isSome

/-- The score and the matcher are of one opinion about a name. -/
def RuleAgrees (needle : String) (matchCase : Bool) (name : String) : Prop :=
  ScoredHit toLowercase needle name ↔
    if matchCase then containsStr needle name
    else containsStr (toLowercase needle) (toLowercase name)

/-- An entry that matches by its name comes before one that matches by its path alone. -/
def NameBeforePath (matcher : PathMatcher) (c d : SearchCandidate) : Prop :=
  matcher.matches toLowercase c.entry.name c.entry.path →
    matcher.matches toLowercase d.entry.name d.entry.path →
      matcher.hits toLowercase c.entry.name → ¬matcher.hits toLowercase d.entry.name →
        c.score toLowercase matcher < d.score toLowercase matcher

def pathSearchNearness (needle name path : String) (depth : Nat) : Nat :=
  min (pathSearchTier toLowercase needle name path).2 500 + min depth 200

theorem containsStr_self (text : String) : containsStr text text := by
  rw [containsStr, findStr_self]
  rfl

theorem pathSearchTier_exact {needle name : String} (path : String)
    (h : toLowercase name = toLowercase needle) :
    pathSearchTier toLowercase needle name path = (0, 0) := by
  rw [pathSearchTier, if_pos (.inl h)]

theorem pathSearchTier_inside {needle name : String} (path : String)
    (hexact : toLowercase name ≠ toLowercase needle)
    (hfind : (scoreFind toLowercase needle name).isSome) :
    pathSearchTier toLowercase needle name path =
      (1, (scoreFind toLowercase needle name).getD 0) := by
  rw [pathSearchTier, if_neg, if_pos hfind]
  rintro (h | ⟨_, rfl⟩)
  · exact hexact h
  · exact hexact rfl

theorem pathSearchTier_parent {needle name : String} (path : String)
    (h : ¬ScoredHit toLowercase needle name) :
    pathSearchTier toLowercase needle name path =
      (2, (scoreFind toLowercase needle path).getD 0) := by
  obtain ⟨hexact, hfind⟩ := not_or.mp h
  rw [pathSearchTier, if_neg, if_neg hfind]
  rintro (h | ⟨_, rfl⟩)
  · exact hexact h
  · exact hexact rfl

theorem pathSearchTier_lt_two_iff (needle name path : String) :
    (pathSearchTier toLowercase needle name path).1 < 2 ↔ ScoredHit toLowercase needle name := by
  by_cases hhit : ScoredHit toLowercase needle name
  · apply iff_of_true _ hhit
    by_cases hexact : toLowercase name = toLowercase needle
    · simp [pathSearchTier_exact toLowercase path hexact]
    · have hfind := hhit.resolve_left hexact
      simp [pathSearchTier_inside toLowercase path hexact hfind]
  · simp [pathSearchTier_parent toLowercase path hhit, hhit]

theorem pathSearchTier_eq_zero_iff (needle name path : String) :
    (pathSearchTier toLowercase needle name path).1 = 0 ↔
      toLowercase name = toLowercase needle := by
  by_cases hhit : ScoredHit toLowercase needle name
  · by_cases hexact : toLowercase name = toLowercase needle
    · simp [pathSearchTier_exact toLowercase path hexact, hexact]
    · have hfind := hhit.resolve_left hexact
      simp [pathSearchTier_inside toLowercase path hexact hfind, hexact]
  · have hexact := (not_or.mp hhit).1
    simp [pathSearchTier_parent toLowercase path hhit, hexact]

theorem pathSearchScore_substring (needle : String) (hne : needle ≠ "") (matchCase : Bool)
    (name path : String) (depth : Nat) :
    pathSearchScore toLowercase (.substring needle hne matchCase) name path depth =
      (pathSearchTier toLowercase needle name path).1 * 1000 +
        pathSearchNearness toLowercase needle name path depth := by
  simp only [pathSearchScore, PathMatcher.plainNeedle, pathSearchNearness]
  omega

theorem pathSearchNearness_le (needle name path : String) (depth : Nat) :
    pathSearchNearness toLowercase needle name path depth ≤ 700 := by
  unfold pathSearchNearness
  omega

/-- The score is in the order of the tiers, and of the nearness within a tier. -/
theorem pathSearchScore_le_iff (needle : String) (hne : needle ≠ "") (matchCase : Bool)
    (name path : String) (depth : Nat) (name' path' : String) (depth' : Nat) :
    pathSearchScore toLowercase (.substring needle hne matchCase) name path depth ≤
        pathSearchScore toLowercase (.substring needle hne matchCase) name' path' depth' ↔
      (pathSearchTier toLowercase needle name path).1 <
          (pathSearchTier toLowercase needle name' path').1 ∨
        (pathSearchTier toLowercase needle name path).1 =
            (pathSearchTier toLowercase needle name' path').1 ∧
          pathSearchNearness toLowercase needle name path depth ≤
            pathSearchNearness toLowercase needle name' path' depth' := by
  have hnear := pathSearchNearness_le toLowercase needle name path depth
  have hnear' := pathSearchNearness_le toLowercase needle name' path' depth'
  rw [pathSearchScore_substring, pathSearchScore_substring]
  omega

/-- A match in the name comes before one that is only in the path, as the score sees them. -/
theorem pathSearchScore_lt {needle : String} (hne : needle ≠ "") (matchCase : Bool)
    {name name' : String} (path : String) (depth : Nat) (path' : String) (depth' : Nat)
    (h : ScoredHit toLowercase needle name) (h' : ¬ScoredHit toLowercase needle name') :
    pathSearchScore toLowercase (.substring needle hne matchCase) name path depth <
      pathSearchScore toLowercase (.substring needle hne matchCase) name' path' depth' := by
  have htier := (pathSearchTier_lt_two_iff toLowercase needle name path).mpr h
  have hparent : (pathSearchTier toLowercase needle name' path').1 = 2 := by
    rw [pathSearchTier_parent toLowercase path' h']
  rw [← not_le, pathSearchScore_le_iff]
  omega

theorem ruleAgrees_lowercase {needle : String} (h : toLowercase needle = needle) (name : String) :
    RuleAgrees toLowercase needle false name := by
  simp only [RuleAgrees, ScoredHit, scoreFind, if_pos h.symm, Bool.false_eq_true, if_false]
  rw [or_iff_right_iff_imp.mpr]
  · rfl
  · intro hexact
    rw [hexact]
    exact containsStr_self _

theorem ruleAgrees_capitals {needle name : String} (h : toLowercase needle ≠ needle)
    (hname : toLowercase name = toLowercase needle → containsStr needle name) :
    RuleAgrees toLowercase needle true name := by
  simp only [RuleAgrees, ScoredHit, scoreFind, if_neg h.symm, if_true]
  exact or_iff_right_iff_imp.mpr hname

theorem rankedBefore_iff (matcher : PathMatcher) (a b : SearchCandidate) :
    rankedBefore toLowercase matcher a b ↔
      a.score toLowercase matcher < b.score toLowercase matcher ∨
        a.score toLowercase matcher = b.score toLowercase matcher ∧
          a.entry.path ≤ b.entry.path := by
  simp [rankedBefore]

theorem rankedBefore_trans (matcher : PathMatcher) (a b c : SearchCandidate)
    (hab : rankedBefore toLowercase matcher a b) (hbc : rankedBefore toLowercase matcher b c) :
    rankedBefore toLowercase matcher a c := by
  rw [rankedBefore_iff] at hab hbc ⊢
  rcases hab with hab | ⟨hab, hpath⟩
  · left
    omega
  · rcases hbc with hbc | ⟨hbc, hpath'⟩
    · left
      omega
    · exact .inr ⟨hab.trans hbc, hpath.trans hpath'⟩

theorem rankedBefore_total (matcher : PathMatcher) (a b : SearchCandidate) :
    (rankedBefore toLowercase matcher a b || rankedBefore toLowercase matcher b a) = true := by
  rw [Bool.or_eq_true, rankedBefore_iff, rankedBefore_iff]
  rcases lt_trichotomy (a.score toLowercase matcher) (b.score toLowercase matcher) with h | h | h
  · exact .inl (.inl h)
  · exact (le_total a.entry.path b.entry.path).imp (fun hle => .inr ⟨h, hle⟩)
      fun hle => .inr ⟨h.symm, hle⟩
  · exact .inr (.inl h)

end Ranking

theorem takeIndices_perm (order : List Nat) (source : List (SearchCandidate × Nat)) :
    ((takeIndices order source).1 ++ (takeIndices order source).2.map (·.1)).Perm
      (source.map (·.1)) := by
  induction order generalizing source with
  | nil => exact List.Perm.refl _
  | cons index order ih =>
    cases hfind : source.find? (·.2 = index) with
    | none =>
      simp only [takeIndices, hfind]
      exact ih source
    | some taken =>
      simp only [takeIndices, hfind]
      have hmem := List.mem_of_find?_eq_some hfind
      have hsource := (List.perm_cons_erase hmem).map fun pair => pair.1
      exact ((ih (source.erase taken)).cons taken.1).trans hsource.symm

theorem takeIndices_left (order : List Nat) {source : List (SearchCandidate × Nat)}
    (hnodup : (source.map (·.2)).Nodup) :
    ∀ left ∈ (takeIndices order source).2, left ∈ source ∧ left.2 ∉ order := by
  induction order generalizing source with
  | nil => simp [takeIndices]
  | cons index order ih =>
    intro left hleft
    cases hfind : source.find? (·.2 = index) with
    | none =>
      simp only [takeIndices, hfind] at hleft
      obtain ⟨hmem, hnot⟩ := ih hnodup left hleft
      have hindex : left.2 ≠ index := by
        simpa using List.find?_eq_none.mp hfind left hmem
      exact ⟨hmem, by simp [hindex, hnot]⟩
    | some taken =>
      simp only [takeIndices, hfind] at hleft
      have hperm := List.perm_cons_erase (List.mem_of_find?_eq_some hfind)
      have hnodup' := ((hperm.map (·.2)).nodup_iff.mp hnodup)
      rw [List.map_cons, List.nodup_cons] at hnodup'
      obtain ⟨hmem, hnot⟩ := ih hnodup'.2 left hleft
      have htaken : taken.2 = index := by simpa using List.find?_some hfind
      have hindex : left.2 ≠ index := by
        rintro rfl
        exact hnodup'.1 (htaken ▸ List.mem_map_of_mem hmem)
      exact ⟨List.mem_of_mem_erase hmem, by simp [hindex, hnot]⟩

theorem takeIndices_all (order : List Nat) (candidates : List SearchCandidate) :
    (takeIndices (order ++ List.range candidates.length) candidates.zipIdx).1.Perm candidates := by
  have hperm := takeIndices_perm (order ++ List.range candidates.length) candidates.zipIdx
  have hleft : (takeIndices (order ++ List.range candidates.length) candidates.zipIdx).2 = [] := by
    apply List.eq_nil_iff_forall_not_mem.mpr
    intro left hmem
    have hnodup : (candidates.zipIdx.map (·.2)).Nodup := by
      rw [List.zipIdx_map_snd]
      exact List.nodup_range'
    obtain ⟨hmem', hnot⟩ := takeIndices_left _ hnodup left hmem
    apply hnot
    have hlt := List.snd_lt_of_mem_zipIdx hmem'
    simp at hlt ⊢
    omega
  rw [hleft, List.map_nil, List.append_nil, List.zipIdx_map_fst] at hperm
  exact hperm

section Ranked

variable (toLowercase : String → String)
  (fzfRankMatches : String → Bool → List String → Option (List Nat)) (matcher : PathMatcher)
  (candidates : List SearchCandidate)

theorem rankSearchCandidates_perm :
    (rankSearchCandidates toLowercase fzfRankMatches matcher candidates).Perm candidates := by
  unfold rankSearchCandidates
  dsimp only
  split
  · rw [List.length_map]
    exact takeIndices_all _ candidates
  · exact List.mergeSort_perm _ _

theorem rankSearchCandidates_without :
    rankSearchCandidates toLowercase (fun _ _ _ => none) matcher candidates =
      candidates.mergeSort (rankedBefore toLowercase matcher) := by
  cases matcher <;> rfl

theorem pairwise_rankSearchCandidates :
    (rankSearchCandidates toLowercase (fun _ _ _ => none) matcher candidates).Pairwise fun a b =>
      rankedBefore toLowercase matcher a b := by
  rw [rankSearchCandidates_without]
  exact List.pairwise_mergeSort (rankedBefore_trans toLowercase matcher)
    (rankedBefore_total toLowercase matcher) candidates

end Ranked

theorem nameBeforePath_of_agrees (toLowercase : String → String) {needle : String}
    (hne : needle ≠ "") {matchCase : Bool} {c d : SearchCandidate}
    (hc : RuleAgrees toLowercase needle matchCase c.entry.name)
    (hd : RuleAgrees toLowercase needle matchCase d.entry.name) :
    NameBeforePath toLowercase (.substring needle hne matchCase) c d := by
  intro _ _ hname hpath
  apply pathSearchScore_lt
  · exact hc.mpr (by simpa [PathMatcher.hits] using hname)
  · intro hscored
    apply hpath
    simpa [PathMatcher.hits] using hd.mp hscored

/-- The ranking of a plain query, where the score has the case rule of the matcher; so it is
for a query without capitals if case does not matter, and for one with capitals if it does and the
name is not the query in other letters. An expression is ranked by the depth alone. -/
theorem pathSearchScore_ranks (toLowercase : String → String) :
    (∀ (needle : String) (hne : needle ≠ "") (matchCase : Bool) (c d : SearchCandidate),
      RuleAgrees toLowercase needle matchCase c.entry.name →
        RuleAgrees toLowercase needle matchCase d.entry.name →
          NameBeforePath toLowercase (.substring needle hne matchCase) c d) ∧
    (∀ needle name, toLowercase needle = needle → RuleAgrees toLowercase needle false name) ∧
    (∀ needle name, toLowercase needle ≠ needle →
      (toLowercase name = toLowercase needle → containsStr needle name) →
        RuleAgrees toLowercase needle true name) ∧
    (∀ needle name path,
      ((pathSearchTier toLowercase needle name path).1 = 0 ↔
        toLowercase name = toLowercase needle) ∧
      ((pathSearchTier toLowercase needle name path).1 < 2 ↔ ScoredHit toLowercase needle name)) ∧
    (∀ (needle : String) (hne : needle ≠ "") (matchCase : Bool) (c d : SearchCandidate),
      c.score toLowercase (.substring needle hne matchCase) ≤
          d.score toLowercase (.substring needle hne matchCase) ↔
        (pathSearchTier toLowercase needle c.entry.name c.entry.path).1 <
            (pathSearchTier toLowercase needle d.entry.name d.entry.path).1 ∨
          (pathSearchTier toLowercase needle c.entry.name c.entry.path).1 =
              (pathSearchTier toLowercase needle d.entry.name d.entry.path).1 ∧
            pathSearchNearness toLowercase needle c.entry.name c.entry.path c.depth ≤
              pathSearchNearness toLowercase needle d.entry.name d.entry.path d.depth) ∧
    (∀ isMatch (c : SearchCandidate), c.score toLowercase (.regex isMatch) = c.depth) ∧
    ∀ matcher,
      (∀ a b, (rankedBefore toLowercase matcher a b ||
        rankedBefore toLowercase matcher b a) = true) ∧
      (∀ a b c, rankedBefore toLowercase matcher a b → rankedBefore toLowercase matcher b c →
        rankedBefore toLowercase matcher a c) ∧
      ∀ candidates,
        (∀ fzfRankMatches,
          (rankSearchCandidates toLowercase fzfRankMatches matcher candidates).Perm candidates) ∧
        (rankSearchCandidates toLowercase (fun _ _ _ => none) matcher candidates).Pairwise
          fun a b => rankedBefore toLowercase matcher a b := by
  refine ⟨?_, ?_, ?_, ?_, ?_, ?_, ?_⟩
  · intro needle hne matchCase c d hc hd
    exact nameBeforePath_of_agrees toLowercase hne hc hd
  · intro needle name hlower
    exact ruleAgrees_lowercase toLowercase hlower name
  · intro needle name hcapitals hname
    exact ruleAgrees_capitals toLowercase hcapitals hname
  · intro needle name path
    exact ⟨pathSearchTier_eq_zero_iff toLowercase needle name path,
      pathSearchTier_lt_two_iff toLowercase needle name path⟩
  · intro needle hne matchCase c d
    exact pathSearchScore_le_iff toLowercase needle hne matchCase _ _ _ _ _ _
  · intro isMatch c
    rfl
  · intro matcher
    refine ⟨rankedBefore_total toLowercase matcher, rankedBefore_trans toLowercase matcher, ?_⟩
    intro candidates
    refine ⟨fun fzfRankMatches => ?_, ?_⟩
    · exact rankSearchCandidates_perm toLowercase fzfRankMatches matcher candidates
    · exact pairwise_rankSearchCandidates toLowercase matcher candidates

/-- The name `app.rs` before the folder `app`. -/
theorem pathSearchScore_ranks_app :
    (⟨⟨"app.rs", "a/b/app.rs", "file", none, none, 0, false⟩, 2⟩ : SearchCandidate).score
        (fun text => String.ofList (text.toList.map Char.toLower))
        (.substring "app" (by decide) false) <
      (⟨⟨"notes.md", "app/notes.md", "file", none, none, 0, false⟩, 1⟩ : SearchCandidate).score
        (fun text => String.ofList (text.toList.map Char.toLower))
        (.substring "app" (by decide) false) := by
  have hranks := pathSearchScore_ranks fun text => String.ofList (text.toList.map Char.toLower)
  have hagrees := fun name => hranks.2.1 "app" name (by decide +kernel)
  apply hranks.1 "app" (by decide) false _ _ (hagrees _) (hagrees _)
  · decide +kernel
  · decide +kernel
  · decide +kernel
  · decide +kernel

/-- An expression has no regard for names, and a query with capitals finds a name in small letters
that the score does not see. -/
theorem pathSearchScore_deeper :
    ¬NameBeforePath (fun text => String.ofList (text.toList.map Char.toLower))
        (.regex fun text => containsStr "app" text)
        ⟨⟨"app.rs", "a/b/app.rs", "file", none, none, 0, false⟩, 2⟩
        ⟨⟨"notes.md", "app/notes.md", "file", none, none, 0, false⟩, 1⟩ ∧
      ¬NameBeforePath (fun text => String.ofList (text.toList.map Char.toLower))
        (.substring "App" (by decide) false)
        ⟨⟨"app.rs", "a/b/app.rs", "file", none, none, 0, false⟩, 2⟩
        ⟨⟨"notes.md", "app/notes.md", "file", none, none, 0, false⟩, 1⟩ := by
  unfold NameBeforePath
  decide +kernel

end HerdrWebui.Files
