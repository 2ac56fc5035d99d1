import HerdrWebui.Data.Priority
import HerdrWebui.Data.Text

/-!
The colours of the file tree. Each change gives its status to its own path and a status of
directories to those above it. A path has the last status of the highest priority that it
was given.
-/

namespace HerdrWebui.Files

def gitStatusPriority : String → Nat
  | "deleted" => 3
  | "modified" | "conflict" => 2
  | "added" | "untracked" => 1
  | "changed" => 0
  | _ => 0

def propagatedDirectoryStatus : String → String
  | "deleted" => "deleted"
  | "added" | "untracked" => "added"
  | "changed" => "changed"
  | _ => "modified"

def insertGitStatus (map : Table String String) (path status : String) : Table String String :=
  if path = "" then map
  else
    let existingPriority := ((map.lookup path).map gitStatusPriority).getD 0
    if existingPriority ≤ gitStatusPriority status then map.insert path status else map

def statusParts (path : String) : List String :=
  ((path.toList.splitOn '/').filter (· ≠ [])).map String.ofList

def propagateGitStatus (map : Table String String) (path status : String) :
    Table String String :=
  let dirStatus := propagatedDirectoryStatus status
  let parts := statusParts path
  (List.range' 1 (parts.length - 1)).foldl
    (fun map depth => insertGitStatus map ("/".intercalate (parts.take depth)) dirStatus)
    (insertGitStatus map path status)

def statusColors (entries : List (String × String)) : Table String String :=
  entries.foldl (fun map entry => propagateGitStatus map entry.1 entry.2) ∅

/-- The directories above a path, as they are named in the map. -/
def ancestorPaths (path : String) : List String :=
  let parts := statusParts path
  (List.range' 1 (parts.length - 1)).map fun depth => "/".intercalate (parts.take depth)

/-- The paths that an entry gives a status to, each with its status. No path is empty. -/
def offers (entry : String × String) : List (String × String) :=
  (entry :: (ancestorPaths entry.1).map (·, propagatedDirectoryStatus entry.2)).filter (·.1 ≠ "")

/-- The statuses that a path is given, in order. -/
def offered (entries : List (String × String)) (path : String) : List String :=
  Table.given (entries.flatMap offers) path

theorem mem_offered {entries : List (String × String)} {path status : String} :
    status ∈ offered entries path ↔ ∃ entry ∈ entries, (path, status) ∈ offers entry := by
  rw [offered, Table.mem_given, List.mem_flatMap]

theorem insertGitStatus_eq (map : Table String String) {path : String} (h : path ≠ "")
    (status : String) :
    insertGitStatus map path status = Table.raise gitStatusPriority map (path, status) := by
  rw [insertGitStatus, if_neg h, Table.raise]
  cases map.lookup path with
  | none => simp
  | some existing => rfl

theorem foldl_insertGitStatus (entries : List (String × String)) (map : Table String String) :
    entries.foldl (fun map entry => insertGitStatus map entry.1 entry.2) map =
      (entries.filter (·.1 ≠ "")).foldl (Table.raise gitStatusPriority) map := by
  induction entries generalizing map with
  | nil => rfl
  | cons entry entries ih =>
    rw [List.foldl_cons, ih]
    by_cases hpath : entry.1 = ""
    · simp [hpath, insertGitStatus]
    · simp [hpath, insertGitStatus_eq map hpath]

theorem propagateGitStatus_eq (map : Table String String) (entry : String × String) :
    propagateGitStatus map entry.1 entry.2 =
      (offers entry).foldl (Table.raise gitStatusPriority) map := by
  rw [offers, ← foldl_insertGitStatus, List.foldl_cons, List.foldl_map, ancestorPaths,
    List.foldl_map, propagateGitStatus]

theorem statusColors_eq (entries : List (String × String)) :
    statusColors entries =
      (entries.flatMap offers).foldl (Table.raise gitStatusPriority) ∅ := by
  rw [List.foldl_flatMap, statusColors]
  exact congrArg (List.foldl · ∅ entries)
    (funext fun map => funext fun entry => propagateGitStatus_eq map entry)

theorem lookup_statusColors (entries : List (String × String)) (path : String) :
    Finmap.lookup path (statusColors entries) =
      lastHighest gitStatusPriority (offered entries path) := by
  rw [statusColors_eq, Table.lookup_foldl_raise, offered]

theorem statusColors_concat (entries : List (String × String)) (entry : String × String) :
    propagateGitStatus (statusColors entries) entry.1 entry.2 =
      statusColors (entries ++ [entry]) := by
  rw [statusColors, statusColors, List.foldl_append, List.foldl_cons, List.foldl_nil]

/-- Two maps have the same paths, with statuses of the same priority. -/
def SamePriority (map map' : Table String String) : Prop :=
  ∀ path, (Finmap.lookup path map').map gitStatusPriority =
    (Finmap.lookup path map).map gitStatusPriority

section SameEntries

variable {entries entries' : List (String × String)}

theorem mem_offered_congr (h : ∀ entry, entry ∈ entries' ↔ entry ∈ entries)
    (path status : String) : status ∈ offered entries' path ↔ status ∈ offered entries path := by
  simp only [mem_offered, h]

theorem samePriority_of_entries (h : ∀ entry, entry ∈ entries' ↔ entry ∈ entries) :
    SamePriority (statusColors entries) (statusColors entries') := by
  intro path
  rw [lookup_statusColors, lookup_statusColors]
  exact priority_lastHighest_congr _ (mem_offered_congr h path)

theorem lookup_of_unrivalled (h : ∀ entry, entry ∈ entries' ↔ entry ∈ entries) {path : String}
    (hone : Unrivalled gitStatusPriority (offered entries path)) :
    Finmap.lookup path (statusColors entries') = Finmap.lookup path (statusColors entries) := by
  rw [lookup_statusColors, lookup_statusColors]
  exact lastHighest_congr (mem_offered_congr h path) hone

end SameEntries

/-- Each path has the last of the highest statuses it is given. Another order of the entries,
or one of them again, leaves the priorities as they are, and the status of each path for
which no two of the highest are different. -/
theorem statusColors_highest (entries : List (String × String)) :
    (∀ path, Finmap.lookup path (statusColors entries) =
      lastHighest gitStatusPriority (offered entries path)) ∧
    (∀ entries', entries'.Perm entries →
      SamePriority (statusColors entries) (statusColors entries') ∧
      ∀ path, Unrivalled gitStatusPriority (offered entries path) →
        Finmap.lookup path (statusColors entries') =
          Finmap.lookup path (statusColors entries)) ∧
    ∀ entry ∈ entries,
      SamePriority (statusColors entries)
        (propagateGitStatus (statusColors entries) entry.1 entry.2) ∧
      ∀ path, Unrivalled gitStatusPriority (offered entries path) →
        Finmap.lookup path (propagateGitStatus (statusColors entries) entry.1 entry.2) =
          Finmap.lookup path (statusColors entries) := by
  refine ⟨lookup_statusColors entries, ?_, ?_⟩
  · intro entries' hperm
    have hmem (entry : String × String) : entry ∈ entries' ↔ entry ∈ entries := hperm.mem_iff
    exact ⟨samePriority_of_entries hmem, fun path => lookup_of_unrivalled hmem⟩
  · intro entry hentry
    have hmem (other : String × String) : other ∈ entries ++ [entry] ↔ other ∈ entries := by
      rw [List.mem_append, List.mem_singleton]
      exact ⟨fun h => h.elim id fun heq => heq ▸ hentry, Or.inl⟩
    rw [statusColors_concat]
    exact ⟨samePriority_of_entries hmem, fun path => lookup_of_unrivalled hmem⟩

/-- Of two statuses of one priority the later stays, and one that is given again is the later. -/
theorem statusColors_order :
    Finmap.lookup "f" (statusColors [("f", "modified"), ("f", "conflict")]) = some "conflict" ∧
      Finmap.lookup "f" (statusColors [("f", "conflict"), ("f", "modified")]) =
        some "modified" ∧
      Finmap.lookup "f" (propagateGitStatus (statusColors [("f", "modified"), ("f", "conflict")])
        "f" "modified") = some "modified" := by
  decide +kernel

end HerdrWebui.Files
