import HerdrWebui.Data.Json
import HerdrWebui.Git.CommitDate

/-!
The rows of a worktree list, the latest commit first. The built-in backend compares the
dates as they are printed; the server parses them and compares the instants.
-/

namespace HerdrWebui.Git

def worktreeActivityKey (row : Json) : String := (row.getStr "last_commit_at").getD ""

/-- `sort_by_key` with the reversed key, which is stable. -/
def sortByActivity (rows : List Json) : List Json :=
  rows.mergeSort fun left right =>
    decide (worktreeActivityKey right ≤ worktreeActivityKey left)

def activityDateKeys : List String :=
  ["last_commit_at", "latest_commit_at", "last_commit_date", "latest_commit_date",
    "modified_at", "updated_at", "mtime", "last_modified_at"]

def activityTimestampKeys : List String :=
  ["last_commit_timestamp", "latest_commit_timestamp", "modified_timestamp",
    "updated_timestamp"]

def rowActivityDate (row : Json) : Option String := activityDateKeys.findSome? row.getStr

/-- `Value::as_i64`. -/
def asI64 : Json → Option Int
  | .number repr =>
    (parseSigned repr.toUTF8.data.toList).filter fun n => -2 ^ 63 ≤ n ∧ n < 2 ^ 63
  | _ => none

/-- The format `{:020}`: the sign counts for the width. -/
def padded20 (n : Int) : String :=
  String.ofList (if n < 0 then '-' :: decimal 19 n.natAbs else decimal 20 n.natAbs)

def worktreeActivitySortKey (row : Json) : String :=
  let stringKey := (rowActivityDate row).getD ""
  if stringKey.isEmpty then
    match activityTimestampKeys.findSome? fun key => (row.get key).bind asI64 with
    | some value => "1:" ++ padded20 value
    | none => "0:"
  else
    match parseWorktreeActivityTimestamp stringKey with
    | some timestamp => "2:" ++ padded20 (timestamp + 20000000000)
    | none => "2:" ++ stringKey

def worktreeActivityDisplay (value : String) : Option String :=
  let value := trim value
  let bytes := value.toUTF8.data.toList
  let pre := value.toList.take 16
  if bytes.length ≥ 16 ∧ bytes[10]? = some 'T'.toUInt8 then
    some (String.ofList (pre.map fun c => if c = 'T' then ' ' else c))
  else if bytes.length ≥ 16 ∧ bytes[10]? = some ' '.toUInt8 then some (String.ofList pre)
  else none

/-- `Map::insert`; the keys are in order. -/
def insertField (key : String) (value : Json) : JsonMap → JsonMap
  | [] => [(key, value)]
  | (key', value') :: fields =>
    if key < key' then (key, value) :: (key', value') :: fields
    else if key = key' then (key, value) :: fields
    else (key', value') :: insertField key value fields

/-- `insert` into a row that is an object. -/
def setField (key : String) (value : Json) : Json → Json
  | .object fields => .object (insertField key value fields)
  | row => row

/-- `entry(..).or_insert_with(..)` with a value that may be missing. -/
def orInsert (key : String) (value : Option String) (row : Json) : Json :=
  match value, row.get key with
  | some value, none => setField key (.string value) row
  | _, _ => row

/-- The last commit of a row's path with its date and its hash, if git finds one, is
`latestCommit`. -/
def enrichWorktreeActivity (latestCommit : Json → Option (String × String)) (row : Json) :
    Json :=
  let row :=
    if (rowActivityDate row).all fun value => (trim value).isEmpty then
      match latestCommit row with
      | some (date, hash) =>
        let row := setField "last_commit_at" (.string date) row
        if hash.isEmpty then row else setField "last_commit_hash" (.string hash) row
      | none => row
    else row
  orInsert "last_commit_display" ((rowActivityDate row).bind worktreeActivityDisplay) row

def pathBasename (path : String) : String :=
  String.ofList
    (((path.toList.reverse.dropWhile (· = '/')).takeWhile (· ≠ '/')).reverse)

/-- What the source of the response has for each row. -/
structure RowStamps where
  sourceWorkspaceId : Option String
  repoName : Option String
  repoKey : Option String
  repoRoot : Option String
  sourceCwd : Option String
  defaultDir : Option String
  repoLabel : Option String

def rowStamps (value : Json) : RowStamps :=
  let source := ((value.get "result").bind (·.get "source")).getD (.object [])
  let repoRoot := source.getStr "repo_root"
  let repoKey := source.getStr "repo_key"
  let repoName := ((source.getStr "repo_name").or repoKey).or repoRoot
  let nonempty (label : String) : Bool := !label.isEmpty
  { sourceWorkspaceId := source.getStr "source_workspace_id"
    repoName
    repoKey
    repoRoot
    sourceCwd := (source.getStr "source_checkout_path").or repoRoot
    defaultDir := source.getStr "default_worktree_directory"
    repoLabel :=
      (((repoName.map pathBasename).filter nonempty).or
        (repoRoot.map pathBasename)).filter nonempty }

def normalizeRow (latestCommit : Json → Option (String × String)) (stamps : RowStamps)
    (row : Json) : Json :=
  orInsert "repo_label" stamps.repoLabel <|
    orInsert "default_worktree_directory" stamps.defaultDir <|
      orInsert "source_cwd" stamps.sourceCwd <|
        orInsert "source_repo_root" stamps.repoRoot <|
          orInsert "source_repo_key" stamps.repoKey <|
            orInsert "source_repo_name" stamps.repoName <|
              orInsert "source_workspace_id" stamps.sourceWorkspaceId <|
                enrichWorktreeActivity latestCommit row

def sortByTimestamp (rows : List Json) : List Json :=
  rows.mergeSort fun left right =>
    decide (worktreeActivitySortKey right ≤ worktreeActivitySortKey left)

def normalizeRows (latestCommit : Json → Option (String × String)) (stamps : RowStamps)
    (rows : List Json) : List Json :=
  sortByTimestamp (rows.map (normalizeRow latestCommit stamps))

def modifyField (key : String) (f : Json → Json) : Json → Json
  | .object fields =>
    .object (fields.map fun field => if field.1 = key then (key, f field.2) else field)
  | value => value

def normalizeWorktreeResponse (latestCommit : Json → Option (String × String))
    (value : Json) : Json :=
  modifyField "result"
    (modifyField "worktrees" fun
      | .array rows => .array (normalizeRows latestCommit (rowStamps value) rows)
      | rows => rows) value

theorem lookup_insertField {key key' : String} (h : key' ≠ key) (value : Json)
    (fields : JsonMap) :
    List.lookup key (insertField key' value fields) = List.lookup key fields := by
  have hne : (key == key') = false := beq_false_of_ne h.symm
  induction fields with
  | nil => rw [insertField, List.lookup_cons, hne]
  | cons field fields ih =>
    rw [insertField]
    split
    · rw [List.lookup_cons, hne]
    · split
      · next heq =>
          rw [List.lookup_cons, List.lookup_cons, ← heq, hne]
      · rw [List.lookup_cons, List.lookup_cons, ih]

theorem getStr_orInsert {key key' : String} (h : key' ≠ key) (value : Option String)
    (row : Json) : (orInsert key' value row).getStr key = row.getStr key := by
  unfold orInsert
  split
  · cases row with
    | object fields =>
      rw [setField, Json.getStr, Json.getStr, Json.get, Json.get, Json.asObject, Json.asObject,
        Option.bind_some, Option.bind_some, lookup_insertField h]
    | _ => rfl
  · rfl

theorem getStr_normalizeRow (latestCommit : Json → Option (String × String))
    (stamps : RowStamps) {row : Json} {date : String}
    (h : row.getStr "last_commit_at" = some date) (hblank : (trim date).isEmpty = false) :
    (normalizeRow latestCommit stamps row).getStr "last_commit_at" = some date := by
  have hdate : rowActivityDate row = some date := by
    rw [rowActivityDate, activityDateKeys, List.findSome?_cons, h]
  rw [normalizeRow, getStr_orInsert (by decide), getStr_orInsert (by decide),
    getStr_orInsert (by decide), getStr_orInsert (by decide), getStr_orInsert (by decide),
    getStr_orInsert (by decide), getStr_orInsert (by decide), enrichWorktreeActivity, hdate,
    Option.all_some, hblank, if_neg Bool.false_ne_true, getStr_orInsert (by decide), h]

theorem lt_append_iff (pre text text' : String) : pre ++ text < pre ++ text' ↔ text < text' := by
  rw [String.lt_iff_toList_lt, String.lt_iff_toList_lt, String.toList_append,
    String.toList_append, append_lt_append_iff rfl]
  simp

theorem minus_lt_decimal {n : Nat} (h : n < 10 ^ 20) (rest : List Char) :
    '-' :: rest < decimal 20 n ∧ ¬decimal 20 n < '-' :: rest := by
  have hlength := length_decimal (by decide) h
  cases hdigits : decimal 20 n with
  | nil =>
    rw [hdigits] at hlength
    cases hlength
  | cons c chars =>
    obtain ⟨digit, hdigit, rfl⟩ :=
      mem_decimal (by decide) h (hdigits ▸ List.mem_cons_self : c ∈ decimal 20 n)
    apply mark_lt
    interval_cases digit <;> decide

/-- Padded numbers are in their order, but those below zero are in the opposite one. -/
theorem padded20_lt_iff {a b : Int} (ha : a.natAbs < 10 ^ 19) (hb : b.natAbs < 10 ^ 19) :
    padded20 a < padded20 b ↔ if b < 0 then a < 0 ∧ b < a else a < b := by
  have hpow : 10 ^ 19 < 10 ^ 20 := by decide
  rw [String.lt_iff_toList_lt, padded20, padded20, String.toList_ofList, String.toList_ofList]
  by_cases hneg : a < 0
  · by_cases hneg' : b < 0
    · rw [if_pos hneg, if_pos hneg', if_pos hneg', cons_lt_cons_self_iff,
        decimal_lt_iff (by decide) ha hb]
      omega
    · have hmark := minus_lt_decimal (hb.trans hpow) (decimal 19 a.natAbs)
      rw [if_pos hneg, if_neg hneg', if_neg hneg']
      exact iff_of_true hmark.1 (by omega)
  · by_cases hneg' : b < 0
    · have hmark := minus_lt_decimal (ha.trans hpow) (decimal 19 b.natAbs)
      rw [if_neg hneg, if_pos hneg', if_pos hneg']
      exact iff_of_false hmark.2 (by omega)
    · rw [if_neg hneg, if_neg hneg', if_neg hneg',
        decimal_lt_iff (by decide) (ha.trans hpow) (hb.trans hpow)]
      omega

/-- A row whose commit has a date. -/
structure DatedRow where
  row : Json
  date : CommitDate
  dated : row.getStr "last_commit_at" = some date.text

def LaterFirst (rows : List DatedRow) : Prop :=
  rows.Pairwise fun left right => right.date.instant ≤ left.date.instant

def worktreeRows (value : Json) : Option (List Json) :=
  ((value.get "result").bind (·.get "worktrees")).bind Json.asArray

/-- Both lists have the rows of the later commits first, so that they differ only in the
order of commits of the same second. -/
def OrdersAgree (latestCommit : Json → Option (String × String)) (value : Json)
    (rows : List DatedRow) : Prop :=
  ∃ builtin server : List DatedRow, builtin.Perm rows ∧ server.Perm rows ∧
    sortByActivity (rows.map (·.row)) = builtin.map (·.row) ∧
    worktreeRows (normalizeWorktreeResponse latestCommit value) =
      some (server.map fun dated => normalizeRow latestCommit (rowStamps value) dated.row) ∧
    LaterFirst builtin ∧ LaterFirst server ∧
    builtin.map (·.date.instant) = server.map (·.date.instant)

/-- The later of two clocks is also the later commit; where clocks show the same, the
offsets are harmless; and the later commit is not before the year 1336, where the
server's numbers are below zero. -/
def SafePair (d d' : CommitDate) : Prop :=
  (d.localSeconds < d'.localSeconds →
    d'.offset.seconds - d.offset.seconds ≤ d'.localSeconds - d.localSeconds) ∧
  (d.localSeconds = d'.localSeconds → d.offset.Harmless d'.offset) ∧
  (d.instant < d'.instant → -20000000000 ≤ d'.instant)

instance (d d' : CommitDate) : Decidable (SafePair d d') :=
  inferInstanceAs (Decidable (_ ∧ _ ∧ _))

theorem lookup_map_value (key : String) (f : Json → Json) (fields : JsonMap) :
    List.lookup key (fields.map fun field =>
      if field.1 = key then (key, f field.2) else field) = (List.lookup key fields).map f := by
  induction fields with
  | nil => rfl
  | cons field fields ih =>
    rw [List.map_cons, List.lookup_cons, List.lookup_cons, ih]
    by_cases hkey : field.1 = key
    · rw [if_pos hkey, hkey, beq_self_eq_true]
      rfl
    · rw [if_neg hkey, beq_false_of_ne (Ne.symm hkey)]

theorem get_modifyField (key : String) (f : Json → Json) (value : Json) :
    (modifyField key f value).get key = (value.get key).map f := by
  cases value with
  | object fields => exact lookup_map_value key f fields
  | _ => rfl

/-- The rows of the response are sorted, and nothing else of the list changes. -/
theorem worktreeRows_normalize (latestCommit : Json → Option (String × String)) {value : Json}
    {rows : List Json} (h : worktreeRows value = some rows) :
    worktreeRows (normalizeWorktreeResponse latestCommit value) =
      some (normalizeRows latestCommit (rowStamps value) rows) := by
  unfold worktreeRows at h ⊢
  obtain ⟨list, hlist, hrows⟩ := Option.bind_eq_some_iff.mp h
  obtain ⟨result, hresult, hlist⟩ := Option.bind_eq_some_iff.mp hlist
  obtain rfl : list = .array rows := by
    cases list <;> simp_all [Json.asArray]
  rw [normalizeWorktreeResponse, get_modifyField, hresult, Option.map_some, Option.bind_some,
    get_modifyField, hlist]
  rfl

section Sorting

variable {rows sorted : List DatedRow} {f : DatedRow → Json} {key : Json → String}

theorem exists_sorted (rows : List DatedRow) (f : DatedRow → Json) (key : Json → String) :
    ∃ sorted : List DatedRow, sorted.Perm rows ∧
      ((rows.map f).mergeSort fun left right => decide (key right ≤ key left)) =
        sorted.map f := by
  refine ⟨rows.mergeSort fun left right => decide (key (f right) ≤ key (f left)),
    List.mergeSort_perm _ _, Eq.symm ?_⟩
  apply List.map_mergeSort
  exact fun _ _ _ _ => rfl

theorem pairwise_sorted
    (h : ((rows.map f).mergeSort fun left right => decide (key right ≤ key left)) =
      sorted.map f) : sorted.Pairwise fun left right => key (f right) ≤ key (f left) := by
  have htrans (a b c : Json) (hab : decide (key b ≤ key a) = true)
      (hbc : decide (key c ≤ key b) = true) : decide (key c ≤ key a) = true := by
    exact decide_eq_true ((of_decide_eq_true hbc).trans (of_decide_eq_true hab))
  have htotal (a b : Json) : (decide (key b ≤ key a) || decide (key a ≤ key b)) = true := by
    rw [Bool.or_eq_true, decide_eq_true_iff, decide_eq_true_iff]
    exact le_total _ _
  have hpairs := List.pairwise_mergeSort htrans htotal (rows.map f)
  rw [h, List.pairwise_map] at hpairs
  exact hpairs.imp of_decide_eq_true

/-- Rows sorted by a key are in the order of their commits just if the key is. -/
theorem laterFirst_iff (rank : DatedRow → String) (hperm : sorted.Perm rows)
    (hrank : ∀ a b, rank a = rank b → a.date.instant = b.date.instant)
    (hsorted : sorted.Pairwise fun left right => rank right ≤ rank left) :
    LaterFirst sorted ↔
      ∀ a ∈ rows, ∀ b ∈ rows, a.date.instant < b.date.instant → rank a < rank b := by
  constructor
  · intro hlater a ha b hb hlt
    -- Of two rows in a sorted list the second is neither later nor larger.
    have hbefore : sorted.Pairwise fun a b =>
        a.date.instant < b.date.instant → rank a ≤ rank b :=
      hlater.imp fun hle hlt => absurd hle (not_le.mpr hlt)
    have hafter : sorted.Pairwise fun b a =>
        a.date.instant < b.date.instant → rank a ≤ rank b := by
      apply hsorted.imp
      exact fun hle _ => hle
    have hle := List.Pairwise.forall_of_forall_of_flip (fun _ _ _ => le_rfl) hbefore hafter
      (hperm.mem_iff.mpr ha) (hperm.mem_iff.mpr hb) hlt
    exact hle.lt_of_ne fun heq => hlt.ne (hrank a b heq)
  · intro h
    apply hsorted.imp_of_mem
    intro a b ha hb hle
    by_contra hlt
    have hrow := h a (hperm.mem_iff.mp ha) b (hperm.mem_iff.mp hb) (not_le.mp hlt)
    exact absurd hle (not_le.mpr hrow)

end Sorting

variable {rows : List DatedRow} {latestCommit : Json → Option (String × String)}
  {stamps : RowStamps}

theorem worktreeActivityKey_dated (dated : DatedRow) :
    worktreeActivityKey dated.row = dated.date.text := by
  rw [worktreeActivityKey, dated.dated]
  rfl

theorem worktreeActivitySortKey_dated (dated : DatedRow) :
    worktreeActivitySortKey (normalizeRow latestCommit stamps dated.row) =
      "2:" ++ padded20 (dated.date.instant + 20000000000) := by
  have hblank : (trim dated.date.text).isEmpty = false := by
    rw [CommitDate.trim_text, CommitDate.text_nonempty]
  have hdate : rowActivityDate (normalizeRow latestCommit stamps dated.row) =
      some dated.date.text := by
    rw [rowActivityDate, activityDateKeys, List.findSome?_cons,
      getStr_normalizeRow latestCommit stamps dated.dated hblank]
  rw [worktreeActivitySortKey, hdate, Option.getD_some, CommitDate.text_nonempty,
    if_neg Bool.false_ne_true, CommitDate.parse_text]

theorem text_lt_iff_of_instant (a b : CommitDate) :
    (a.instant < b.instant → a.text < b.text) ∧ (b.instant < a.instant → b.text < a.text) ↔
      (a.localSeconds < b.localSeconds →
        b.offset.seconds - a.offset.seconds ≤ b.localSeconds - a.localSeconds) ∧
      (b.localSeconds < a.localSeconds →
        a.offset.seconds - b.offset.seconds ≤ a.localSeconds - b.localSeconds) ∧
      (a.localSeconds = b.localSeconds → a.offset.Harmless b.offset) := by
  rw [CommitDate.text_lt_iff, CommitDate.text_lt_iff, UtcOffset.harmless_iff,
    CommitDate.instant, CommitDate.instant]
  rcases lt_trichotomy a.localSeconds b.localSeconds with h | h | h
  · simp only [h, h.ne, h.ne', h.not_gt, false_and, or_false, implies_true, true_and,
      imp_false, forall_true_left, and_true, IsEmpty.forall_iff]
    omega
  · simp only [h, lt_irrefl, true_and, false_or, IsEmpty.forall_iff, forall_true_left,
      sub_lt_sub_iff_left]
    tauto
  · simp only [h, h.ne, h.ne', h.not_gt, false_and, or_false, implies_true, true_and,
      imp_false, forall_true_left, and_true, IsEmpty.forall_iff]
    omega

theorem padded20_lt_iff_of_instant (a b : CommitDate) :
    (a.instant < b.instant →
        padded20 (a.instant + 20000000000) < padded20 (b.instant + 20000000000)) ↔
      (a.instant < b.instant → -20000000000 ≤ b.instant) := by
  have ha := a.natAbs_instant_lt
  have hb := b.natAbs_instant_lt
  rw [padded20_lt_iff (by omega) (by omega)]
  split <;> omega

theorem padded20_inj {a b : Int} (ha : a.natAbs < 10 ^ 19) (hb : b.natAbs < 10 ^ 19)
    (h : padded20 a = padded20 b) : a = b := by
  have hlt := mt (padded20_lt_iff ha hb).mpr (not_lt_of_ge h.ge)
  have hgt := mt (padded20_lt_iff hb ha).mpr (not_lt_of_ge h.le)
  split at hlt <;> split at hgt <;> omega

theorem builtin_laterFirst {builtin : List DatedRow} (hperm : builtin.Perm rows)
    (hsorted : sortByActivity (rows.map (·.row)) = builtin.map (·.row)) :
    LaterFirst builtin ↔ ∀ a ∈ rows, ∀ b ∈ rows,
      a.date.instant < b.date.instant → a.date.text < b.date.text := by
  apply laterFirst_iff (·.date.text) hperm fun a b => CommitDate.instant_eq_of_text
  apply (pairwise_sorted hsorted).imp
  intro a b hle
  rwa [worktreeActivityKey_dated, worktreeActivityKey_dated] at hle

theorem server_laterFirst {server : List DatedRow} (hperm : server.Perm rows)
    (hsorted : normalizeRows latestCommit stamps (rows.map (·.row)) =
      server.map fun dated => normalizeRow latestCommit stamps dated.row) :
    LaterFirst server ↔ ∀ a ∈ rows, ∀ b ∈ rows,
      a.date.instant < b.date.instant → -20000000000 ≤ b.date.instant := by
  rw [normalizeRows, List.map_map] at hsorted
  have hrank (a b : DatedRow)
      (heq : padded20 (a.date.instant + 20000000000) =
        padded20 (b.date.instant + 20000000000)) : a.date.instant = b.date.instant := by
    have ha := a.date.natAbs_instant_lt
    have hb := b.date.natAbs_instant_lt
    have hsame := padded20_inj (by omega) (by omega) heq
    omega
  have hpairs : server.Pairwise fun left right =>
      padded20 (right.date.instant + 20000000000) ≤
        padded20 (left.date.instant + 20000000000) := by
    apply (pairwise_sorted hsorted).imp
    intro a b hle
    rw [Function.comp_apply, Function.comp_apply, worktreeActivitySortKey_dated, worktreeActivitySortKey_dated] at hle
    rwa [← not_lt, lt_append_iff, not_lt] at hle
  rw [laterFirst_iff _ hperm hrank hpairs]
  simp only [padded20_lt_iff_of_instant]

/-- The two orders agree just if all pairs of rows are safe. -/
theorem ordersAgree_iff {value : Json} (h : worktreeRows value = some (rows.map (·.row))) :
    OrdersAgree latestCommit value rows ↔
      ∀ a ∈ rows, ∀ b ∈ rows, SafePair a.date b.date := by
  have hsafe : (∀ a ∈ rows, ∀ b ∈ rows, SafePair a.date b.date) ↔
      (∀ a ∈ rows, ∀ b ∈ rows, a.date.instant < b.date.instant → a.date.text < b.date.text) ∧
      ∀ a ∈ rows, ∀ b ∈ rows,
        a.date.instant < b.date.instant → -20000000000 ≤ b.date.instant := by
    constructor
    · intro hall
      constructor
      · intro a ha b hb
        have hab := hall a ha b hb
        exact ((text_lt_iff_of_instant a.date b.date).mpr
          ⟨hab.1, (hall b hb a ha).1, hab.2.1⟩).1
      · exact fun a ha b hb => (hall a ha b hb).2.2
    · rintro ⟨htext, hyear⟩ a ha b hb
      obtain ⟨hclock, -, hsame⟩ := (text_lt_iff_of_instant a.date b.date).mp
        ⟨htext a ha b hb, htext b hb a ha⟩
      exact ⟨hclock, hsame, hyear a ha b hb⟩
  rw [hsafe]
  constructor
  · rintro ⟨builtin, server, hbuiltin, hserver, hsorted, hsorted', hlater, hlater', -⟩
    rw [worktreeRows_normalize latestCommit h, Option.some_inj] at hsorted'
    exact ⟨(builtin_laterFirst hbuiltin hsorted).mp hlater,
      (server_laterFirst hserver hsorted').mp hlater'⟩
  · rintro ⟨htext, hyear⟩
    obtain ⟨builtin, hbuiltin, hsorted⟩ := exists_sorted rows (·.row) worktreeActivityKey
    obtain ⟨server, hserver, hsorted'⟩ := exists_sorted rows
      (fun dated => normalizeRow latestCommit (rowStamps value) dated.row)
      worktreeActivitySortKey
    have hsorted' : normalizeRows latestCommit (rowStamps value) (rows.map (·.row)) =
        server.map fun dated => normalizeRow latestCommit (rowStamps value) dated.row := by
      rw [normalizeRows, List.map_map]
      exact hsorted'
    have hlater := (builtin_laterFirst hbuiltin hsorted).mpr htext
    have hlater' := (server_laterFirst hserver hsorted').mpr hyear
    refine ⟨builtin, server, hbuiltin, hserver, hsorted, ?_, hlater, hlater', ?_⟩
    · rw [worktreeRows_normalize latestCommit h, hsorted']
    · -- Two lists of the same instants, the larger first.
      apply List.Perm.eq_of_pairwise' (r := (· ≥ ·)) (List.pairwise_map.mpr hlater)
        (List.pairwise_map.mpr hlater')
      exact (hbuiltin.trans hserver.symm).map _

section Example

def datedRow (date : CommitDate) : DatedRow where
  row := .object [("last_commit_at", .string date.text)]
  date
  dated := rfl

def listOf (rows : List DatedRow) : Json :=
  .object [("result", .object [("worktrees", .array (rows.map (·.row)))])]

theorem january_mem : 1 ≤ 1 ∧ 1 ≤ 12 := by decide

def easternDate (hour : Fin 24) : CommitDate where
  year := 2025
  month := 1
  day := 1
  hour
  minute := 0
  second := 0
  offset := .east 2 0
  year_lt := by decide
  month_mem := january_mem
  day_mem := by decide

def zuluDate : CommitDate where
  year := 2025
  month := 1
  day := 1
  hour := 8
  minute := 30
  second := 0
  offset := .utc
  year_lt := by decide
  month_mem := january_mem
  day_mem := by decide

example : (easternDate 10).text = "2025-01-01T10:00:00+02:00" := by decide +kernel

example : zuluDate.text = "2025-01-01T08:30:00Z" := by decide +kernel

theorem ordersAgree_noon :
    OrdersAgree (fun _ => none) (listOf [datedRow (easternDate 12), datedRow zuluDate])
      [datedRow (easternDate 12), datedRow zuluDate] := by
  apply (ordersAgree_iff rfl).mpr
  decide +kernel

/-- The commit of the east is half an hour the older, and the built-in backend lists it
first. -/
theorem not_ordersAgree_eastern :
    ¬OrdersAgree (fun _ => none) (listOf [datedRow (easternDate 10), datedRow zuluDate])
      [datedRow (easternDate 10), datedRow zuluDate] := by
  rintro ⟨builtin, -, hbuiltin, -, hsorted, -, hlater, -⟩
  have horder := (builtin_laterFirst hbuiltin hsorted).mp hlater (datedRow (easternDate 10))
    (by simp) (datedRow zuluDate) (by simp)
  revert horder
  decide +kernel

end Example

end HerdrWebui.Git
