import HerdrWebui.Data.Chunks
import HerdrWebui.Terminal.Paste
import HerdrWebui.Transcript.Turns

/-!
The evidence rows of the session store. A sweep lists the directory and reads again only the
files whose time or size has changed; between two sweeps the rows of the cache are served as
they are. What a sweep answers is what a fresh index would, as long as time and size tell the
texts of a session apart.
-/

namespace HerdrWebui.Transcript

/-- A file of the store: its metadata and its text, where they can be had. -/
structure StoreFile where
  name : String
  generation : Option (Nat × Nat)
  text : Option String
deriving DecidableEq, Repr

structure SessionEvidence where
  sessionId : String
  workingDir : String
  lastPid : Nat
  statusActive : Bool
  generation : Nat × Nat
deriving DecidableEq, Repr

/-- `session_id_of`: snapshots and journals, and nothing else. -/
def sessionIdOf (name : String) : Option String :=
  ((stripSuffix ".journal.jsonl" name).or (stripSuffix ".json" name)).filter
    (hasPrefix "session_")

def StoreFile.sessionId (file : StoreFile) : Option String := sessionIdOf file.name

def StoreFile.isSnapshot (file : StoreFile) : Bool := !hasSuffix ".journal.jsonl" file.name

def evidenceFrom (sessionId : String) (generation : Nat × Nat) (value : Json) :
    Option SessionEvidence := do
  let workingDir ← value.getStr "working_dir"
  let lastPid ← Terminal.getU64 value "last_pid"
  return ⟨sessionId, workingDir, lastPid % 2 ^ 32, value.getStr "status" == some "Active",
    generation⟩

section Sweep

variable (fromStr : String → Option Json)

/-- The last line of a journal with evidence in its meta, or what a snapshot has. -/
def readEvidence (file : StoreFile) (sessionId : String) (generation : Nat × Nat) :
    Option SessionEvidence :=
  if hasSuffix ".jsonl" file.name then
    file.text.bind fun text =>
      (lines text).reverse.findSome? fun line =>
        (fromStr line).bind fun parsed =>
          (parsed.get "meta").bind (evidenceFrom sessionId generation)
  else
    file.text.bind fun text =>
      (fromStr text).bind (evidenceFrom sessionId generation)

/-- The files of a session, the snapshot before the journal. -/
def candidateFiles (files : List StoreFile) (sessionId : String) : List StoreFile :=
  let own := files.filter (·.sessionId = some sessionId)
  own.filter StoreFile.isSnapshot ++ own.filter (!·.isSnapshot)

def listedSessions (files : List StoreFile) : List String :=
  firstSeen id (files.filterMap StoreFile.sessionId)

abbrev EvidenceCache := List (String × SessionEvidence)

/-- The first file of a session that is unchanged or has evidence. -/
def sweepFiles (cache : EvidenceCache) (sessionId : String) :
    List StoreFile → EvidenceCache × Option SessionEvidence
  | [] => (cache, none)
  | file :: rest =>
    match file.generation with
    | none => sweepFiles cache sessionId rest
    | some generation =>
      let cached := cache.lookup sessionId
      if (cached.map (·.generation)) = some generation then (cache, cached)
      else
        match readEvidence fromStr file sessionId generation with
        | some evidence => (insertKey sessionId evidence cache, some evidence)
        | none => sweepFiles cache sessionId rest

def sweepSessions (files : List StoreFile) (cache : EvidenceCache) :
    List String → EvidenceCache × List SessionEvidence
  | [] => (cache, [])
  | sessionId :: rest =>
    let swept := sweepFiles fromStr cache sessionId (candidateFiles files sessionId)
    let more := sweepSessions files swept.1 rest
    (more.1, swept.2.toList ++ more.2)

structure JcodeStoreIndex where
  cache : EvidenceCache
  lastSweep : Option Nat

def JcodeStoreIndex.new : JcodeStoreIndex := ⟨[], none⟩

def sweepTtl : Nat := 250000000

/-- The directory, unless it cannot be listed, and the time. -/
structure RefreshCall where
  store : Option (List StoreFile)
  now : Nat

def JcodeStoreIndex.throttled (index : JcodeStoreIndex) (now : Nat) : Bool :=
  match index.lastSweep with
  | none => false
  | some swept => now - swept < sweepTtl && !index.cache.isEmpty

def JcodeStoreIndex.refresh (index : JcodeStoreIndex) (call : RefreshCall) :
    List SessionEvidence × JcodeStoreIndex :=
  if index.throttled call.now then (index.cache.map (·.2), index)
  else
    match call.store with
    | none => (index.cache.map (·.2), { index with lastSweep := some call.now })
    | some files =>
      let swept := sweepSessions fromStr files index.cache (listedSessions files)
      (swept.2, ⟨swept.1.filter (·.1 ∈ listedSessions files), some call.now⟩)

end Sweep

section Evidence

variable {fromStr : String → Option Json}

theorem evidenceFrom_eq_some {sessionId : String} {generation : Nat × Nat} {value : Json}
    {row : SessionEvidence} (h : evidenceFrom sessionId generation value = some row) :
    row.sessionId = sessionId ∧ row.generation = generation := by
  obtain ⟨workingDir, -, h⟩ := Option.bind_eq_some_iff.mp h
  obtain ⟨lastPid, -, h⟩ := Option.bind_eq_some_iff.mp h
  obtain rfl := Option.some.inj h
  exact ⟨rfl, rfl⟩

theorem readEvidence_eq_some {file : StoreFile} {sessionId : String} {generation : Nat × Nat}
    {row : SessionEvidence} (h : readEvidence fromStr file sessionId generation = some row) :
    row.sessionId = sessionId ∧ row.generation = generation := by
  rw [readEvidence] at h
  split at h
  · obtain ⟨text, -, h⟩ := Option.bind_eq_some_iff.mp h
    obtain ⟨line, -, h⟩ := List.exists_of_findSome?_eq_some h
    obtain ⟨parsed, -, h⟩ := Option.bind_eq_some_iff.mp h
    obtain ⟨field, -, h⟩ := Option.bind_eq_some_iff.mp h
    exact evidenceFrom_eq_some h
  · obtain ⟨text, -, h⟩ := Option.bind_eq_some_iff.mp h
    obtain ⟨parsed, -, h⟩ := Option.bind_eq_some_iff.mp h
    exact evidenceFrom_eq_some h

/-- The file was in the directory at one of the calls. -/
def FileSeen (history : List RefreshCall) (file : StoreFile) : Prop :=
  ∃ call ∈ history, ∃ files, call.store = some files ∧ file ∈ files

/-- A row was read at one of the calls, from a file of its session and its generation. -/
def Evidenced (fromStr : String → Option Json) (history : List RefreshCall) (sessionId : String)
    (row : SessionEvidence) : Prop :=
  ∃ file, FileSeen history file ∧ file.sessionId = some sessionId ∧
    file.generation = some row.generation ∧
      readEvidence fromStr file sessionId row.generation = some row

/-- Time and size tell the files of a session apart. -/
def GenerationsTell (history : List RefreshCall) : Prop :=
  ∀ file file', FileSeen history file → FileSeen history file' →
    ∀ sessionId generation, file.sessionId = some sessionId →
      file'.sessionId = some sessionId → file.generation = some generation →
        file'.generation = some generation → file.name = file'.name ∧ file.text = file'.text

structure CacheOk (fromStr : String → Option Json) (history : List RefreshCall)
    (cache : EvidenceCache) : Prop where
  keys : (cache.map Prod.fst).Nodup
  evidenced : ∀ sessionId row, cache.lookup sessionId = some row →
    Evidenced fromStr history sessionId row

/-- The cached row of a session is what a file of its generation has. -/
def Tells (fromStr : String → Option Json) (files : List StoreFile) (cache : EvidenceCache)
    (sessionId : String) : Prop :=
  ∀ row, cache.lookup sessionId = some row → ∀ file ∈ candidateFiles files sessionId,
    file.generation = some row.generation →
      readEvidence fromStr file sessionId row.generation = some row

theorem mem_candidateFiles {files : List StoreFile} {sessionId : String} {file : StoreFile} :
    file ∈ candidateFiles files sessionId ↔ file ∈ files ∧ file.sessionId = some sessionId := by
  rw [candidateFiles]
  cases hsnapshot : file.isSnapshot <;> simp [hsnapshot]

theorem CacheOk.tells {history : List RefreshCall} {files : List StoreFile}
    {cache : EvidenceCache} (h : CacheOk fromStr history cache)
    (hseen : ∀ file ∈ files, FileSeen history file) (htell : GenerationsTell history)
    (sessionId : String) : Tells fromStr files cache sessionId := by
  intro row hrow file hfile hgeneration
  obtain ⟨hmem, hsession⟩ := mem_candidateFiles.mp hfile
  obtain ⟨source, hsource, hid, hsame, hread⟩ := h.evidenced sessionId row hrow
  obtain ⟨hname, htext⟩ := htell file source (hseen file hmem) hsource sessionId
    row.generation hsession hid hgeneration hsame
  rw [readEvidence, hname, htext]
  exact hread

/-- What an index without a cache reads of a session. -/
def freshEvidence (fromStr : String → Option Json) (sessionId : String) :
    List StoreFile → Option SessionEvidence :=
  List.findSome? fun file =>
    file.generation.bind (readEvidence fromStr file sessionId)

variable {history : List RefreshCall} {files : List StoreFile} {cache : EvidenceCache}

/-- What the files of a session leave of the cache, and the row they give. -/
structure SessionSwept (fromStr : String → Option Json) (history : List RefreshCall)
    (todo : List StoreFile) (cache : EvidenceCache) (sessionId : String)
    (swept : EvidenceCache × Option SessionEvidence) : Prop where
  cacheOk : CacheOk fromStr history swept.1
  others : ∀ other, other ≠ sessionId → swept.1.lookup other = cache.lookup other
  keys : ∀ key, key ∈ swept.1.map Prod.fst → key ∈ cache.map Prod.fst ∨ key = sessionId
  kept : ∀ row, swept.2 = some row → row.sessionId = sessionId ∧
    swept.1.lookup sessionId = some row ∧ ∃ file ∈ todo, file.generation = some row.generation
  found : (freshEvidence fromStr sessionId todo).isSome → swept.2.isSome

theorem Evidenced.sessionId {sessionId : String} {row : SessionEvidence}
    (h : Evidenced fromStr history sessionId row) : row.sessionId = sessionId := by
  obtain ⟨file, -, -, -, hread⟩ := h
  exact (readEvidence_eq_some hread).1

theorem sweepFiles_swept {sessionId : String} (hcache : CacheOk fromStr history cache)
    {todo : List StoreFile}
    (htodo : ∀ file ∈ todo, FileSeen history file ∧ file.sessionId = some sessionId) :
    SessionSwept fromStr history todo cache sessionId
      (sweepFiles fromStr cache sessionId todo) := by
  induction todo with
  | nil =>
    refine ⟨hcache, fun _ _ => rfl, fun _ => .inl, fun row hrow => ?_, fun h => ?_⟩
    · cases hrow
    · cases h
  | cons file rest ih =>
    rw [List.forall_mem_cons] at htodo
    have hrest := ih htodo.2
    have hskip (hread : file.generation.bind (readEvidence fromStr file sessionId) = none) :
        SessionSwept fromStr history (file :: rest) cache sessionId
          (sweepFiles fromStr cache sessionId rest) := by
      refine ⟨hrest.cacheOk, hrest.others, hrest.keys, fun row hrow => ?_, fun hsome => ?_⟩
      · obtain ⟨hid, hlookup, other, hother, hgeneration⟩ := hrest.kept row hrow
        exact ⟨hid, hlookup, other, List.mem_cons_of_mem _ hother, hgeneration⟩
      · rw [freshEvidence, List.findSome?_cons, hread] at hsome
        exact hrest.found hsome
    rw [sweepFiles]
    split
    · next hnone => exact hskip (by rw [hnone]; rfl)
    · next generation hgeneration =>
        dsimp only
        split
        · next hfresh =>
            obtain ⟨row, hrow, hsame⟩ := Option.map_eq_some_iff.mp hfresh
            refine ⟨hcache, fun _ _ => rfl, fun _ => .inl, fun other hother => ?_,
              fun _ => by rw [hrow]; rfl⟩
            obtain rfl : row = other := Option.some.inj (hrow.symm.trans hother)
            refine ⟨(hcache.evidenced sessionId row hrow).sessionId, hrow, file,
              List.mem_cons_self, ?_⟩
            rw [hgeneration, hsame]
        · split
          · next row hread =>
              obtain ⟨hid, hsame⟩ := readEvidence_eq_some hread
              have hlookup := lookup_insertKey sessionId sessionId row cache
              rw [if_pos rfl] at hlookup
              refine ⟨⟨nodup_keys_insertKey hcache.keys, fun other found hfound => ?_⟩,
                fun other hne => ?_, fun key hkey => ?_, fun other hother => ?_, fun _ => rfl⟩
              · rw [lookup_insertKey] at hfound
                split at hfound
                · next heq =>
                    subst heq
                    obtain rfl := Option.some.inj hfound
                    refine ⟨file, htodo.1.1, htodo.1.2, ?_, ?_⟩
                    · rw [hgeneration, hsame]
                    · rw [hsame]
                      exact hread
                · exact hcache.evidenced other found hfound
              · rw [lookup_insertKey, if_neg hne]
              · rcases List.mem_cons.mp hkey with heq | hold
                · exact .inr heq
                · exact .inl ((List.filter_sublist.map _).subset hold)
              · obtain rfl := Option.some.inj hother
                refine ⟨hid, hlookup, file, List.mem_cons_self, ?_⟩
                rw [hgeneration, hsame]
          · next hread => exact hskip (by rw [hgeneration]; exact hread)

/-- Where the cached row tells what its generation has, the row is the one a fresh index
reads. -/
theorem sweepFiles_eq_fresh {sessionId : String} {todo : List StoreFile}
    (htells : ∀ row, cache.lookup sessionId = some row → ∀ file ∈ todo,
      file.generation = some row.generation →
        readEvidence fromStr file sessionId row.generation = some row) :
    (sweepFiles fromStr cache sessionId todo).2 = freshEvidence fromStr sessionId todo := by
  induction todo with
  | nil => rfl
  | cons file rest ih =>
    have hrest := ih fun row hrow other hother =>
      htells row hrow other (List.mem_cons_of_mem _ hother)
    rw [sweepFiles, freshEvidence, List.findSome?_cons]
    cases hgeneration : file.generation with
    | none => exact hrest
    | some generation =>
      dsimp only [Option.bind_some]
      split
      · next hfresh =>
          obtain ⟨row, hrow, rfl⟩ := Option.map_eq_some_iff.mp hfresh
          rw [htells row hrow file List.mem_cons_self hgeneration]
          exact hrow
      · cases hread : readEvidence fromStr file sessionId generation with
        | some row => rfl
        | none => exact hrest

/-- What a sweep leaves of the cache, and its rows. -/
structure SessionsSwept (fromStr : String → Option Json) (history : List RefreshCall)
    (files : List StoreFile) (cache : EvidenceCache) (ids : List String)
    (swept : EvidenceCache × List SessionEvidence) : Prop where
  cacheOk : CacheOk fromStr history swept.1
  others : ∀ other, other ∉ ids → swept.1.lookup other = cache.lookup other
  keys : ∀ key, key ∈ swept.1.map Prod.fst → key ∈ cache.map Prod.fst ∨ key ∈ ids
  sessions : (swept.2.map (·.sessionId)).Sublist ids
  kept : ∀ row ∈ swept.2, swept.1.lookup row.sessionId = some row ∧
    ∃ file ∈ candidateFiles files row.sessionId, file.generation = some row.generation
  found : ∀ sessionId ∈ ids,
    (freshEvidence fromStr sessionId (candidateFiles files sessionId)).isSome →
      ∃ row ∈ swept.2, row.sessionId = sessionId
  fresh : (∀ sessionId ∈ ids, Tells fromStr files cache sessionId) →
    swept.2 = ids.filterMap fun sessionId =>
      freshEvidence fromStr sessionId (candidateFiles files sessionId)

theorem sweepSessions_swept (hseen : ∀ file ∈ files, FileSeen history file) {ids : List String}
    (hids : ids.Nodup) (hcache : CacheOk fromStr history cache) :
    SessionsSwept fromStr history files cache ids (sweepSessions fromStr files cache ids) := by
  induction ids generalizing cache with
  | nil =>
    exact ⟨hcache, fun _ _ => rfl, fun _ => .inl, List.Sublist.refl _,
      fun row hrow => absurd hrow List.not_mem_nil,
      fun _ hmem => absurd hmem List.not_mem_nil, fun _ => rfl⟩
  | cons sessionId ids ih =>
    obtain ⟨hnew, hids⟩ := List.nodup_cons.mp hids
    have htodo : ∀ file ∈ candidateFiles files sessionId,
        FileSeen history file ∧ file.sessionId = some sessionId := fun file hfile =>
      ⟨hseen file (mem_candidateFiles.mp hfile).1, (mem_candidateFiles.mp hfile).2⟩
    have hfirst := sweepFiles_swept hcache htodo
    have hrest := ih hids hfirst.cacheOk
    rw [sweepSessions]
    set swept := sweepFiles fromStr cache sessionId (candidateFiles files sessionId)
      with hswept
    set more := sweepSessions fromStr files swept.1 ids
    refine ⟨hrest.cacheOk, fun other hother => ?_, fun key hkey => ?_, ?_, fun row hrow => ?_,
      fun other hother hsome => ?_, fun htells => ?_⟩
    · rw [List.mem_cons, not_or] at hother
      exact (hrest.others other hother.2).trans (hfirst.others other hother.1)
    · rcases hrest.keys key hkey with hold | hmem
      · rcases hfirst.keys key hold with hold | rfl
        · exact .inl hold
        · exact .inr List.mem_cons_self
      · exact .inr (List.mem_cons_of_mem _ hmem)
    · dsimp only
      cases hrow : swept.2 with
      | none => exact hrest.sessions.cons _
      | some row =>
        obtain ⟨hid, -⟩ := hfirst.kept row hrow
        rw [Option.toList_some, List.singleton_append, List.map_cons, hid]
        exact hrest.sessions.cons_cons _
    · rcases List.mem_append.mp hrow with hfound | hlater
      · obtain ⟨hid, hlookup, hfile⟩ := hfirst.kept row (Option.mem_toList.mp hfound)
        rw [← hid] at hlookup hfile hnew
        exact ⟨(hrest.others row.sessionId hnew).trans hlookup, hfile⟩
      · exact hrest.kept row hlater
    · rcases List.mem_cons.mp hother with rfl | hmem
      · obtain ⟨row, hrow⟩ := Option.isSome_iff_exists.mp (hfirst.found hsome)
        refine ⟨row, List.mem_append_left _ ?_, (hfirst.kept row hrow).1⟩
        rw [hrow]
        exact List.mem_singleton_self row
      · obtain ⟨row, hrow, hid⟩ := hrest.found other hmem hsome
        exact ⟨row, List.mem_append_right _ hrow, hid⟩
    · rw [List.forall_mem_cons] at htells
      have hhead : swept.2 = freshEvidence fromStr sessionId (candidateFiles files sessionId) :=
        sweepFiles_eq_fresh htells.1
      have htail : more.2 = ids.filterMap fun sessionId =>
          freshEvidence fromStr sessionId (candidateFiles files sessionId) := by
        apply hrest.fresh
        intro other hother row hrow
        have hne : other ≠ sessionId := fun heq => hnew (heq ▸ hother)
        rw [hfirst.others other hne] at hrow
        exact htells.2 other hother row hrow
      dsimp only
      rw [hhead, htail, List.filterMap_cons]
      cases freshEvidence fromStr sessionId (candidateFiles files sessionId) with
      | none => rfl
      | some row => rfl

end Evidence

/-- A sweep that could list the directory. -/
structure Sweep where
  files : List StoreFile
  rows : List SessionEvidence

/-- The index, and the last sweep that could list the directory. -/
structure Refreshed where
  index : JcodeStoreIndex
  last : Option Sweep

section Runs

variable {fromStr : String → Option Json}

def Refreshed.step (fromStr : String → Option Json) (s : Refreshed) (call : RefreshCall) :
    Refreshed :=
  let answered := s.index.refresh fromStr call
  ⟨answered.2,
    if s.index.throttled call.now then s.last
    else (call.store.map fun files => ⟨files, answered.1⟩).or s.last⟩

def refreshRun (fromStr : String → Option Json) (calls : List RefreshCall) : Refreshed :=
  calls.foldl (Refreshed.step fromStr) ⟨.new, none⟩

theorem FileSeen.mono {history history' : List RefreshCall} (hsub : history ⊆ history')
    {file : StoreFile} (h : FileSeen history file) : FileSeen history' file := by
  obtain ⟨call, hcall, files, hfiles⟩ := h
  exact ⟨call, hsub hcall, files, hfiles⟩

theorem CacheOk.mono {history history' : List RefreshCall} (hsub : history ⊆ history')
    {cache : EvidenceCache} (h : CacheOk fromStr history cache) :
    CacheOk fromStr history' cache := by
  refine ⟨h.keys, fun sessionId row hrow => ?_⟩
  obtain ⟨file, hseen, hfile⟩ := h.evidenced sessionId row hrow
  exact ⟨file, hseen.mono hsub, hfile⟩

theorem CacheOk.nil (history : List RefreshCall) : CacheOk fromStr history [] :=
  ⟨List.nodup_nil, fun _ _ h => absurd h (Option.some_ne_none _).symm⟩

/-- What the index keeps: the rows of its last sweep are in the cache, and the cache has
rows of no session that was not listed then. -/
structure IndexKept (fromStr : String → Option Json) (history : List RefreshCall)
    (s : Refreshed) : Prop where
  cacheOk : CacheOk fromStr history s.index.cache
  unswept : s.last = none → s.index.cache = []
  rows : ∀ sweep, s.last = some sweep → ∀ row ∈ sweep.rows,
    s.index.cache.lookup row.sessionId = some row
  listed : ∀ sweep, s.last = some sweep → ∀ key ∈ s.index.cache.map Prod.fst,
    key ∈ listedSessions sweep.files

theorem nodup_listedSessions (files : List StoreFile) : (listedSessions files).Nodup :=
  (firstSeen_spec id _).1

theorem sweep_swept {history : List RefreshCall} {s : Refreshed} {call : RefreshCall}
    {files : List StoreFile} (h : IndexKept fromStr history s) (hstore : call.store = some files) :
    SessionsSwept fromStr (history ++ [call]) files s.index.cache (listedSessions files)
      (sweepSessions fromStr files s.index.cache (listedSessions files)) := by
  apply sweepSessions_swept
  · intro file hfile
    exact ⟨call, List.mem_append_right _ (List.mem_singleton_self call), files, hstore, hfile⟩
  · exact nodup_listedSessions files
  · exact h.cacheOk.mono (List.subset_append_left _ _)

theorem step_kept {history : List RefreshCall} {s : Refreshed} (call : RefreshCall)
    (h : IndexKept fromStr history s) :
    IndexKept fromStr (history ++ [call]) (s.step fromStr call) := by
  have hold := h.cacheOk.mono (List.subset_append_left history [call])
  rw [Refreshed.step, JcodeStoreIndex.refresh]
  cases hthrottled : s.index.throttled call.now with
  | true => exact ⟨hold, h.unswept, h.rows, h.listed⟩
  | false =>
    cases hstore : call.store with
    | none => exact ⟨hold, h.unswept, h.rows, h.listed⟩
    | some files =>
      have hswept := sweep_swept h hstore
      set swept := sweepSessions fromStr files s.index.cache (listedSessions files)
      have hlookup (key : String) (hkey : key ∈ listedSessions files) :
          (swept.1.filter (·.1 ∈ listedSessions files)).lookup key = swept.1.lookup key :=
        lookup_filter_key (p := fun key => key ∈ listedSessions files) (decide_eq_true hkey)
      refine ⟨⟨hswept.cacheOk.keys.sublist (List.filter_sublist.map _), ?_⟩, fun hnone => ?_,
        fun sweep hsweep row hrow => ?_, fun sweep hsweep key hkey => ?_⟩
      · intro sessionId row hrow
        have hnodup := hswept.cacheOk.keys.sublist
          ((List.filter_sublist (p := fun entry => entry.1 ∈ listedSessions files)).map _)
        have hmem := (mem_iff_lookup hnodup).mpr hrow
        exact hswept.cacheOk.evidenced sessionId row
          ((mem_iff_lookup hswept.cacheOk.keys).mp (List.mem_of_mem_filter hmem))
      · cases hnone
      · obtain rfl := Option.some.inj hsweep
        have hsession := hswept.sessions.subset (List.mem_map_of_mem hrow)
        exact (hlookup _ hsession).trans (hswept.kept row hrow).1
      · obtain rfl := Option.some.inj hsweep
        obtain ⟨entry, hentry, rfl⟩ := List.mem_map.mp hkey
        exact of_decide_eq_true (List.mem_filter.mp hentry).2

theorem refreshRun_kept (calls : List RefreshCall) :
    IndexKept fromStr calls (refreshRun fromStr calls) := by
  induction calls using List.reverseRecOn with
  | nil =>
    refine ⟨.nil [], fun _ => rfl, fun _ h => ?_, fun _ h => ?_⟩
    · cases h
    · cases h
  | append_singleton calls call ih =>
    rw [refreshRun, List.foldl_append]
    exact step_kept call ih

/-- What a call answers after others. A sweep answers with one row for each session it has
evidence of, read from a file of the time and size of one that is there now, and with the
rows of a fresh index where time and size tell texts apart. In between, and where the
directory cannot be listed, every row of the last sweep is answered, and where that sweep
had a row of every session it listed, no other. -/
structure AnswersLikeFresh (fromStr : String → Option Json) (calls : List RefreshCall)
    (call : RefreshCall) (s : Refreshed) (answer : List SessionEvidence) : Prop where
  oneRow : (answer.map (·.sessionId)).Nodup
  current : s.index.throttled call.now = false → ∀ files, call.store = some files →
    ∀ row ∈ answer, Evidenced fromStr (calls ++ [call]) row.sessionId row ∧
      ∃ file ∈ files, file.sessionId = some row.sessionId ∧
        file.generation = some row.generation
  complete : s.index.throttled call.now = false → ∀ files, call.store = some files →
    ∀ sessionId ∈ listedSessions files,
      (freshEvidence fromStr sessionId (candidateFiles files sessionId)).isSome →
        ∃ row ∈ answer, row.sessionId = sessionId
  fresh : s.index.throttled call.now = false → call.store.isSome →
    GenerationsTell (calls ++ [call]) →
      answer = (JcodeStoreIndex.new.refresh fromStr call).1
  unswept : s.index.throttled call.now = true ∨ call.store = none → s.last = none → answer = []
  served : s.index.throttled call.now = true ∨ call.store = none → ∀ sweep,
    s.last = some sweep →
      (∀ row ∈ sweep.rows, row ∈ answer) ∧
      (∀ row ∈ answer, row.sessionId ∈ listedSessions sweep.files) ∧
      ((∀ sessionId ∈ listedSessions sweep.files, ∃ row ∈ sweep.rows,
        row.sessionId = sessionId) → ∀ row ∈ answer, row ∈ sweep.rows)

theorem CacheOk.sessionIds {history : List RefreshCall} {cache : EvidenceCache}
    (h : CacheOk fromStr history cache) :
    (cache.map (·.2)).map (·.sessionId) = cache.map Prod.fst := by
  rw [List.map_map]
  apply List.map_congr_left
  rintro ⟨key, row⟩ hmem
  exact (h.evidenced key row ((mem_iff_lookup h.keys).mp hmem)).sessionId

theorem CacheOk.mem_rows {history : List RefreshCall} {cache : EvidenceCache}
    (h : CacheOk fromStr history cache) {row : SessionEvidence} :
    row ∈ cache.map (·.2) ↔ cache.lookup row.sessionId = some row := by
  rw [← mem_iff_lookup h.keys, List.mem_map]
  constructor
  · rintro ⟨⟨key, row⟩, hmem, rfl⟩
    have hid := (h.evidenced key row ((mem_iff_lookup h.keys).mp hmem)).sessionId
    exact hid.symm ▸ hmem
  · exact fun hmem => ⟨_, hmem, rfl⟩

theorem new_refresh (call : RefreshCall) :
    (JcodeStoreIndex.new.refresh fromStr call).1 =
      match call.store with
      | none => []
      | some files => (listedSessions files).filterMap fun sessionId =>
        freshEvidence fromStr sessionId (candidateFiles files sessionId) := by
  rw [JcodeStoreIndex.refresh]
  cases hstore : call.store with
  | none => rfl
  | some files =>
    have hseen : ∀ file ∈ files, FileSeen [call] file := fun file hfile =>
      ⟨call, List.mem_singleton_self call, files, hstore, hfile⟩
    have hcache : CacheOk fromStr [call] [] := .nil [call]
    have hswept := sweepSessions_swept hseen (nodup_listedSessions files) hcache
    apply hswept.fresh
    intro sessionId _ row hrow
    cases hrow

theorem refresh_answers (fromStr : String → Option Json) (calls : List RefreshCall)
    (call : RefreshCall) :
    AnswersLikeFresh fromStr calls call (refreshRun fromStr calls)
      ((refreshRun fromStr calls).index.refresh fromStr call).1 := by
  have hkept : IndexKept fromStr calls (refreshRun fromStr calls) := refreshRun_kept calls
  set s := refreshRun fromStr calls
  have hcached (h : s.index.throttled call.now = true ∨ call.store = none) :
      (s.index.refresh fromStr call).1 = s.index.cache.map (·.2) := by
    rw [JcodeStoreIndex.refresh]
    split
    · rfl
    · next hthrottled => rw [h.resolve_left hthrottled]
  have hswept (hthrottled : s.index.throttled call.now = false) (files : List StoreFile)
      (hstore : call.store = some files) : (s.index.refresh fromStr call).1 =
        (sweepSessions fromStr files s.index.cache (listedSessions files)).2 := by
    rw [JcodeStoreIndex.refresh, hthrottled, hstore]
    rfl
  refine ⟨?_, fun hthrottled files hstore row hrow => ?_,
    fun hthrottled files hstore => ?_, fun hthrottled hstore htell => ?_,
    fun hserved hlast => ?_, fun hserved sweep hsweep => ?_⟩
  · by_cases hserved : s.index.throttled call.now = true ∨ call.store = none
    · rw [hcached hserved, hkept.cacheOk.sessionIds]
      exact hkept.cacheOk.keys
    · rw [not_or, Bool.not_eq_true] at hserved
      obtain ⟨files, hstore⟩ := Option.ne_none_iff_exists'.mp hserved.2
      rw [hswept hserved.1 files hstore]
      exact (nodup_listedSessions files).sublist (sweep_swept hkept hstore).sessions
  · rw [hswept hthrottled files hstore] at hrow
    have hsweep := sweep_swept hkept hstore
    obtain ⟨hlookup, file, hfile, hgeneration⟩ := hsweep.kept row hrow
    obtain ⟨hmem, hsession⟩ := mem_candidateFiles.mp hfile
    exact ⟨hsweep.cacheOk.evidenced _ row hlookup, file, hmem, hsession, hgeneration⟩
  · rw [hswept hthrottled files hstore]
    exact (sweep_swept hkept hstore).found
  · obtain ⟨files, hfiles⟩ := Option.isSome_iff_exists.mp hstore
    have hsweep := sweep_swept hkept hfiles
    have hcache := hkept.cacheOk.mono (List.subset_append_left calls [call])
    rw [hswept hthrottled files hfiles, new_refresh, hfiles]
    apply hsweep.fresh
    intro sessionId _
    apply hcache.tells _ htell
    intro file hfile
    exact ⟨call, List.mem_append_right _ (List.mem_singleton_self call), files, hfiles, hfile⟩
  · rw [hcached hserved, hkept.unswept hlast]
    rfl
  · rw [hcached hserved]
    refine ⟨fun row hrow => ?_, fun row hrow => ?_, fun hall row hrow => ?_⟩
    · exact hkept.cacheOk.mem_rows.mpr (hkept.rows sweep hsweep row hrow)
    · apply hkept.listed sweep hsweep
      have hlookup := hkept.cacheOk.mem_rows.mp hrow
      exact List.mem_map.mpr ⟨_, (mem_iff_lookup hkept.cacheOk.keys).mpr hlookup, rfl⟩
    · have hlookup := hkept.cacheOk.mem_rows.mp hrow
      have hlisted := hkept.listed sweep hsweep row.sessionId
        (List.mem_map.mpr ⟨_, (mem_iff_lookup hkept.cacheOk.keys).mpr hlookup, rfl⟩)
      obtain ⟨other, hother, hid⟩ := hall row.sessionId hlisted
      have hsame := hkept.rows sweep hsweep other hother
      rw [hid, hlookup] at hsame
      exact Option.some.inj hsame ▸ hother

/-- A snapshot that is written again within its time and its size is not read again. -/
theorem refresh_stale :
    ¬∀ (fromStr : String → Option Json) (calls : List RefreshCall) (call : RefreshCall),
      (refreshRun fromStr calls).index.throttled call.now = false →
        ((refreshRun fromStr calls).index.refresh fromStr call).1 =
          (JcodeStoreIndex.new.refresh fromStr call).1 := by
  intro h
  have hsame := h
    (fun text => some (.object [("working_dir", .string text), ("last_pid", .number "7")]))
    [⟨some [⟨"session_a.json", some (1, 2), some "/a"⟩], 0⟩]
    ⟨some [⟨"session_a.json", some (1, 2), some "/b"⟩], 1000000000⟩ (by decide +kernel)
  exact absurd hsame (by decide +kernel)

end Runs

end HerdrWebui.Transcript
