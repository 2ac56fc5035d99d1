import HerdrWebui.Data.Chunks
import HerdrWebui.Data.Json
import HerdrWebui.Git.Processes
import HerdrWebui.Git.StatusState

/-!
The states the rail tints its workspaces by: one run for each folder, on up to eight
threads, and the answers put back in the order of the request.
-/

namespace HerdrWebui.Git

def RepoState.name : RepoState → String
  | .conflicts => "conflicts"
  | .dirty => "dirty"
  | .clean => "clean"

def railBranchFromStatus (status : String) : String :=
  ((lines status).findSome? (stripPrefix "# branch.head ")).getD ""

/-- The payload of a folder, with what git answers then. -/
def railStatus (env : GitEnv) (cwd : String) : JsonMap :=
  match (gitUiText env cwd ["status", "--porcelain=v2", "--branch"]).result with
  | .ok status =>
    [("cwd", .string cwd), ("branch", .string (railBranchFromStatus status)),
      ("state", .string (railStateFromStatus status).name)]
  | .error err =>
    if isNotGitRepository err then
      [("cwd", .string cwd), ("state", .string "cleanup only"),
        ("not_git_repository", .bool true)]
    else [("cwd", .string cwd), ("state", .string "unknown")]

/-- The slots of a thread and the folders it asked git about, in its order. -/
structure ThreadWork where
  slots : List (Option JsonMap)
  asked : List String

/-- A thread goes through its folders and its slots side by side. -/
def fillSlots (env : Nat → GitEnv) (place : Nat) :
    List String → List (Option JsonMap) → ThreadWork
  | cwd :: cwds, _ :: slots =>
    let rest := fillSlots env (place + 1) cwds slots
    ⟨some (railStatus (env place) cwd) :: rest.slots, cwd :: rest.asked⟩
  | _, slots => ⟨slots, []⟩

/-- A thread for each chunk; each has slots of its own, so they do not meet. -/
def runThreads (env : Nat → Nat → GitEnv) (thread : Nat) :
    List (List String) → List (List (Option JsonMap)) → List ThreadWork
  | cwds :: rest, slots :: more =>
    fillSlots (env thread) 0 cwds slots :: runThreads env (thread + 1) rest more
  | _, _ => []

/-- `status[key] = value` -/
def setKey (key : String) (value : Json) (fields : JsonMap) : JsonMap :=
  fields.filter (·.1 ≠ key) ++ [(key, value)]

def GitUiRailStatusItem.idJson (item : GitUiRailStatusItem) : Json :=
  match item.workspaceId with
  | some id => .string id
  | none => .null

def unknownStatus (item : GitUiRailStatusItem) : JsonMap :=
  [("workspace_id", item.idJson), ("cwd", .string item.cwd), ("state", .string "unknown")]

def railStatusReassemble (items : List GitUiRailStatusItem) (unique : List String)
    (computed : List (Option JsonMap)) : List JsonMap :=
  items.map fun item =>
    match unique.idxOf? item.cwd with
    | none => unknownStatus item
    | some idx =>
      match computed[idx]?.join with
      | none => unknownStatus item
      | some base => setKey "workspace_id" item.idJson base

/-- The answer, and the folders git was asked about. -/
structure RailAnswer where
  items : List JsonMap
  asked : List String

def railItems (cwds : List GitUiRailStatusItem) : List GitUiRailStatusItem :=
  cwds.filter fun item => trim item.cwd ≠ ""

/-- `none` is a panic: `chunks` has no chunks of size zero to give. The threads run at their
own pace, so each run of git has an environment of its own. -/
def gitRailStatusBlocking (env : Nat → Nat → GitEnv) (cwds : List GitUiRailStatusItem) :
    Option RailAnswer :=
  let items := railItems cwds
  let unique := firstSeen (·.cwd) items
  let computed : List (Option JsonMap) := List.replicate unique.length none
  let chunk := (unique.length + 7) / 8
  (chunks chunk unique).bind fun cwdChunks =>
    (chunks chunk computed).map fun slotChunks =>
      let threads := runThreads env 0 cwdChunks slotChunks
      ⟨railStatusReassemble items unique (threads.map (·.slots)).flatten,
        (threads.map (·.asked)).flatten⟩

section Threads

/-- A slot has the payload of its folder, from some run. -/
def Computed (env : Nat → Nat → GitEnv) (cwd : String) (slot : Option JsonMap) : Prop :=
  ∃ thread place, slot = some (railStatus (env thread place) cwd)

variable {env : Nat → Nat → GitEnv}

theorem fillSlots_spec (env : Nat → Nat → GitEnv) (thread place : Nat) {cwds : List String}
    {slots : List (Option JsonMap)} (h : cwds.length = slots.length) :
    List.Forall₂ (Computed env) cwds (fillSlots (env thread) place cwds slots).slots ∧
      (fillSlots (env thread) place cwds slots).asked = cwds := by
  induction cwds generalizing place slots with
  | nil =>
    obtain rfl : slots = [] := List.eq_nil_of_length_eq_zero h.symm
    exact ⟨.nil, rfl⟩
  | cons cwd cwds ih =>
    cases slots with
    | nil => cases h
    | cons slot slots =>
      obtain ⟨hslots, hasked⟩ := ih (place + 1) (Nat.succ.inj h)
      exact ⟨.cons ⟨thread, place, rfl⟩ hslots, congrArg (cwd :: ·) hasked⟩

theorem runThreads_spec (env : Nat → Nat → GitEnv) (thread : Nat) {cwds : List (List String)}
    {slots : List (List (Option JsonMap))}
    (h : List.Forall₂ (fun x y => x.length = y.length) cwds slots) :
    List.Forall₂ (List.Forall₂ (Computed env)) cwds
        ((runThreads env thread cwds slots).map (·.slots)) ∧
      (runThreads env thread cwds slots).map (·.asked) = cwds := by
  induction h generalizing thread with
  | nil => exact ⟨.nil, rfl⟩
  | cons hhead _ ih =>
    obtain ⟨hslots, hasked⟩ := fillSlots_spec env thread 0 hhead
    obtain ⟨hrest, hmore⟩ := ih (thread + 1)
    exact ⟨.cons hslots hrest, congrArg₂ List.cons hasked hmore⟩

/-- The answer to a request: every folder was asked about once, and each item with a folder
has its payload, under its own id and in its own place. -/
structure Answers (env : Nat → Nat → GitEnv) (cwds : List GitUiRailStatusItem)
    (answer : RailAnswer) : Prop where
  once : answer.asked.Nodup
  asked : ∀ cwd, cwd ∈ answer.asked ↔ cwd ∈ (railItems cwds).map (·.cwd)
  items : ∃ payload : String → JsonMap,
    (∀ cwd ∈ answer.asked, ∃ thread place, payload cwd = railStatus (env thread place) cwd) ∧
      answer.items = (railItems cwds).map fun item =>
        setKey "workspace_id" item.idJson (payload item.cwd)

def payloadOf (unique : List String) (computed : List (Option JsonMap)) (cwd : String) :
    JsonMap :=
  (computed[unique.idxOf cwd]?.join).getD []

theorem payloadOf_computed {unique : List String} {computed : List (Option JsonMap)}
    (h : List.Forall₂ (Computed env) unique computed) {cwd : String} (hmem : cwd ∈ unique) :
    computed[unique.idxOf cwd]?.join = some (payloadOf unique computed cwd) ∧
      ∃ thread place, payloadOf unique computed cwd = railStatus (env thread place) cwd := by
  have hlt : unique.idxOf cwd < unique.length := List.idxOf_lt_length_of_mem hmem
  have hlt' : unique.idxOf cwd < computed.length := h.length_eq ▸ hlt
  obtain ⟨thread, place, hslot⟩ := h.get hlt hlt'
  have hcwd : unique[unique.idxOf cwd] = cwd := List.getElem_idxOf hlt
  rw [List.get_eq_getElem, List.get_eq_getElem, hcwd] at hslot
  have hfound : computed[unique.idxOf cwd]?.join = some (railStatus (env thread place) cwd) := by
    rw [List.getElem?_eq_getElem hlt', hslot]
    rfl
  rw [payloadOf, hfound]
  exact ⟨rfl, thread, place, rfl⟩

theorem railStatusReassemble_eq {items : List GitUiRailStatusItem} {unique : List String}
    {computed : List (Option JsonMap)} (h : List.Forall₂ (Computed env) unique computed)
    (hitems : ∀ item ∈ items, item.cwd ∈ unique) :
    railStatusReassemble items unique computed =
      items.map fun item =>
        setKey "workspace_id" item.idJson (payloadOf unique computed item.cwd) := by
  apply List.map_congr_left
  intro item hitem
  have hmem := hitems item hitem
  have hidx : unique.idxOf? item.cwd = some (unique.idxOf item.cwd) := by
    cases hfound : unique.idxOf? item.cwd with
    | none => exact absurd hmem (List.idxOf?_eq_none_iff.mp hfound)
    | some idx => rw [List.idxOf_eq_getD_idxOf?, hfound, Option.getD_some]
  rw [hidx]
  dsimp only
  rw [(payloadOf_computed h hmem).1]

theorem mem_railItems {cwds : List GitUiRailStatusItem} {item : GitUiRailStatusItem} :
    item ∈ railItems cwds ↔ item ∈ cwds ∧ trim item.cwd ≠ "" := by
  rw [railItems, List.mem_filter, decide_eq_true_iff]

def railFolders (cwds : List GitUiRailStatusItem) : List String :=
  firstSeen (·.cwd) (railItems cwds)

theorem mem_railFolders {cwds : List GitUiRailStatusItem} {cwd : String} :
    cwd ∈ railFolders cwds ↔ cwd ∈ (railItems cwds).map (·.cwd) :=
  (firstSeen_spec GitUiRailStatusItem.cwd (railItems cwds)).2 cwd

theorem gitRailStatusBlocking_eq_none {cwds : List GitUiRailStatusItem}
    (h : railFolders cwds = []) : gitRailStatusBlocking env cwds = none := by
  have hunique : firstSeen GitUiRailStatusItem.cwd (railItems cwds) = [] := h
  rw [gitRailStatusBlocking, hunique]
  rfl

theorem gitRailStatusBlocking_answers {cwds : List GitUiRailStatusItem}
    (h : railFolders cwds ≠ []) :
    ∃ answer, gitRailStatusBlocking env cwds = some answer ∧ Answers env cwds answer := by
  set unique := railFolders cwds with hunique
  have hpos : 0 < unique.length := List.length_pos_iff.mpr h
  obtain ⟨size, hsize⟩ : ∃ size, (unique.length + 7) / 8 = size + 1 :=
    ⟨(unique.length + 7) / 8 - 1, by omega⟩
  have hlengths := cut_lengths size unique (List.replicate unique.length (none : Option JsonMap))
    List.length_replicate.symm
  obtain ⟨hslots, hasked⟩ := runThreads_spec env 0 hlengths
  have hcomputed := forall₂_flatten hslots
  rw [flatten_cut] at hcomputed
  set threads := runThreads env 0 (cut size unique)
    (cut size (List.replicate unique.length none))
  have hrun : gitRailStatusBlocking env cwds =
      some ⟨railStatusReassemble (railItems cwds) unique (threads.map (·.slots)).flatten,
        (threads.map (·.asked)).flatten⟩ := by
    change ((chunks ((unique.length + 7) / 8) unique).bind fun cwdChunks =>
      (chunks ((unique.length + 7) / 8) (List.replicate unique.length none)).map
        fun slotChunks => _) = _
    rw [hsize]
    rfl
  have hfolders : (threads.map (·.asked)).flatten = unique := by
    rw [hasked, flatten_cut]
  refine ⟨_, hrun, ?_, ?_, payloadOf unique (threads.map (·.slots)).flatten, ?_, ?_⟩
  · rw [hfolders]
    exact (firstSeen_spec GitUiRailStatusItem.cwd (railItems cwds)).1
  · intro cwd
    rw [hfolders]
    exact mem_railFolders
  · intro cwd hcwd
    rw [hfolders] at hcwd
    exact (payloadOf_computed hcomputed hcwd).2
  · apply railStatusReassemble_eq hcomputed
    intro item hitem
    exact mem_railFolders.mpr (List.mem_map_of_mem hitem)

/-- The request is answered just where an item has a folder: with none of them there are no
chunks to cut. -/
theorem gitRailStatusBlocking_answers_iff (env : Nat → Nat → GitEnv)
    (cwds : List GitUiRailStatusItem) :
    (∃ answer, gitRailStatusBlocking env cwds = some answer ∧ Answers env cwds answer) ↔
      ∃ item ∈ cwds, trim item.cwd ≠ "" := by
  constructor
  · rintro ⟨answer, hanswer, -⟩
    have hne : railFolders cwds ≠ [] := by
      intro hnil
      rw [gitRailStatusBlocking_eq_none hnil] at hanswer
      cases hanswer
    obtain ⟨cwd, hcwd⟩ := List.exists_mem_of_ne_nil _ hne
    obtain ⟨item, hitem, -⟩ := List.mem_map.mp (mem_railFolders.mp hcwd)
    exact ⟨item, mem_railItems.mp hitem⟩
  · rintro ⟨item, hitem⟩
    apply gitRailStatusBlocking_answers
    apply List.ne_nil_of_mem (a := item.cwd)
    exact mem_railFolders.mpr (List.mem_map_of_mem (mem_railItems.mpr hitem))

/-- The empty request is a panic. -/
theorem gitRailStatusBlocking_empty :
    ¬∀ (env : Nat → Nat → GitEnv) (cwds : List GitUiRailStatusItem),
      ∃ answer, gitRailStatusBlocking env cwds = some answer ∧ Answers env cwds answer := by
  intro h
  obtain ⟨answer, hanswer, -⟩ := h (fun _ _ => ⟨none, fun _ => .error ""⟩) []
  cases hanswer

end Threads

end HerdrWebui.Git
