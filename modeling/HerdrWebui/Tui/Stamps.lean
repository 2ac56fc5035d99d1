import HerdrWebui.Concurrency.System
import HerdrWebui.Tui.Snapshot

/-!
Worktree stamps of the workspace rows (`tui/mod.rs`): the cache of
`worktree.list` replies, the workers that fetch them, and the invalidation a
branch switch ends with.

A run interleaves refreshes, worker replies, polls, branch switches and
invalidations in any order. The backend's history is counted by its branch
switches, and every reply carries the count at which it was produced. Once a
cwd has been invalidated no row there may show a reply from before its last
switch. That fails when a worker already holds such a reply: the invalidation
drops the cache and the rows but not the worker, and the next poll caches and
stamps what it brings. It holds in every run that invalidates a cwd only while
no worker for it holds a reply of the old branch.
-/

namespace HerdrWebui.Tui

open Concurrency

/-- `STAMP_CACHE_TTL`, in milliseconds. -/
def stampCacheTtl : Nat := 2000

structure StampCacheEntry where
  fetchedAt : Nat
  response : WorktreeReply

/-- The cache entry is served at the time `now`. -/
def StampCacheEntry.isFresh (entry : StampCacheEntry) (now : Nat) : Bool :=
  decide (now - entry.fetchedAt ≤ stampCacheTtl)

/-- What the receiver of a worker's channel is waiting for. A reply that was
produced and has not arrived reads as `Empty`; a dead worker as `Disconnected`. -/
inductive StampReceiver where
  | asked
  | answered (reply : WorktreeReply)
  | landed (result : Option WorktreeReply)
  | died

structure StampInflight where
  cwd : String
  receiver : StampReceiver

/-- The fields of the interface that worktree stamps live in. -/
structure StampBoard where
  workspaces : List TuiWorkspace
  stampCache : Table String StampCacheEntry
  stampInflight : List StampInflight

namespace StampBoard

/-- `apply_cached_stamps`, for one row. -/
def cachedStamp (canonicalize : String → Option String) (now : Nat)
    (cache : Table String StampCacheEntry) (workspace : TuiWorkspace) : TuiWorkspace :=
  if workspace.worktree.isSome then workspace
  else
    match cache.lookup workspace.cwd with
    | none => workspace
    | some entry =>
      if entry.isFresh now then
        match parseWorktreeListResponse canonicalize entry.response workspace.cwd with
        | none => workspace
        | some stamp => { workspace with worktree := some stamp }
      else workspace

def applyCachedStamps (canonicalize : String → Option String) (now : Nat)
    (board : StampBoard) : StampBoard :=
  { board with
    workspaces := board.workspaces.map (cachedStamp canonicalize now board.stampCache) }

/-- `spawn_stamp_fetches`, for one row. -/
def armFetch (now : Nat) (cache : Table String StampCacheEntry)
    (inflight : List StampInflight) (workspace : TuiWorkspace) : List StampInflight :=
  if workspace.cwd = "" ∨ workspace.worktree.isSome ∨
      ((cache.lookup workspace.cwd).any fun entry => entry.isFresh now) ∨
      (inflight.any fun worker => worker.cwd = workspace.cwd) then
    inflight
  else inflight ++ [⟨workspace.cwd, .asked⟩]

def spawnStampFetches (now : Nat) (board : StampBoard) : StampBoard :=
  { board with
    stampInflight :=
      board.workspaces.foldl (armFetch now board.stampCache) board.stampInflight }

def commitStamp (canonicalize : String → Option String) (now : Nat) (cwd : String)
    (response : WorktreeReply) (board : StampBoard) : StampBoard :=
  let cached := { board with stampCache := board.stampCache.insert cwd ⟨now, response⟩ }
  match parseWorktreeListResponse canonicalize response cwd with
  | none => cached
  | some stamp =>
    { cached with
      workspaces := board.workspaces.map fun workspace =>
        if workspace.cwd = cwd ∧ workspace.worktree.isNone then
          { workspace with worktree := some stamp }
        else workspace }

/-- One turn of `poll_stamp_fetches`. The workers that still wait are kept. -/
def pollWorker (canonicalize : String → Option String) (now : Nat) (board : StampBoard)
    (worker : StampInflight) : StampBoard :=
  match worker.receiver with
  | .landed (some response) => commitStamp canonicalize now worker.cwd response board
  | .landed none | .died => board
  | .asked | .answered _ =>
    { board with stampInflight := board.stampInflight ++ [worker] }

def pollStampFetches (canonicalize : String → Option String) (now : Nat)
    (board : StampBoard) : StampBoard :=
  board.stampInflight.foldl (pollWorker canonicalize now) { board with stampInflight := [] }

def invalidateStamp (cwd : String) (board : StampBoard) : StampBoard :=
  { board with
    stampCache := board.stampCache.erase cwd
    workspaces := board.workspaces.map fun workspace =>
      if workspace.cwd = cwd then { workspace with worktree := none } else workspace }

end StampBoard

/-- The reply a worker holds, whether or not it has arrived. -/
def StampReceiver.held : StampReceiver → Option WorktreeReply
  | .answered reply => some reply
  | .landed result => result
  | .asked | .died => none

/-- A row shows no reply from before the point `since` of the backend's history. -/
def TuiWorkspace.StampedSince (workspace : TuiWorkspace) (since : Nat) : Prop :=
  ∀ stamp ∈ workspace.worktree, ∀ n ∈ stamp.answered, since ≤ n

instance (workspace : TuiWorkspace) (since : Nat) :
    Decidable (workspace.StampedSince since) :=
  inferInstanceAs (Decidable (∀ stamp ∈ workspace.worktree, ∀ n ∈ stamp.answered, since ≤ n))

/-- What a worker holds is no reply from before the point `since`. -/
def StampInflight.HeldSince (worker : StampInflight) (since : Nat) : Prop :=
  ∀ reply ∈ worker.receiver.held, since ≤ reply.answered

instance (worker : StampInflight) (since : Nat) : Decidable (worker.HeldSince since) :=
  inferInstanceAs (Decidable (∀ reply ∈ worker.receiver.held, since ≤ reply.answered))

/-- Nothing on the board comes from before the point `since cwd` of its own cwd. -/
structure StampBoard.Since (since : String → Nat) (board : StampBoard) : Prop where
  rows : ∀ workspace ∈ board.workspaces, workspace.StampedSince (since workspace.cwd)
  cache : ∀ cwd entry, board.stampCache.lookup cwd = some entry →
    since cwd ≤ entry.response.answered
  inflight : ∀ worker ∈ board.stampInflight, worker.HeldSince (since worker.cwd)

namespace StampBoard

variable {canonicalize : String → Option String} {now : Nat} {since : String → Nat}
  {board : StampBoard}

theorem stampedSince_of_unstamped {workspace : TuiWorkspace} (h : workspace.worktree = none)
    (n : Nat) : workspace.StampedSince n := by
  intro stamp hstamp
  rw [h] at hstamp
  cases hstamp

theorem stampedSince_of_reply {workspace : TuiWorkspace} {stamp : TuiWorktreeStamp}
    {reply : WorktreeReply} {n : Nat}
    (hparse : parseWorktreeListResponse canonicalize reply workspace.cwd = some stamp)
    (hreply : n ≤ reply.answered) :
    TuiWorkspace.StampedSince { workspace with worktree := some stamp } n := by
  intro stamp' hstamp m hanswered
  obtain rfl : stamp = stamp' := by simpa using hstamp
  obtain rfl : reply.answered = m := by
    simpa [parseWorktreeListResponse_answered hparse] using hanswered
  exact hreply

@[simp] theorem cachedStamp_cwd (cache : Table String StampCacheEntry)
    (workspace : TuiWorkspace) :
    (cachedStamp canonicalize now cache workspace).cwd = workspace.cwd := by
  unfold cachedStamp
  repeat' split
  all_goals rfl

theorem applyCachedStamps_since (h : board.Since since) :
    (applyCachedStamps canonicalize now board).Since since := by
  refine ⟨?_, h.cache, h.inflight⟩
  intro workspace hmem
  obtain ⟨row, hrow, rfl⟩ := List.mem_map.mp hmem
  rw [cachedStamp_cwd]
  have hold := h.rows row hrow
  unfold cachedStamp
  split
  · exact hold
  · split
    · exact hold
    · next entry hentry =>
        split
        · split
          · exact hold
          · next stamp hparse =>
              exact stampedSince_of_reply hparse (h.cache _ _ hentry)
        · exact hold

theorem armFetch_since {cache : Table String StampCacheEntry} {workspace : TuiWorkspace}
    {inflight : List StampInflight}
    (h : ∀ worker ∈ inflight, worker.HeldSince (since worker.cwd)) :
    ∀ worker ∈ armFetch now cache inflight workspace,
      worker.HeldSince (since worker.cwd) := by
  intro worker hmem
  unfold armFetch at hmem
  split at hmem
  · exact h worker hmem
  · rcases List.mem_append.mp hmem with hold | hnew
    · exact h worker hold
    · obtain rfl := List.mem_singleton.mp hnew
      intro reply hheld
      cases hheld

theorem spawnStampFetches_since (h : board.Since since) :
    (spawnStampFetches now board).Since since := by
  refine ⟨h.rows, h.cache, ?_⟩
  refine List.foldlRecOn
    (motive := fun inflight : List StampInflight =>
      ∀ worker ∈ inflight, worker.HeldSince (since worker.cwd))
    board.workspaces _ h.inflight ?_
  intro inflight hinflight workspace _
  exact armFetch_since hinflight

theorem commitStamp_since {cwd : String} {response : WorktreeReply} (h : board.Since since)
    (hresponse : since cwd ≤ response.answered) :
    (commitStamp canonicalize now cwd response board).Since since := by
  have hcache : ∀ cwd' entry,
      (board.stampCache.insert cwd ⟨now, response⟩).lookup cwd' = some entry →
        since cwd' ≤ entry.response.answered := by
    intro cwd' entry hentry
    rcases Table.lookup_insert_eq_some.mp hentry with ⟨rfl, rfl⟩ | ⟨-, hold⟩
    · exact hresponse
    · exact h.cache _ _ hold
  unfold commitStamp
  split
  · exact ⟨h.rows, hcache, h.inflight⟩
  · next stamp hparse =>
      refine ⟨?_, hcache, h.inflight⟩
      intro workspace hmem
      obtain ⟨row, hrow, rfl⟩ := List.mem_map.mp hmem
      split
      · next hcwd =>
          obtain ⟨rfl, -⟩ := hcwd
          exact stampedSince_of_reply hparse hresponse
      · exact h.rows row hrow

theorem pollWorker_since {worker : StampInflight} (h : board.Since since)
    (hworker : worker.HeldSince (since worker.cwd)) :
    (pollWorker canonicalize now board worker).Since since := by
  have hkept : StampBoard.Since since
      { board with stampInflight := board.stampInflight ++ [worker] } := by
    refine ⟨h.rows, h.cache, ?_⟩
    intro worker' hmem
    rcases List.mem_append.mp hmem with hold | hnew
    · exact h.inflight worker' hold
    · obtain rfl := List.mem_singleton.mp hnew
      exact hworker
  unfold pollWorker
  split
  · next response hreceiver =>
      apply commitStamp_since h
      apply hworker
      rw [hreceiver]
      rfl
  · exact h
  · exact h
  · exact hkept
  · exact hkept

theorem pollStampFetches_since (h : board.Since since) :
    (pollStampFetches canonicalize now board).Since since := by
  unfold pollStampFetches
  refine List.foldlRecOn (motive := StampBoard.Since since) board.stampInflight _
    ⟨h.rows, h.cache, by simp⟩ ?_
  intro polled hpolled worker hmem
  exact pollWorker_since hpolled (h.inflight worker hmem)

/-- An invalidated cwd may be held to any later point, as long as the workers
for it are. -/
theorem invalidateStamp_since {cwd : String} {n : Nat} (h : board.Since since)
    (hworkers : ∀ worker ∈ board.stampInflight, worker.cwd = cwd → worker.HeldSince n) :
    (invalidateStamp cwd board).Since (Function.update since cwd n) := by
  refine ⟨?_, ?_, ?_⟩
  · intro workspace hmem
    obtain ⟨row, hrow, rfl⟩ := List.mem_map.mp hmem
    split
    · exact stampedSince_of_unstamped rfl _
    · next hcwd =>
        rw [Function.update_of_ne hcwd]
        exact h.rows row hrow
  · intro cwd' entry hentry
    obtain ⟨hne, hold⟩ := Table.lookup_erase_eq_some.mp hentry
    rw [Function.update_of_ne hne]
    exact h.cache cwd' entry hold
  · intro worker hmem
    by_cases hcwd : worker.cwd = cwd
    · rw [hcwd, Function.update_self]
      exact hworkers worker hmem hcwd
    · rw [Function.update_of_ne hcwd]
      exact h.inflight worker hmem

theorem refreshed_since {workspaces : List TuiWorkspace} (h : board.Since since)
    (hrows : ∀ workspace ∈ workspaces, ∀ stamp ∈ workspace.worktree, stamp.answered = none) :
    StampBoard.Since since { board with workspaces } := by
  refine ⟨?_, h.cache, h.inflight⟩
  intro workspace hmem stamp hstamp n hn
  rw [hrows workspace hmem stamp hstamp] at hn
  cases hn

end StampBoard

/-- A run of the stamps beside the backend's history. The two clocks of a cwd
are not in the source: `lastSwitch` is its last branch switch, `freshFrom` its
last switch at the time it was last invalidated. -/
structure StampRun where
  board : StampBoard
  now : Nat
  switches : Nat
  lastSwitch : String → Nat
  freshFrom : String → Nat

/-- What can happen next. The workers are named by their position. -/
inductive StampAction where
  | refresh (canonicalize : String → Option String) (snapshot : Json)
  | answer (worker : Nat) (response : Json)
  | land (worker : Nat)
  | fail (worker : Nat)
  | die (worker : Nat)
  | poll (canonicalize : String → Option String)
  | elapse (milliseconds : Nat)
  | switch (cwd : String)
  | invalidate (cwd : String)

/-- A request is answered with the repository's state at that moment. -/
def StampReceiver.answer (reply : WorktreeReply) : StampReceiver → Option StampReceiver
  | .asked => some (.answered reply)
  | _ => none

def StampReceiver.land : StampReceiver → Option StampReceiver
  | .answered reply => some (.landed (some reply))
  | _ => none

/-- A round trip may fail before or after it was answered. -/
def StampReceiver.fail : StampReceiver → Option StampReceiver
  | .asked | .answered _ => some (.landed none)
  | _ => none

def StampReceiver.die : StampReceiver → Option StampReceiver
  | .asked | .answered _ => some .died
  | _ => none

def StampBoard.advance (board : StampBoard) (i : Nat)
    (next : StampReceiver → Option StampReceiver) : Option StampBoard := do
  let worker ← board.stampInflight[i]?
  let receiver ← next worker.receiver
  pure { board with stampInflight := board.stampInflight.set i { worker with receiver } }

namespace StampRun

def step (run : StampRun) : StampAction → Option StampRun
  | .refresh canonicalize snapshot =>
    let workspaces := (TuiSnapshot.fromBackendResponse canonicalize snapshot).workspaces
    some
      { run with
        board :=
          ({ run.board with workspaces } : StampBoard)
            |>.applyCachedStamps canonicalize run.now
            |>.spawnStampFetches run.now }
  | .answer i response =>
    (run.board.advance i (StampReceiver.answer ⟨response, run.switches⟩)).map
      fun board => { run with board }
  | .land i => (run.board.advance i StampReceiver.land).map fun board => { run with board }
  | .fail i => (run.board.advance i StampReceiver.fail).map fun board => { run with board }
  | .die i => (run.board.advance i StampReceiver.die).map fun board => { run with board }
  | .poll canonicalize =>
    some { run with board := run.board.pollStampFetches canonicalize run.now }
  | .elapse milliseconds => some { run with now := run.now + milliseconds }
  | .switch cwd =>
    some
      { run with
        switches := run.switches + 1
        lastSwitch := Function.update run.lastSwitch cwd (run.switches + 1) }
  | .invalidate cwd =>
    some
      { run with
        board := run.board.invalidateStamp cwd
        freshFrom := Function.update run.freshFrom cwd (run.lastSwitch cwd) }

def Starts (run : StampRun) : Prop :=
  run.board = ⟨[], ∅, []⟩ ∧ run.switches = 0 ∧ run.lastSwitch = (fun _ => 0) ∧
    run.freshFrom = fun _ => 0

def system : System StampRun StampAction := ⟨Starts, step⟩

/-- No row of an invalidated cwd shows a reply from before its switch. -/
def NeverStale (run : StampRun) : Prop :=
  ∀ workspace ∈ run.board.workspaces, workspace.StampedSince (run.freshFrom workspace.cwd)

instance (run : StampRun) : Decidable run.NeverStale :=
  inferInstanceAs (Decidable (∀ workspace ∈ run.board.workspaces, _))

/-- A cwd is invalidated while no worker for it holds a reply from before the
switch. -/
def InvalidatesClear (run : StampRun) : StampAction → Prop
  | .invalidate cwd =>
    ∀ worker ∈ run.board.stampInflight, worker.cwd = cwd →
      worker.HeldSince (run.lastSwitch cwd)
  | _ => True

instance (run : StampRun) (action : StampAction) :
    Decidable (run.InvalidatesClear action) :=
  match action with
  | .invalidate cwd =>
    inferInstanceAs (Decidable (∀ worker ∈ run.board.stampInflight, worker.cwd = cwd → _))
  | .refresh .. | .answer .. | .land .. | .fail .. | .die .. | .poll .. | .elapse ..
  | .switch .. => .isTrue trivial

/-- What every such run keeps: nothing on the board is older than the last
invalidated switch of its cwd, and no switch lies in the future. -/
structure Current (run : StampRun) : Prop where
  board : run.board.Since run.freshFrom
  fresh : ∀ cwd, run.freshFrom cwd ≤ run.lastSwitch cwd
  last : ∀ cwd, run.lastSwitch cwd ≤ run.switches

theorem advance_since {board board' : StampBoard} {since : String → Nat} {i : Nat}
    {next : StampReceiver → Option StampReceiver} (h : board.Since since)
    (hnext : ∀ cwd receiver receiver', next receiver = some receiver' →
      StampInflight.HeldSince ⟨cwd, receiver⟩ (since cwd) →
        StampInflight.HeldSince ⟨cwd, receiver'⟩ (since cwd))
    (hadvance : board.advance i next = some board') : board'.Since since := by
  simp only [StampBoard.advance, Option.bind_eq_bind, Option.bind_eq_some_iff,
    Option.pure_def, Option.some.injEq] at hadvance
  obtain ⟨worker, hworker, receiver, hreceiver, rfl⟩ := hadvance
  refine ⟨h.rows, h.cache, ?_⟩
  intro worker' hmem
  rcases List.mem_or_eq_of_mem_set hmem with hold | rfl
  · exact h.inflight worker' hold
  · exact hnext _ _ _ hreceiver (h.inflight worker (List.mem_of_getElem? hworker))

theorem current_of_starts {run : StampRun} (h : run.Starts) : run.Current := by
  obtain ⟨hboard, hswitches, hlast, hfresh⟩ := h
  refine ⟨?_, by simp [hlast, hfresh], by simp [hlast]⟩
  rw [hboard]
  exact ⟨by simp, by simp, by simp⟩

theorem Current.advance {run : StampRun} {board : StampBoard} {i : Nat}
    {next : StampReceiver → Option StampReceiver} (h : run.Current)
    (hnext : ∀ cwd receiver receiver', next receiver = some receiver' →
      StampInflight.HeldSince ⟨cwd, receiver⟩ (run.freshFrom cwd) →
        StampInflight.HeldSince ⟨cwd, receiver'⟩ (run.freshFrom cwd))
    (hadvance : run.board.advance i next = some board) :
    StampRun.Current { run with board } :=
  ⟨advance_since h.board hnext hadvance, h.fresh, h.last⟩

theorem Current.heldSince_answer {run : StampRun} (h : run.Current) {response : Json}
    {cwd : String} {receiver receiver' : StampReceiver}
    (hanswer : StampReceiver.answer ⟨response, run.switches⟩ receiver = some receiver') :
    StampInflight.HeldSince ⟨cwd, receiver'⟩ (run.freshFrom cwd) := by
  cases receiver with
  | asked =>
    cases hanswer
    intro reply hreply
    cases hreply
    exact (h.fresh cwd).trans (h.last cwd)
  | answered _ => cases hanswer
  | landed _ => cases hanswer
  | died => cases hanswer

theorem heldSince_land {cwd : String} {n : Nat} {receiver receiver' : StampReceiver}
    (hland : receiver.land = some receiver') (h : StampInflight.HeldSince ⟨cwd, receiver⟩ n) :
    StampInflight.HeldSince ⟨cwd, receiver'⟩ n := by
  cases receiver with
  | answered reply =>
    cases hland
    exact h
  | asked => cases hland
  | landed _ => cases hland
  | died => cases hland

theorem heldSince_of_none {cwd : String} {n : Nat} {receiver : StampReceiver}
    (h : receiver.held = none) : StampInflight.HeldSince ⟨cwd, receiver⟩ n := by
  intro reply hreply
  rw [h] at hreply
  cases hreply

theorem held_fail {receiver receiver' : StampReceiver}
    (h : receiver.fail = some receiver') : receiver'.held = none := by
  cases receiver <;> cases h <;> rfl

theorem held_die {receiver receiver' : StampReceiver}
    (h : receiver.die = some receiver') : receiver'.held = none := by
  cases receiver <;> cases h <;> rfl

theorem Current.step {run run' : StampRun} {action : StampAction} (h : run.Current)
    (hclear : run.InvalidatesClear action) (hstep : run.step action = some run') :
    run'.Current := by
  cases action with
  | refresh canonicalize snapshot =>
    obtain rfl := Option.some.inj hstep
    refine ⟨?_, h.fresh, h.last⟩
    apply StampBoard.spawnStampFetches_since
    apply StampBoard.applyCachedStamps_since
    apply StampBoard.refreshed_since h.board
    intro workspace hmem stamp hstamp
    exact fromBackendResponse_answered hmem hstamp
  | answer i response =>
    obtain ⟨board, hadvance, rfl⟩ := Option.map_eq_some_iff.mp hstep
    exact h.advance (fun _ _ _ hanswer _ => h.heldSince_answer hanswer) hadvance
  | land i =>
    obtain ⟨board, hadvance, rfl⟩ := Option.map_eq_some_iff.mp hstep
    exact h.advance (fun _ _ _ hland => heldSince_land hland) hadvance
  | fail i =>
    obtain ⟨board, hadvance, rfl⟩ := Option.map_eq_some_iff.mp hstep
    exact h.advance (fun _ _ _ hfail _ => heldSince_of_none (held_fail hfail)) hadvance
  | die i =>
    obtain ⟨board, hadvance, rfl⟩ := Option.map_eq_some_iff.mp hstep
    exact h.advance (fun _ _ _ hdie _ => heldSince_of_none (held_die hdie)) hadvance
  | poll canonicalize =>
    obtain rfl := Option.some.inj hstep
    exact ⟨StampBoard.pollStampFetches_since h.board, h.fresh, h.last⟩
  | elapse milliseconds =>
    obtain rfl := Option.some.inj hstep
    exact ⟨h.board, h.fresh, h.last⟩
  | switch cwd =>
    obtain rfl := Option.some.inj hstep
    refine ⟨h.board, ?_, ?_⟩
    · intro cwd'
      have hfresh := h.fresh cwd'
      have hlast := h.last cwd'
      simp only [Function.update_apply]
      split <;> omega
    · intro cwd'
      have hlast := h.last cwd'
      simp only [Function.update_apply]
      split <;> omega
  | invalidate cwd =>
    obtain rfl := Option.some.inj hstep
    refine ⟨StampBoard.invalidateStamp_since h.board hclear, ?_, h.last⟩
    intro cwd'
    have hfresh := h.fresh cwd'
    simp only [Function.update_apply]
    split
    · next hcwd => rw [hcwd]
    · exact hfresh

theorem current_of_reachVia {run : StampRun} (h : system.ReachVia InvalidatesClear run) :
    run.Current :=
  h.invariant (fun _ hstarts => current_of_starts hstarts)
    fun _ _ _ _ hcurrent hclear hstep => hcurrent.step hclear hstep

/-- Every run that invalidates a cwd only while no worker for it holds a reply
of the old branch never shows one. -/
theorem neverStale_of_invalidatesClear (run : StampRun)
    (h : system.ReachVia InvalidatesClear run) : run.NeverStale :=
  (current_of_reachVia h).board.rows

/-- A snapshot of one workspace at `/repo`. -/
def repoSnapshot : Json :=
  .object
    [("workspaces",
      .array [.object [("workspace_id", .string "w1"), ("cwd", .string "/repo")]])]

/-- The `worktree.list` reply for `/repo` on a branch. -/
def repoWorktrees (branch : String) : Json :=
  .object
    [("worktrees",
      .array [.object [("path", .string "/repo"), ("branch", .string branch)]]),
     ("source", .object [("repo_root", .string "/repo")])]

def startRun : StampRun := ⟨⟨[], ∅, []⟩, 0, 0, fun _ => 0, fun _ => 0⟩

theorem startRun_starts : system.init startRun := ⟨rfl, rfl, rfl, rfl⟩

/-- The reply of a fetch lands before the switch, and the next one after it. -/
def clearSchedule : List StampAction :=
  [.refresh (fun _ => none) repoSnapshot, .answer 0 (repoWorktrees "main"), .land 0,
    .poll (fun _ => none), .switch "/repo", .invalidate "/repo",
    .refresh (fun _ => none) repoSnapshot, .answer 0 (repoWorktrees "topic"), .land 0,
    .poll (fun _ => none)]

theorem neverStale_after_clearSchedule :
    ((system.runVia InvalidatesClear startRun clearSchedule).get
      (by decide +kernel)).NeverStale :=
  neverStale_of_invalidatesClear _
    (System.reachVia_get startRun_starts (by decide +kernel))

/-- The switch and its invalidation come while the reply is on its way. -/
def overtakenSchedule : List StampAction :=
  [.refresh (fun _ => none) repoSnapshot, .answer 0 (repoWorktrees "main"),
    .switch "/repo", .invalidate "/repo", .land 0, .poll (fun _ => none)]

/-- The row is stamped with the branch it was switched away from. -/
theorem stale_after_overtakenSchedule :
    ¬ ∀ run, system.Reachable run → run.NeverStale := by
  intro hall
  have hreach : system.Reachable
      ((system.run startRun overtakenSchedule).get (by decide +kernel)) :=
    System.reachable_get startRun_starts (by decide +kernel)
  exact absurd (hall _ hreach) (by decide +kernel)

end StampRun

end HerdrWebui.Tui
