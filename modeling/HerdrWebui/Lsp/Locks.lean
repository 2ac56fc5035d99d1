import HerdrWebui.Concurrency.Threads
import HerdrWebui.Concurrency.Waiting

/-!
The locks of the language servers. Each procedure is the list of locks it takes and
gives back in turn, with the places where what it read decides how it goes on. A start
probes registered handles while it holds `servers`; a cleanup asks for `servers` while
it holds the child lock of its handle. In a run in which no such start has a handle to
probe whose cleanup holds its child lock, no tasks are in a circular wait.
-/

namespace HerdrWebui.Lsp

open Concurrency

inductive LspLock where
  | servers
  | child (handle : Nat)
  | exited (handle : Nat)
  | pending (handle : Nat)
  | notifications (handle : Nat)
  deriving DecidableEq

/-- Locks under which nothing else is asked for. -/
def LspLock.isLeaf : LspLock → Bool
  | .servers | .child _ => false
  | _ => true

/-- What is done with each handle of a snapshot after `servers` is given back. -/
inductive LspUse where
  | status
  | stop
  | forward
  deriving DecidableEq

inductive LspInstr where
  | acquire (lock : LspLock)
  | release (lock : LspLock)
  /-- `try_wait`: the `exited` lock is taken if there is a child to ask. -/
  | tryWait (handle : Nat)
  /-- An early return, which drops all guards. -/
  | returnIf
  | lookup (key : String)
  | countRunning
  | find (key : String) (use : LspUse)
  | snapshot (use : LspUse)
  | childPid (handle : Nat)
  | requestTimeout (handle : Nat)
  | prune
  | drain
  | spawn (key : String)
  | insert (key : String) (handle : Nat)
  | remove (keys : List String)
  | clear
  | readFrame (handle : Nat) (key : String)
  deriving DecidableEq

/-- What the reader of a server's output comes upon. -/
inductive LspFrame where
  | ignored
  | response
  | notification
  | ended
  deriving DecidableEq

/-- How a place that depends on what was read goes on. -/
inductive LspChoice where
  | plain
  | answer (yes : Bool)
  | dead (keys : List String)
  | frame (kind : LspFrame)
  deriving DecidableEq

open LspInstr LspLock

def isRunning (h : Nat) : List LspInstr :=
  [acquire (child h), tryWait h, release (child h)]

def sendRequest (h : Nat) : List LspInstr :=
  [acquire (pending h), release (pending h), requestTimeout h]

def stopHandle (h : Nat) : List LspInstr :=
  sendRequest h ++
    [acquire (child h), acquire (exited h), release (exited h), release (child h)]

/-- The guard of the child lock lives to the end. -/
def cleanup (h : Nat) (key : String) : List LspInstr :=
  [acquire (child h), acquire (exited h), release (exited h), acquire servers, remove [key],
    release servers, release (child h)]

def LspUse.code (h : Nat) : LspUse → List LspInstr
  | .status => isRunning h ++ [childPid h]
  | .stop => stopHandle h
  | .forward => isRunning h ++ [returnIf] ++ sendRequest h

inductive LspTask where
  | start (key : String)
  | status
  | notifications
  | forward (key : String)
  | stop (key : String)
  | stopAll
  | reader (handle : Nat) (key : String)
  | idleShutdown (handle : Nat) (key : String)
  deriving DecidableEq

def statusCode : List LspInstr := [acquire servers, snapshot .status, prune]

/-- `shutdown_all` goes as a stop of all servers does. -/
def LspTask.code : LspTask → List LspInstr
  | .start key =>
    [acquire servers, lookup key, release servers, acquire servers, countRunning,
      release servers, returnIf, spawn key]
  | .status => statusCode
  | .notifications => statusCode ++ [acquire servers, drain, release servers]
  | .forward key => [acquire servers, find key .forward]
  | .stop key => [acquire servers, find key .stop]
  | .stopAll => [acquire servers, snapshot .stop, acquire servers, clear, release servers]
  | .reader h key => [readFrame h key]
  | .idleShutdown h key => sendRequest h ++ cleanup h key

/-- The tasks that end with a cleanup. They are begun by the spawn of a server. -/
def LspTask.cleansUp : LspTask → Bool
  | .reader _ _ | .idleShutdown _ _ => true
  | _ => false

/-- `scanning` has the handles that the holder of `servers` is yet to probe and
`cleaning` those whose child lock a cleanup holds. No code reads them. -/
structure LspServers where
  registry : List (String × Nat)
  taken : List LspLock
  spawned : List LspTask
  nextHandle : Nat
  scanning : List Nat
  cleaning : List Nat

structure LspTaskState where
  cleansUp : Bool
  held : List LspLock
  todo : List LspInstr
  deriving DecidableEq

inductive LspLockAction where
  | begin (task : LspTask)
  | run (choice : LspChoice)

def LspServers.values (s : LspServers) : List Nat := s.registry.map Prod.snd

def LspInstr.probes (s : LspServers) : LspInstr → List Nat
  | lookup key => (s.registry.lookup key).toList
  | countRunning => s.values
  | _ => []

/-- What comes before the rest of the task. -/
def LspInstr.expand (s : LspServers) : LspInstr → LspChoice → Option (List LspInstr)
  | tryWait h, .answer yes =>
    some (if yes then [acquire (exited h), release (exited h)] else [])
  | returnIf, .answer false => some []
  | lookup key, .plain =>
    some ((probes s (lookup key)).flatMap fun h => isRunning h ++ [returnIf])
  | countRunning, .plain => some (s.values.flatMap isRunning)
  | find key use, .plain =>
    some (release servers :: (s.registry.lookup key).toList.flatMap fun h =>
      use.code h ++
        if use = .stop then [acquire servers, remove [key], release servers] else [])
  | snapshot use, .plain => some (release servers :: s.values.flatMap use.code)
  | childPid h, .answer yes =>
    some (if yes then [acquire (child h), release (child h)] else [])
  | requestTimeout h, .answer yes =>
    some (if yes then [acquire (pending h), release (pending h)] else [])
  | prune, .dead keys =>
    some (if keys.isEmpty then [] else [acquire servers, remove keys, release servers])
  | drain, .plain =>
    some (s.values.flatMap fun h =>
      [acquire (LspLock.notifications h), release (LspLock.notifications h)])
  | spawn key, .plain =>
    some [acquire servers, .insert key s.nextHandle, release servers]
  | .insert _ _, .plain | remove _, .plain | clear, .plain => some []
  | readFrame h key, .frame kind =>
    match kind with
    | .ignored => some [readFrame h key]
    | .response => some [acquire (pending h), release (pending h), readFrame h key]
    | .notification =>
      some [acquire (LspLock.notifications h), release (LspLock.notifications h),
        readFrame h key]
    | .ended => some (cleanup h key)
  | _, _ => none

def LspServers.apply (s : LspServers) : LspInstr → LspServers
  | spawn key =>
    { s with
      nextHandle := s.nextHandle + 1
      spawned := .reader s.nextHandle key :: .idleShutdown s.nextHandle key :: s.spawned }
  | .insert key h =>
    { s with registry := (key, h) :: s.registry.filter fun row => row.1 != key }
  | remove keys => { s with registry := s.registry.filter fun row => row.1 ∉ keys }
  | clear => { s with registry := [] }
  | _ => s

def LspServers.take (s : LspServers) (l : LspTaskState) (lock : LspLock) : LspServers :=
  match lock with
  | child h =>
    if l.cleansUp then { s with taken := lock :: s.taken, cleaning := h :: s.cleaning }
    else if servers ∈ l.held then
      { s with taken := lock :: s.taken, scanning := s.scanning.tail }
    else { s with taken := lock :: s.taken }
  | _ => { s with taken := lock :: s.taken }

def LspServers.giveBack (s : LspServers) (l : LspTaskState) (lock : LspLock) : LspServers :=
  let s := { s with taken := s.taken.filter (· != lock) }
  match lock with
  | child h => if l.cleansUp then { s with cleaning := s.cleaning.filter (· != h) } else s
  | servers => { s with scanning := [] }
  | _ => s

section Frames

variable (s : LspServers) (instr : LspInstr)

@[simp] theorem apply_taken : (s.apply instr).taken = s.taken := by cases instr <;> rfl

@[simp] theorem apply_cleaning : (s.apply instr).cleaning = s.cleaning := by cases instr <;> rfl

end Frames

def lspLockStep (a : LspLockAction) (s : LspServers) (l : LspTaskState) :
    Option (LspServers × LspTaskState) :=
  match a, l.todo with
  | .begin task, [] =>
    if task.cleansUp && !s.spawned.contains task then none
    else some ({ s with spawned := s.spawned.erase task }, ⟨task.cleansUp, [], task.code⟩)
  | .run .plain, acquire lock :: todo =>
    if lock ∈ s.taken then none
    else some (s.take l lock, { l with held := lock :: l.held, todo })
  | .run .plain, release lock :: todo =>
    some (s.giveBack l lock, { l with held := l.held.erase lock, todo })
  | .run (.answer true), returnIf :: _ =>
    some ({ s with scanning := if servers ∈ l.held then [] else s.scanning },
      { l with todo := l.held.map release })
  | .run choice, instr :: todo =>
    (instr.expand s choice).map fun more =>
      ({ s.apply instr with scanning := instr.probes s ++ s.scanning },
        { l with todo := more ++ todo })
  | _, _ => none

def lspLockTasks : Program LspServers LspTaskState LspLockAction where
  init s := s = ⟨[], [], [], 0, [], []⟩
  idle := ⟨false, [], []⟩
  step := lspLockStep

def LspTaskState.wants (l : LspTaskState) : Option LspLock :=
  match l.todo with
  | acquire lock :: _ => some lock
  | _ => none

def LspTaskState.grip (l : LspTaskState) : Grip LspLock := ⟨l.held, l.wants⟩

/-- A start or a count reads the registry only while no cleanup holds the child lock of
a handle it is about to probe, and a cleanup takes the child lock only while none is
about to probe its handle. -/
def probesApart (s : LspServers) (l : LspTaskState) (a : LspLockAction) : Bool :=
  match a, l.todo with
  | .run .plain, acquire (child h) :: _ => !(l.cleansUp && s.scanning.contains h)
  | .run .plain, instr :: _ => (instr.probes s).all fun h => !s.cleaning.contains h
  | _, _ => true

/-- The handles whose child lock is asked for before `servers` is given back. -/
def toProbe : List LspInstr → List Nat
  | [] => []
  | acquire (child h) :: todo => h :: toProbe todo
  | release servers :: _ | find _ _ :: _ | snapshot _ :: _ => []
  | _ :: todo => toProbe todo

/-- What may be held when a lock is asked for. -/
def Allowed (cleansUp : Bool) (held : List LspLock) : LspLock → Prop
  | servers => held = [] ∨ cleansUp = true ∧ ∃ h, held = [child h]
  | child _ => held = [] ∨ cleansUp = false ∧ held = [servers]
  | _ => ∀ lock ∈ held, lock.isLeaf = false

/-- The rest of a task keeps the order, and each place with a choice stands where all
its ways on do. -/
def Disciplined (cleansUp : Bool) : List LspLock → List LspInstr → Prop
  | held, [] => held = []
  | held, acquire lock :: todo =>
    Allowed cleansUp held lock ∧ (lock = servers → toProbe todo = []) ∧
      Disciplined cleansUp (lock :: held) todo
  | held, release lock :: todo => ∃ rest, held = lock :: rest ∧ Disciplined cleansUp rest todo
  | held, tryWait _ :: todo =>
    (∀ lock ∈ held, lock.isLeaf = false) ∧ Disciplined cleansUp held todo
  | held, returnIf :: todo | held, .insert _ _ :: todo | held, remove _ :: todo
  | held, clear :: todo => Disciplined cleansUp held todo
  | held, lookup _ :: todo | held, countRunning :: todo | held, drain :: todo =>
    cleansUp = false ∧ held = [servers] ∧ Disciplined cleansUp held todo
  | held, find _ _ :: todo | held, snapshot _ :: todo =>
    cleansUp = false ∧ held = [servers] ∧ Disciplined cleansUp [] todo
  | held, childPid _ :: todo | held, requestTimeout _ :: todo | held, prune :: todo
  | held, spawn _ :: todo => held = [] ∧ Disciplined cleansUp [] todo
  | held, readFrame _ _ :: todo => cleansUp = true ∧ held = [] ∧ todo = []

theorem LspTask.disciplined (task : LspTask) : Disciplined task.cleansUp [] task.code := by
  cases task <;>
    simp [LspTask.cleansUp, LspTask.code, statusCode, sendRequest, cleanup, Disciplined, Allowed,
      toProbe, LspLock.isLeaf]

section Discipline

variable {cleansUp : Bool} {held : List LspLock} {todo more : List LspInstr} {s : LspServers}

theorem Disciplined.flatMap {piece : Nat → List LspInstr}
    (hpiece : ∀ h rest, Disciplined cleansUp held rest → Disciplined cleansUp held (piece h ++ rest))
    (htodo : Disciplined cleansUp held todo) (handles : List Nat) :
    Disciplined cleansUp held (handles.flatMap piece ++ todo) := by
  induction handles with
  | nil => exact htodo
  | cons h handles ih =>
    rw [List.flatMap_cons, List.append_assoc]
    exact hpiece h _ ih

theorem Disciplined.returns : Disciplined cleansUp held (held.map release) := by
  induction held with
  | nil => rfl
  | cons lock held ih => exact ⟨held, rfl, ih⟩

theorem Disciplined.isRunning (hheld : held = [] ∨ cleansUp = false ∧ held = [servers])
    (htodo : Disciplined cleansUp held todo) (h : Nat) :
    Disciplined cleansUp held (isRunning h ++ todo) := by
  refine ⟨hheld, ?_, ?_, held, rfl, htodo⟩
  · intro hlock
    cases hlock
  · intro lock hlock
    rcases hheld with rfl | ⟨-, rfl⟩
    · rw [List.mem_singleton.mp hlock]
      rfl
    · simp only [List.mem_cons, List.not_mem_nil, or_false] at hlock
      rcases hlock with rfl | rfl <;> rfl

theorem Disciplined.leaf {lock : LspLock} (hlock : lock.isLeaf = true)
    (hheld : ∀ lock ∈ held, lock.isLeaf = false) (htodo : Disciplined cleansUp held todo) :
    Disciplined cleansUp held ([acquire lock, release lock] ++ todo) := by
  refine ⟨?_, ?_, held, rfl, htodo⟩
  · cases lock with
    | servers | child => cases hlock
    | exited | pending | notifications => exact hheld
  · rintro rfl
    cases hlock

theorem Disciplined.onlyServers {instr : LspInstr}
    (hprobes : ∀ rest, toProbe (instr :: release servers :: rest) = [])
    (hkeep : ∀ rest, Disciplined cleansUp [servers] rest →
      Disciplined cleansUp [servers] (instr :: rest))
    (htodo : Disciplined cleansUp [] todo) :
    Disciplined cleansUp [] ([acquire servers, instr, release servers] ++ todo) :=
  ⟨.inl rfl, fun _ => hprobes todo, hkeep _ ⟨[], rfl, htodo⟩⟩

theorem Disciplined.sendRequest (htodo : Disciplined cleansUp [] todo) (h : Nat) :
    Disciplined cleansUp [] (sendRequest h ++ todo) := by
  have htimeout : Disciplined cleansUp [] (requestTimeout h :: todo) := ⟨rfl, htodo⟩
  exact .leaf rfl (fun lock hlock => by cases hlock) htimeout

theorem Disciplined.use (use : LspUse) (htodo : Disciplined cleansUp [] todo) (h : Nat) :
    Disciplined cleansUp [] (use.code h ++ todo) := by
  cases use with
  | status =>
    rw [LspUse.code, List.append_assoc]
    refine .isRunning (.inl rfl) ?_ h
    exact ⟨rfl, htodo⟩
  | stop =>
    rw [LspUse.code, stopHandle, List.append_assoc]
    refine .sendRequest ?_ h
    simpa [Disciplined, Allowed, LspLock.isLeaf] using htodo
  | forward =>
    rw [LspUse.code, List.append_assoc, List.append_assoc]
    refine .isRunning (.inl rfl) ?_ h
    exact Disciplined.sendRequest htodo h

theorem Disciplined.cleanup (h : Nat) (key : String) : Disciplined true [] (cleanup h key) := by
  simp [HerdrWebui.Lsp.cleanup, Disciplined, Allowed, toProbe, LspLock.isLeaf]

theorem Disciplined.expand {instr : LspInstr} {choice : LspChoice}
    (h : Disciplined cleansUp held (instr :: todo)) (hmore : instr.expand s choice = some more) :
    Disciplined cleansUp held (more ++ todo) := by
  cases instr with
  | acquire | release => cases hmore
  | tryWait child =>
    cases choice with
    | answer yes =>
      cases hmore
      cases yes with
      | false => exact h.2
      | true => exact .leaf rfl h.1 h.2
    | _ => cases hmore
  | returnIf =>
    cases choice with
    | answer yes =>
      cases yes with
      | false =>
        cases hmore
        exact h
      | true => cases hmore
    | _ => cases hmore
  | lookup key =>
    cases choice with
    | plain =>
      cases hmore
      obtain ⟨hcaller, hheld, htodo⟩ := h
      refine .flatMap (fun child rest hrest => ?_) htodo _
      rw [List.append_assoc]
      exact .isRunning (.inr ⟨hcaller, hheld⟩) hrest child
    | _ => cases hmore
  | countRunning =>
    cases choice with
    | plain =>
      cases hmore
      obtain ⟨hcaller, hheld, htodo⟩ := h
      exact .flatMap (fun child rest hrest => .isRunning (.inr ⟨hcaller, hheld⟩) hrest child)
        htodo _
    | _ => cases hmore
  | find key use =>
    cases choice with
    | plain =>
      cases hmore
      obtain ⟨hcaller, rfl, htodo⟩ := h
      refine ⟨[], rfl, .flatMap (fun child rest hrest => ?_) htodo _⟩
      rw [List.append_assoc]
      refine .use use ?_ child
      split
      · exact .onlyServers (fun _ => rfl) (fun _ h => h) hrest
      · exact hrest
    | _ => cases hmore
  | snapshot use =>
    cases choice with
    | plain =>
      cases hmore
      obtain ⟨hcaller, rfl, htodo⟩ := h
      exact ⟨[], rfl, .flatMap (fun child rest hrest => .use use hrest child) htodo _⟩
    | _ => cases hmore
  | childPid child =>
    cases choice with
    | answer yes =>
      cases hmore
      obtain ⟨rfl, htodo⟩ := h
      cases yes with
      | false => exact htodo
      | true => exact ⟨.inl rfl, (fun hlock => by cases hlock), [], rfl, htodo⟩
    | _ => cases hmore
  | requestTimeout child =>
    cases choice with
    | answer yes =>
      cases hmore
      obtain ⟨rfl, htodo⟩ := h
      cases yes with
      | false => exact htodo
      | true => exact .leaf rfl (fun lock hlock => by cases hlock) htodo
    | _ => cases hmore
  | prune =>
    cases choice with
    | dead keys =>
      cases hmore
      obtain ⟨rfl, htodo⟩ := h
      split
      · exact htodo
      · exact .onlyServers (fun _ => rfl) (fun _ h => h) htodo
    | _ => cases hmore
  | drain =>
    cases choice with
    | plain =>
      cases hmore
      obtain ⟨-, rfl, htodo⟩ := h
      refine .flatMap (fun child rest hrest => .leaf rfl (fun lock hlock => ?_) hrest) htodo _
      rw [List.mem_singleton.mp hlock]
      rfl
    | _ => cases hmore
  | spawn key =>
    cases choice with
    | plain =>
      cases hmore
      obtain ⟨rfl, htodo⟩ := h
      exact .onlyServers (fun _ => rfl) (fun _ h => h) htodo
    | _ => cases hmore
  | insert | remove | clear =>
    cases choice with
    | plain =>
      cases hmore
      exact h
    | _ => cases hmore
  | readFrame child key =>
    cases choice with
    | frame kind =>
      obtain ⟨rfl, rfl, rfl⟩ := h
      cases kind with
      | ignored =>
        cases hmore
        exact ⟨rfl, rfl, rfl⟩
      | response | notification =>
        cases hmore
        have hagain : Disciplined true [] [readFrame child key] := ⟨rfl, rfl, rfl⟩
        exact .leaf rfl (fun lock hlock => by cases hlock) hagain
      | ended =>
        cases hmore
        rw [List.append_nil]
        exact .cleanup child key
    | _ => cases hmore

theorem toProbe_flatMap {piece : Nat → List LspInstr} (probed : Nat → List Nat)
    (hpiece : ∀ h rest, toProbe (piece h ++ rest) = probed h ++ toProbe rest)
    (handles : List Nat) :
    toProbe (handles.flatMap piece ++ todo) = handles.flatMap probed ++ toProbe todo := by
  induction handles with
  | nil => rfl
  | cons h handles ih =>
    rw [List.flatMap_cons, List.append_assoc, hpiece, ih, List.flatMap_cons, List.append_assoc]

theorem toProbe_expand {instr : LspInstr} {choice : LspChoice}
    (h : Disciplined cleansUp held (instr :: todo)) (hheld : servers ∈ held)
    (hmore : instr.expand s choice = some more) :
    toProbe (more ++ todo) = instr.probes s ++ toProbe (instr :: todo) := by
  have hidle (hnil : held = []) : False := by
    rw [hnil] at hheld
    cases hheld
  cases instr with
  | acquire | release => cases hmore
  | tryWait child =>
    cases choice with
    | answer yes => cases yes <;> cases hmore <;> rfl
    | _ => cases hmore
  | returnIf =>
    cases choice with
    | answer yes =>
      cases yes with
      | false =>
        cases hmore
        rfl
      | true => cases hmore
    | _ => cases hmore
  | lookup key =>
    cases choice with
    | plain =>
      cases hmore
      rw [toProbe_flatMap (fun child => [child]) fun _ _ => rfl]
      simp [toProbe]
    | _ => cases hmore
  | countRunning =>
    cases choice with
    | plain =>
      cases hmore
      rw [toProbe_flatMap (fun child => [child]) fun _ _ => rfl]
      simp [toProbe, LspInstr.probes]
    | _ => cases hmore
  | drain =>
    cases choice with
    | plain =>
      cases hmore
      rw [toProbe_flatMap (fun _ => []) fun _ _ => rfl]
      simp [toProbe, LspInstr.probes]
    | _ => cases hmore
  | find | snapshot | insert | remove | clear =>
    cases choice with
    | plain =>
      cases hmore
      rfl
    | _ => cases hmore
  | childPid | requestTimeout | prune | spawn => exact (hidle h.1).elim
  | readFrame => exact (hidle h.2.1).elim

end Discipline

/-- What a task may rely on. -/
structure TaskHolds (s : LspServers) (l : LspTaskState) : Prop where
  disciplined : Disciplined l.cleansUp l.held l.todo
  taken : ∀ lock ∈ l.held, lock ∈ s.taken
  nodup : l.held.Nodup
  scanning : servers ∈ l.held → toProbe l.todo = s.scanning
  cleaning : l.cleansUp = true → ∀ h, child h ∈ l.held → h ∈ s.cleaning

structure LocksInvariant (s : LspServers) : Prop where
  free : servers ∉ s.taken → s.scanning = []
  apart : ∀ h ∈ s.scanning, h ∉ s.cleaning

def NoSharedLock (l m : LspTaskState) : Prop := ∀ lock ∈ l.held, lock ∉ m.held

/-- A cleanup takes or gives back a child lock, or a start takes one it probes, or any
other lock is taken. -/
theorem take_cases (s : LspServers) (l : LspTaskState) (lock : LspLock) :
    (∃ h, lock = child h ∧ l.cleansUp = true ∧
      s.take l lock = { s with taken := lock :: s.taken, cleaning := h :: s.cleaning }) ∨
    (∃ h, lock = child h ∧ l.cleansUp = false ∧ servers ∈ l.held ∧
      s.take l lock = { s with taken := lock :: s.taken, scanning := s.scanning.tail }) ∨
    (∀ h, lock = child h → l.cleansUp = false ∧ servers ∉ l.held) ∧
      s.take l lock = { s with taken := lock :: s.taken } := by
  cases lock with
  | child h =>
    cases hclean : l.cleansUp with
    | true => exact .inl ⟨h, rfl, rfl, by simp [LspServers.take, hclean]⟩
    | false =>
      by_cases hheld : servers ∈ l.held
      · exact .inr (.inl ⟨h, rfl, rfl, hheld, by simp [LspServers.take, hclean, hheld]⟩)
      · exact .inr (.inr ⟨fun _ _ => ⟨rfl, hheld⟩, by simp [LspServers.take, hclean, hheld]⟩)
  | servers | exited | pending | notifications =>
    exact .inr (.inr ⟨(fun h heq => by cases heq), rfl⟩)

theorem giveBack_cases (s : LspServers) (l : LspTaskState) (lock : LspLock) :
    (∃ h, lock = child h ∧ l.cleansUp = true ∧
      s.giveBack l lock =
        { s with
          taken := s.taken.filter (· != lock)
          cleaning := s.cleaning.filter (· != h) }) ∨
    (lock = servers ∧
      s.giveBack l lock = { s with taken := s.taken.filter (· != lock), scanning := [] }) ∨
    (lock ≠ servers ∧ (∀ h, lock = child h → l.cleansUp = false) ∧
      s.giveBack l lock = { s with taken := s.taken.filter (· != lock) }) := by
  cases lock with
  | child h =>
    cases hclean : l.cleansUp with
    | true => exact .inl ⟨h, rfl, rfl, by simp [LspServers.giveBack, hclean]⟩
    | false =>
      exact .inr (.inr ⟨by simp, fun _ _ => rfl, by simp [LspServers.giveBack, hclean]⟩)
  | servers => exact .inr (.inl ⟨rfl, rfl⟩)
  | exited | pending | notifications =>
    exact .inr (.inr ⟨by simp, (fun h heq => by cases heq), rfl⟩)

/-- The steps, one by one, with what the condition says of each. -/
inductive LockMove (s : LspServers) (l : LspTaskState) : LspServers → LspTaskState → Prop
  | begin {task : LspTask} (hidle : l.todo = []) :
      LockMove s l { s with spawned := s.spawned.erase task } ⟨task.cleansUp, [], task.code⟩
  | acquire {lock : LspLock} {todo : List LspInstr} (htodo : l.todo = acquire lock :: todo)
      (hfree : lock ∉ s.taken)
      (hclean : ∀ h, lock = child h → l.cleansUp = true → h ∉ s.scanning) :
      LockMove s l (s.take l lock) { l with held := lock :: l.held, todo }
  | release {lock : LspLock} {todo : List LspInstr} (htodo : l.todo = release lock :: todo) :
      LockMove s l (s.giveBack l lock) { l with held := l.held.erase lock, todo }
  | returns :
      LockMove s l { s with scanning := if servers ∈ l.held then [] else s.scanning }
        { l with todo := l.held.map release }
  | expand {instr : LspInstr} {choice : LspChoice} {todo more : List LspInstr}
      (htodo : l.todo = instr :: todo) (hmore : instr.expand s choice = some more)
      (hapart : ∀ h ∈ instr.probes s, h ∉ s.cleaning) :
      LockMove s l { s.apply instr with scanning := instr.probes s ++ s.scanning }
        { l with todo := more ++ todo }

section Moves

variable {s s' : LspServers} {l l' m : LspTaskState}

theorem lspLockStep_cases {a : LspLockAction} (hok : probesApart s l a = true)
    (hstep : lspLockStep a s l = some (s', l')) : LockMove s l s' l' := by
  unfold lspLockStep at hstep
  split at hstep
  · next task hidle =>
      split at hstep
      · cases hstep
      · cases hstep
        exact .begin hidle
  · next lock todo htodo =>
      split at hstep
      · cases hstep
      · next hfree =>
          cases hstep
          refine .acquire htodo hfree ?_
          rintro h rfl hclean
          simpa [probesApart, htodo, hclean] using hok
  · next lock todo htodo =>
      cases hstep
      exact .release htodo
  · cases hstep
    exact .returns
  · next choice instr todo _ _ _ htodo =>
      obtain ⟨more, hmore, heq⟩ := Option.map_eq_some_iff.mp hstep
      cases heq
      refine .expand htodo hmore fun h hprobed => ?_
      cases instr with
      | lookup | countRunning =>
        cases choice with
        | plain =>
          simp only [probesApart, htodo, List.all_eq_true] at hok
          simpa using hok h hprobed
        | _ => cases hmore
      | _ => cases hprobed
  · cases hstep

theorem probes_eq_nil {cleansUp : Bool} {held : List LspLock} {instr : LspInstr}
    {todo : List LspInstr} (h : Disciplined cleansUp held (instr :: todo))
    (hservers : servers ∉ held) : instr.probes s = [] := by
  cases instr with
  | lookup | countRunning =>
    obtain ⟨-, rfl, -⟩ := h
    simp at hservers
  | _ => rfl

theorem LockMove.invariant (hmove : LockMove s l s' l') (hs : LocksInvariant s)
    (hl : TaskHolds s l) : LocksInvariant s' := by
  cases hmove with
  | begin => exact ⟨hs.free, hs.apart⟩
  | @acquire lock todo htodo hfree hclean =>
    have hnone (hservers : servers ∉ lock :: s.taken) : s.scanning = [] :=
      hs.free fun hmem => hservers (List.mem_cons_of_mem lock hmem)
    rcases take_cases s l lock with
      ⟨h, hlock, hcleansUp, htake⟩ | ⟨h, -, -, -, htake⟩ | ⟨-, htake⟩ <;> rw [htake]
    · refine ⟨hnone, fun k hk => ?_⟩
      rw [List.mem_cons, not_or]
      refine ⟨?_, hs.apart k hk⟩
      rintro rfl
      exact hclean k hlock hcleansUp hk
    · refine ⟨fun hservers => ?_, fun k hk => hs.apart k (List.mem_of_mem_tail hk)⟩
      dsimp only
      rw [hnone hservers, List.tail_nil]
    · exact ⟨hnone, hs.apart⟩
  | @release lock todo htodo =>
    have hnone (hne : lock ≠ servers) (hservers : servers ∉ s.taken.filter (· != lock)) :
        s.scanning = [] :=
      hs.free fun hmem => hservers (List.mem_filter.mpr ⟨hmem, by simpa using hne.symm⟩)
    rcases giveBack_cases s l lock with
      ⟨h, hlock, -, hback⟩ | ⟨-, hback⟩ | ⟨hne, -, hback⟩ <;> rw [hback]
    · refine ⟨hnone (by simp [hlock]), fun k hk hmem => ?_⟩
      exact hs.apart k hk (List.mem_of_mem_filter hmem)
    · exact ⟨fun _ => rfl, fun k hk => by cases hk⟩
    · exact ⟨hnone hne, hs.apart⟩
  | returns =>
    refine ⟨fun hservers => ?_, fun k hk => ?_⟩
    · dsimp only
      split
      · rfl
      · exact hs.free hservers
    · dsimp only at hk
      split at hk
      · cases hk
      · exact hs.apart k hk
  | @expand instr choice todo more htodo hmore hapart =>
    have hdisciplined := hl.disciplined
    rw [htodo] at hdisciplined
    refine ⟨fun hservers => ?_, fun k hk => ?_⟩
    · dsimp only at hservers ⊢
      rw [apply_taken] at hservers
      rw [probes_eq_nil hdisciplined fun hheld => hservers (hl.taken servers hheld)]
      exact hs.free hservers
    · dsimp only at hk ⊢
      rw [apply_cleaning]
      rcases List.mem_append.mp hk with hprobed | hold
      · exact hapart k hprobed
      · exact hs.apart k hold

theorem toProbe_returns (held : List LspLock) : toProbe (held.map release) = [] := by
  induction held with
  | nil => rfl
  | cons lock held ih =>
    cases lock with
    | servers => rfl
    | child | exited | pending | notifications => exact ih

theorem LockMove.task (hmove : LockMove s l s' l') (hs : LocksInvariant s)
    (hl : TaskHolds s l) : TaskHolds s' l' := by
  cases hmove with
  | @begin task =>
    exact ⟨task.disciplined, by simp, List.nodup_nil, by simp, by simp⟩
  | @acquire lock todo htodo hfree hclean =>
    have hdisciplined := hl.disciplined
    rw [htodo] at hdisciplined
    obtain ⟨hallowed, hprobes, hrest⟩ := hdisciplined
    have hnodup : (lock :: l.held).Nodup :=
      List.nodup_cons.mpr ⟨fun hmem => hfree (hl.taken lock hmem), hl.nodup⟩
    have htaken : ∀ k ∈ lock :: l.held, k ∈ lock :: s.taken := by
      intro k hk
      exact List.mem_cons.mpr ((List.mem_cons.mp hk).imp_right (hl.taken k))
    rcases take_cases s l lock with
      ⟨h, rfl, hcleansUp, htake⟩ | ⟨h, rfl, hcleansUp, hheld, htake⟩ | ⟨hother, htake⟩ <;>
      rw [htake]
    · refine ⟨hrest, htaken, hnodup, fun hservers => ?_, fun _ k hk => ?_⟩
      · rcases hallowed with hnil | ⟨hcaller, -⟩
        · simp [hnil] at hservers
        · rw [hcleansUp] at hcaller
          cases hcaller
      · rcases List.mem_cons.mp hk with heq | hold
        · cases heq
          exact List.mem_cons_self
        · exact List.mem_cons_of_mem h (hl.cleaning hcleansUp k hold)
    · refine ⟨hrest, htaken, hnodup, fun _ => ?_, fun hclean' => ?_⟩
      · have hscanning := hl.scanning hheld
        rw [htodo, toProbe] at hscanning
        rw [← hscanning, List.tail_cons]
      · rw [hcleansUp] at hclean'
        cases hclean'
    · refine ⟨hrest, htaken, hnodup, fun hservers => ?_, fun hcleansUp k hk => ?_⟩
      · dsimp only
        rcases List.mem_cons.mp hservers with heq | hheld
        · rw [hprobes heq.symm, hs.free (heq ▸ hfree)]
        · have hscanning := hl.scanning hheld
          rw [htodo] at hscanning
          cases lock with
          | child h => exact absurd hheld (hother h rfl).2
          | servers | exited | pending | notifications => exact hscanning
      · rcases List.mem_cons.mp hk with heq | hold
        · rw [(hother k heq.symm).1] at hcleansUp
          cases hcleansUp
        · exact hl.cleaning hcleansUp k hold
  | @release lock todo htodo =>
    have hdisciplined := hl.disciplined
    rw [htodo] at hdisciplined
    obtain ⟨rest, hheld, hrest⟩ := hdisciplined
    have hnodup := hl.nodup
    rw [hheld, List.nodup_cons] at hnodup
    have herase : l.held.erase lock = rest := by rw [hheld, List.erase_cons_head]
    have hkept : ∀ k ∈ rest, k ∈ s.taken.filter (· != lock) := by
      intro k hk
      refine List.mem_filter.mpr ⟨hl.taken k (by simp [hheld, hk]), ?_⟩
      rw [bne_iff_ne]
      rintro rfl
      exact hnodup.1 hk
    have hscanning (hne : lock ≠ servers) (hservers : servers ∈ rest) :
        toProbe todo = s.scanning := by
      have hold := hl.scanning (by simp [hheld, hservers])
      rw [htodo] at hold
      cases lock with
      | servers => exact absurd rfl hne
      | child | exited | pending | notifications => exact hold
    have hcleaning (hcleansUp : l.cleansUp = true) (k : Nat) (hk : child k ∈ rest) :
        k ∈ s.cleaning :=
      hl.cleaning hcleansUp k (by simp [hheld, hk])
    rw [herase]
    rcases giveBack_cases s l lock with
      ⟨h, rfl, -, hback⟩ | ⟨rfl, hback⟩ | ⟨hne, -, hback⟩ <;> rw [hback]
    · refine ⟨hrest, hkept, hnodup.2, hscanning (by simp), fun hcleansUp k hk => ?_⟩
      refine List.mem_filter.mpr ⟨hcleaning hcleansUp k hk, ?_⟩
      rw [bne_iff_ne]
      rintro rfl
      exact hnodup.1 hk
    · exact ⟨hrest, hkept, hnodup.2, fun hservers => absurd hservers hnodup.1, hcleaning⟩
    · exact ⟨hrest, hkept, hnodup.2, hscanning hne, hcleaning⟩
  | returns =>
    refine ⟨.returns, hl.taken, hl.nodup, fun hservers => ?_, hl.cleaning⟩
    dsimp only
    rw [toProbe_returns, if_pos hservers]
  | @expand instr choice todo more htodo hmore hapart =>
    have hdisciplined := hl.disciplined
    rw [htodo] at hdisciplined
    refine ⟨hdisciplined.expand hmore, ?_, hl.nodup, fun hservers => ?_, ?_⟩
    · simpa using hl.taken
    · have hscanning := hl.scanning hservers
      rw [htodo] at hscanning
      dsimp only
      rw [toProbe_expand hdisciplined hservers hmore, hscanning]
    · simpa using hl.cleaning

theorem TaskHolds.frame (hm : TaskHolds s m) (htaken : ∀ lock ∈ m.held, lock ∈ s'.taken)
    (hscanning : servers ∈ m.held → s'.scanning = s.scanning)
    (hcleaning : ∀ h, child h ∈ m.held → h ∈ s.cleaning → h ∈ s'.cleaning) :
    TaskHolds s' m where
  disciplined := hm.disciplined
  taken := htaken
  nodup := hm.nodup
  scanning hservers := (hm.scanning hservers).trans (hscanning hservers).symm
  cleaning hcleansUp h hheld := hcleaning h hheld (hm.cleaning hcleansUp h hheld)

theorem LockMove.other (hmove : LockMove s l s' l') (hl : TaskHolds s l) (hm : TaskHolds s m)
    (hshared : NoSharedLock l m) : TaskHolds s' m ∧ NoSharedLock l' m := by
  have halone (hservers : servers ∈ m.held) : servers ∉ l.held :=
    fun hheld => hshared servers hheld hservers
  cases hmove with
  | begin =>
    exact ⟨hm.frame hm.taken (fun _ => rfl) fun _ _ => id, fun lock hlock => by cases hlock⟩
  | @acquire lock todo htodo hfree hclean =>
    have htaken : ∀ k ∈ m.held, k ∈ lock :: s.taken :=
      fun k hk => List.mem_cons_of_mem lock (hm.taken k hk)
    constructor
    · rcases take_cases s l lock with
        ⟨h, -, -, htake⟩ | ⟨h, -, -, hheld, htake⟩ | ⟨-, htake⟩ <;> rw [htake]
      · exact hm.frame htaken (fun _ => rfl) fun k _ hk => List.mem_cons_of_mem h hk
      · exact hm.frame htaken (fun hservers => absurd hheld (halone hservers)) fun _ _ => id
      · exact hm.frame htaken (fun _ => rfl) fun _ _ => id
    · intro k hk
      rcases List.mem_cons.mp hk with rfl | hold
      · exact fun hheld => hfree (hm.taken k hheld)
      · exact hshared k hold
  | @release lock todo htodo =>
    have hdisciplined := hl.disciplined
    rw [htodo] at hdisciplined
    obtain ⟨rest, hheld, -⟩ := hdisciplined
    have hmine : lock ∉ m.held := hshared lock (by simp [hheld])
    have htaken : ∀ k ∈ m.held, k ∈ s.taken.filter (· != lock) := by
      intro k hk
      refine List.mem_filter.mpr ⟨hm.taken k hk, ?_⟩
      rw [bne_iff_ne]
      rintro rfl
      exact hmine hk
    refine ⟨?_, fun k hk => hshared k (List.mem_of_mem_erase hk)⟩
    rcases giveBack_cases s l lock with
      ⟨h, rfl, -, hback⟩ | ⟨rfl, hback⟩ | ⟨-, -, hback⟩ <;> rw [hback]
    · refine hm.frame htaken (fun _ => rfl) fun k hk hcleaning => ?_
      refine List.mem_filter.mpr ⟨hcleaning, ?_⟩
      rw [bne_iff_ne]
      rintro rfl
      exact hmine hk
    · exact hm.frame htaken (fun hservers => absurd hservers hmine) fun _ _ => id
    · exact hm.frame htaken (fun _ => rfl) fun _ _ => id
  | returns =>
    refine ⟨hm.frame hm.taken (fun hservers => ?_) fun _ _ => id, hshared⟩
    exact if_neg (halone hservers)
  | @expand instr choice todo more htodo hmore hapart =>
    have hdisciplined := hl.disciplined
    rw [htodo] at hdisciplined
    refine ⟨hm.frame ?_ (fun hservers => ?_) ?_, hshared⟩
    · simpa using hm.taken
    · dsimp only
      rw [probes_eq_nil hdisciplined (halone hservers), List.nil_append]
    · simp

end Moves

/-- The condition of the runs. -/
abbrev probesApartIn (c : Pool LspServers LspTaskState) (act : Nat × LspLockAction) : Prop :=
  probesApart c.shared (c.threads act.1) act.2 = true

theorem lspLockTasks_holds {c : Pool LspServers LspTaskState}
    (h : lspLockTasks.system.ReachVia probesApartIn c) :
    Program.Holds LocksInvariant TaskHolds NoSharedLock c := by
  apply Program.Holds.of_reachVia ?_ ?_ ?_ ?_ h
  · rintro _ rfl
    exact ⟨⟨fun _ => rfl, by simp⟩, rfl, by simp [lspLockTasks], by simp [lspLockTasks],
      by simp [lspLockTasks], by simp [lspLockTasks]⟩
  · exact fun lock hlock => by cases hlock
  · exact fun l m hshared lock hm hl => hshared lock hl hm
  · intro c i a s' l' hc hok hstep
    have hmove := lspLockStep_cases hok hstep
    exact ⟨hmove.invariant hc.shared (hc.thread i), hmove.task hc.shared (hc.thread i),
      fun m hm hshared => hmove.other (hc.thread i) hm hshared⟩

/-- The rank of a task by the lock it wants. A task that holds nothing comes last. -/
def LspTaskState.rank (l : LspTaskState) : Nat :=
  match l.wants with
  | none => 0
  | some servers => if l.held = [] then 4 else 3
  | some (child _) => if l.held = [] then 4 else 2
  | some _ => 1

theorem LspTaskState.rank_le {l : LspTaskState} (h : l.held ≠ []) : l.rank ≤ 3 := by
  rw [rank]
  split <;> simp [h]

section Waits

variable {s : LspServers} {l m : LspTaskState} {lock : LspLock}

theorem TaskHolds.todo_of_wants (hwants : l.wants = some lock) :
    ∃ todo, l.todo = acquire lock :: todo := by
  rw [LspTaskState.wants] at hwants
  split at hwants
  · next todo htodo =>
      cases hwants
      exact ⟨todo, htodo⟩
  · cases hwants

theorem TaskHolds.allowed (hl : TaskHolds s l) (hwants : l.wants = some lock) :
    Allowed l.cleansUp l.held lock := by
  obtain ⟨todo, htodo⟩ := todo_of_wants hwants
  have hdisciplined := hl.disciplined
  rw [htodo] at hdisciplined
  exact hdisciplined.1

theorem TaskHolds.rank_of_leaf (hm : TaskHolds s m) (hleaf : lock.isLeaf = true)
    (hheld : lock ∈ m.held) : m.rank = 0 := by
  cases hwants : m.wants with
  | none => rw [LspTaskState.rank, hwants]
  | some wanted =>
    have hallowed := hm.allowed hwants
    cases wanted with
    | servers =>
      rcases hallowed with hnil | ⟨-, h, hone⟩
      · simp [hnil] at hheld
      · rw [hone, List.mem_singleton] at hheld
        rw [hheld] at hleaf
        cases hleaf
    | child =>
      rcases hallowed with hnil | ⟨-, hone⟩
      · simp [hnil] at hheld
      · rw [hone, List.mem_singleton] at hheld
        rw [hheld] at hleaf
        cases hleaf
    | exited | pending | notifications =>
      rw [hallowed lock hheld] at hleaf
      cases hleaf

theorem TaskHolds.rank_of_servers (hm : TaskHolds s m) (hheld : servers ∈ m.held) :
    m.rank ≤ 2 := by
  have hne : m.held ≠ [] := List.ne_nil_of_mem hheld
  rw [LspTaskState.rank]
  split
  · exact Nat.zero_le 2
  · next hwants =>
      rcases hm.allowed hwants with hnil | ⟨-, h, hone⟩
      · exact absurd hnil hne
      · simp [hone] at hheld
  · rw [if_neg hne]
  · omega

/-- A start waits for the child lock of a handle it probes. The task that holds it is no
cleanup. -/
theorem TaskHolds.rank_of_probed (hs : LocksInvariant s) (hm : TaskHolds s m) {h : Nat}
    (hheld : child h ∈ m.held) (hscanned : h ∈ s.scanning) : m.rank ≤ 1 := by
  have hne : m.held ≠ [] := List.ne_nil_of_mem hheld
  rw [LspTaskState.rank]
  split
  · exact Nat.zero_le 1
  · next hwants =>
      rcases hm.allowed hwants with hnil | ⟨hcleansUp, -⟩
      · exact absurd hnil hne
      · exact absurd (hm.cleaning hcleansUp h hheld) (hs.apart h hscanned)
  · next hwants =>
      rcases hm.allowed hwants with hnil | ⟨-, hone⟩
      · exact absurd hnil hne
      · simp [hone] at hheld
  · exact le_rfl

theorem rank_lt_of_wants (hs : LocksInvariant s) (hl : TaskHolds s l) (hm : TaskHolds s m)
    (hwants : l.wants = some lock) (hheld : lock ∈ m.held) : m.rank < l.rank := by
  have hlast (hnil : l.held = []) (hfour : l.rank = 4) : m.rank < l.rank := by
    have hle := LspTaskState.rank_le (List.ne_nil_of_mem hheld)
    omega
  have hallowed := hl.allowed hwants
  cases lock with
  | servers =>
    rcases hallowed with hnil | ⟨-, h, hone⟩
    · exact hlast hnil (by simp [LspTaskState.rank, hwants, hnil])
    · have hthree : l.rank = 3 := by simp [LspTaskState.rank, hwants, hone]
      have hle := hm.rank_of_servers hheld
      omega
  | child h =>
    rcases hallowed with hnil | ⟨-, hone⟩
    · exact hlast hnil (by simp [LspTaskState.rank, hwants, hnil])
    · have htwo : l.rank = 2 := by simp [LspTaskState.rank, hwants, hone]
      obtain ⟨todo, htodo⟩ := TaskHolds.todo_of_wants hwants
      have hscanned : h ∈ s.scanning := by
        rw [← hl.scanning (by simp [hone]), htodo]
        exact List.mem_cons_self
      have hle := hm.rank_of_probed hs hheld hscanned
      omega
  | exited | pending | notifications =>
    have hone : l.rank = 1 := by simp [LspTaskState.rank, hwants]
    have hzero := hm.rank_of_leaf rfl hheld
    omega

end Waits

/-- In a run in which no start is to probe a handle whose cleanup holds its child lock,
no tasks wait in a circle. -/
theorem locks_not_circular {c : Pool LspServers LspTaskState}
    (h : lspLockTasks.system.ReachVia probesApartIn c) :
    ¬ CircularWait fun i => (c.threads i).grip := by
  have hholds := lspLockTasks_holds h
  refine not_circularWait_of_rank (fun i => (c.threads i).rank) ?_
  rintro i j ⟨lock, hwants, hheld⟩
  exact rank_lt_of_wants hholds.shared (hholds.thread i) (hholds.thread j) hwants hheld

def choose (i : Nat) (choices : List LspChoice) : List (Nat × LspLockAction) :=
  choices.map fun choice => (i, .run choice)

def plainSteps (i n : Nat) : List (Nat × LspLockAction) :=
  choose i (List.replicate n .plain)

/-- A whole start of a key without a server. -/
def firstStart (i : Nat) (key : String) : List (Nat × LspLockAction) :=
  [(i, .begin (.start key))] ++ plainSteps i 6 ++ choose i [.answer false] ++ plainSteps i 4

/-- The reader of the server comes to its end and takes the child lock. -/
def readerEnds (i h : Nat) (key : String) : List (Nat × LspLockAction) :=
  [(i, .begin (.reader h key))] ++ choose i [.frame .ended] ++ plainSteps i 3

abbrev noTasks : Pool LspServers LspTaskState := lspLockTasks.start ⟨[], [], [], 0, [], []⟩

theorem noTasks_init : lspLockTasks.system.init noTasks := Program.system_init _ rfl

theorem locks_not_circular_cleanup :
    ∃ c, lspLockTasks.system.ReachVia probesApartIn c ∧
      (¬ CircularWait fun i => (c.threads i).grip) ∧ (c.threads 1).todo = [] ∧
        c.shared.registry = [] := by
  have hrun : (lspLockTasks.system.runVia probesApartIn noTasks
      (firstStart 0 "rust:/r" ++ readerEnds 1 0 "rust:/r" ++ plainSteps 1 4)).isSome := by
    decide +kernel
  have hreach := System.reachVia_get noTasks_init hrun
  refine ⟨_, hreach, locks_not_circular hreach, ?_⟩
  clear hreach
  decide +kernel +revert

theorem locks_crossed :
    ∃ c, lspLockTasks.system.Reachable c ∧
      (c.threads 1).wants = some servers ∧ servers ∈ (c.threads 2).held ∧
        (c.threads 2).wants = some (child 0) ∧ child 0 ∈ (c.threads 1).held := by
  have hrun : (lspLockTasks.system.run noTasks
      (firstStart 0 "rust:/r" ++ readerEnds 1 0 "rust:/r" ++
        [(2, .begin (.start "rust:/r"))] ++ plainSteps 2 2)).isSome := by
    decide +kernel
  refine ⟨_, System.reachable_get noTasks_init hrun, ?_⟩
  decide +kernel +revert

/-- The cleanup holds the child lock and asks for `servers`, which a second start holds
while it asks for the child lock. -/
theorem locks_circular :
    ∃ c, lspLockTasks.system.Reachable c ∧ CircularWait fun i => (c.threads i).grip := by
  obtain ⟨c, hreach, hwants, hheld, hwants', hheld'⟩ := locks_crossed
  exact ⟨c, hreach, circularWait_of_two (i := 1) (j := 2) hwants hheld hwants' hheld'⟩

end HerdrWebui.Lsp
