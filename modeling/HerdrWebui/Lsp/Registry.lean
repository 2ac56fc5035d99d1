import HerdrWebui.Concurrency.Threads
import HerdrWebui.Data.Table

/-!
The registry of the language servers. A start looks its key up, counts the running
servers, spawns a child and inserts its handle, in four steps. A cleanup kills the
child of its own handle and then drops whatever stands under the key. In a run in which
a child is spawned only where none is alive and no live server is dropped or replaced,
each live child is the one under its key, or its start is about to insert it.
-/

namespace HerdrWebui.Lsp

open Concurrency

def maxServers : Nat := 12

/-- The handle of one child that was spawned. -/
structure LspServerHandle where
  key : String
  alive : Bool
  deriving DecidableEq

/-- `handles` has all handles there ever were, and a handle is its place in it. -/
structure LspRegistry where
  servers : Table String Nat
  handles : List LspServerHandle

namespace LspRegistry

variable (s : LspRegistry)

/-- `is_running`. A failing `try_wait` is left out. -/
def isRunning (h : Nat) : Bool := (s.handles[h]?).any (·.alive)

/-- A live server is registered under the key. -/
def liveUnder (key : String) : Bool := (s.servers.lookup key).any s.isRunning

def values : List Nat :=
  (List.range s.handles.length).filter fun h =>
    (s.handles[h]?).any fun handle => s.servers.lookup handle.key == some h

def keyOf (h : Nat) : Option String := (s.handles[h]?).map (·.key)

def kill (h : Nat) : LspRegistry :=
  { s with handles := s.handles.modify h fun handle => { handle with alive := false } }

def spawn (key : String) : LspRegistry := { s with handles := s.handles ++ [⟨key, true⟩] }

def insert (key : String) (h : Nat) : LspRegistry := { s with servers := s.servers.insert key h }

def remove (key : String) : LspRegistry := { s with servers := s.servers.erase key }

def removeAll (keys : List String) : LspRegistry := keys.foldl remove s

def clear : LspRegistry := { s with servers := ∅ }

def aliveCount : Nat := s.handles.countP (·.alive)

end LspRegistry

/-- Where a task stands: a start, a cleanup, a stop of one server or of all, or a
status request. -/
inductive LspPhase where
  | idle
  | lookedUp (key : String)
  | checked (key : String)
  | spawned (key : String) (handle : Nat)
  | stopping (key : String) (handle : Nat)
  | killed (key : String)
  | stoppingAll (handles : List Nat)
  | probing (handles : List Nat) (dead : List String)
  | done
  deriving DecidableEq

inductive LspAction where
  | lookup (key : String)
  | capacity
  | spawn
  | insert
  | cleanUp (handle : Nat)
  | stop (key : String)
  | stopAll
  | kill
  | removeKey
  | clear
  | status
  | probe
  | prune
  | crash (handle : Nat)

/-- The reader's cleanup and the idle task of a handle are both `cleanUp`, and either
may run at any time. A spawn that fails is no step. -/
def lspStep (a : LspAction) (s : LspRegistry) (l : LspPhase) : Option (LspRegistry × LspPhase) :=
  match a, l with
  | .lookup key, .idle => some (s, if s.liveUnder key then .done else .lookedUp key)
  | .capacity, .lookedUp key =>
    some (s, if s.values.countP s.isRunning < maxServers then .checked key else .done)
  | .spawn, .checked key => some (s.spawn key, .spawned key s.handles.length)
  | .insert, .spawned key handle => some (s.insert key handle, .done)
  | .cleanUp handle, .idle => (s.keyOf handle).map fun key => (s.kill handle, .killed key)
  | .stop key, .idle =>
    match s.servers.lookup key with
    | none => some (s, .done)
    | some handle => some (s, .stopping key handle)
  | .kill, .stopping key handle => some (s.kill handle, .killed key)
  | .removeKey, .killed key => some (s.remove key, .done)
  | .stopAll, .idle => some (s, .stoppingAll s.values)
  | .kill, .stoppingAll (handle :: handles) => some (s.kill handle, .stoppingAll handles)
  | .clear, .stoppingAll [] => some (s.clear, .done)
  | .status, .idle => some (s, .probing s.values [])
  | .probe, .probing (handle :: handles) dead =>
    (s.keyOf handle).map fun key =>
      (s, .probing handles (if s.isRunning handle then dead else key :: dead))
  | .prune, .probing [] dead => some (s.removeAll dead, .done)
  | .crash handle, l => some (s.kill handle, l)
  | _, _ => none

def lspTasks : Program LspRegistry LspPhase LspAction where
  init s := s = ⟨∅, []⟩
  idle := .idle
  step := lspStep

def OnePerKey (s : LspRegistry) : Prop :=
  ∀ (h h' : Nat) (handle handle' : LspServerHandle), s.handles[h]? = some handle → s.handles[h']? = some handle' →
    handle.alive = true → handle'.alive = true → handle.key = handle'.key → h = h'

/-- A live child is the one under its key, unless its start is yet to insert it. -/
def Owned (c : Pool LspRegistry LspPhase) : Prop :=
  ∀ (h : Nat) (handle : LspServerHandle), c.shared.handles[h]? = some handle → handle.alive = true →
    c.shared.servers.lookup handle.key = some h ∨ ∃ i, c.threads i = .spawned handle.key h

/-- A child is spawned only where none of its key is alive and fewer than the limit
are, and no live server is dropped from the registry or replaced in it. -/
def keepsLive (s : LspRegistry) (l : LspPhase) (a : LspAction) : Bool :=
  match a, l with
  | .spawn, .checked key =>
    !(s.handles.any fun handle => handle.alive && handle.key == key) &&
      s.aliveCount < maxServers
  | .insert, .spawned key _ => !s.liveUnder key
  | .removeKey, .killed key => !s.liveUnder key
  | .clear, .stoppingAll [] => !(s.handles.any fun handle => s.liveUnder handle.key)
  | .prune, .probing [] dead => !dead.any s.liveUnder
  | _, _ => true

namespace LspRegistry

variable {s : LspRegistry} {key : String} {h k : Nat} {handle : LspServerHandle}

theorem liveUnder_eq_false_iff :
    s.liveUnder key = false ↔ ∀ h, s.servers.lookup key = some h → s.isRunning h = false := by
  rw [liveUnder]
  cases s.servers.lookup key <;> simp

theorem isRunning_of_alive (hhandle : s.handles[h]? = some handle) (halive : handle.alive = true) :
    s.isRunning h = true := by
  simp [isRunning, hhandle, halive]

theorem handles_kill (hhandle : (s.kill h).handles[k]? = some handle) :
    ∃ old, s.handles[k]? = some old ∧ old.key = handle.key ∧
      (handle.alive = true → old.alive = true ∧ k ≠ h) := by
  rw [kill, List.getElem?_modify] at hhandle
  change Option.map _ _ = _ at hhandle
  rw [Option.map_eq_some_iff] at hhandle
  obtain ⟨old, hold, rfl⟩ := hhandle
  refine ⟨old, hold, ?_⟩
  split
  · exact ⟨rfl, fun halive => by cases halive⟩
  · next hne => exact ⟨rfl, fun halive => ⟨halive, fun heq => hne heq.symm⟩⟩

theorem aliveCount_kill_le : (s.kill h).aliveCount ≤ s.aliveCount := by
  rw [aliveCount, aliveCount, kill]
  generalize s.handles = handles
  induction handles generalizing h with
  | nil => simp
  | cons handle handles ih =>
    cases h with
    | zero => simp [List.countP_cons]
    | succ h =>
      simp only [List.modify_succ_cons, List.countP_cons]
      exact Nat.add_le_add_right ih _

theorem handles_spawn (hhandle : (s.spawn key).handles[h]? = some handle) :
    s.handles[h]? = some handle ∨ h = s.handles.length ∧ handle = ⟨key, true⟩ := by
  rw [spawn, List.getElem?_append] at hhandle
  split at hhandle
  · exact .inl hhandle
  · next hlen =>
      rw [List.getElem?_singleton] at hhandle
      split at hhandle
      · exact .inr ⟨by omega, (Option.some.inj hhandle).symm⟩
      · cases hhandle

theorem removeAll_handles (keys : List String) : (s.removeAll keys).handles = s.handles := by
  induction keys generalizing s with
  | nil => rfl
  | cons key keys ih => exact ih

theorem lookup_removeAll (keys : List String) (key : String) :
    (s.removeAll keys).servers.lookup key =
      if key ∈ keys then none else s.servers.lookup key := by
  induction keys generalizing s with
  | nil => simp [removeAll]
  | cons key' keys ih =>
    have hstep : s.removeAll (key' :: keys) = (s.remove key').removeAll keys := rfl
    rw [hstep, ih]
    by_cases hkey : key = key' <;> by_cases hkeys : key ∈ keys <;> simp [remove, hkey, hkeys]

end LspRegistry

def LspPhase.IsSpawned : LspPhase → Prop
  | .spawned _ _ => True
  | _ => False

/-- What stands under a key is a handle of this key. -/
def Registered (s : LspRegistry) : Prop :=
  ∀ key h, s.servers.lookup key = some h → s.keyOf h = some key

/-- No live server is dropped from the registry. -/
structure Dropped (s s' : LspRegistry) : Prop where
  handles : s'.handles = s.handles
  old : ∀ key h, s'.servers.lookup key = some h → s.servers.lookup key = some h
  live : ∀ key h, s.servers.lookup key = some h → s.isRunning h = true →
    s'.servers.lookup key = some h

/-- The steps, with what the condition says of each. -/
inductive LspMove (s : LspRegistry) : LspPhase → LspRegistry → LspPhase → Prop
  | same {l l' : LspPhase} (hl : ¬ l.IsSpawned) (hl' : ¬ l'.IsSpawned) : LspMove s l s l'
  | spawn {key : String} (hfree : ∀ handle ∈ s.handles, handle.alive = true → handle.key ≠ key)
      (hroom : s.aliveCount < maxServers) :
      LspMove s (.checked key) (s.spawn key) (.spawned key s.handles.length)
  | insert {key : String} {h : Nat} (hdead : s.liveUnder key = false) :
      LspMove s (.spawned key h) (s.insert key h) .done
  | kill {l l' : LspPhase} (h : Nat) (hphase : l' = l ∨ ¬ l.IsSpawned ∧ ¬ l'.IsSpawned) :
      LspMove s l (s.kill h) l'
  | drop {l : LspPhase} {s' : LspRegistry} (hl : ¬ l.IsSpawned) (hdrop : Dropped s s') :
      LspMove s l s' .done

section Moves

variable {s s' : LspRegistry} {l l' m : LspPhase}

theorem Dropped.remove {key : String} (hdead : s.liveUnder key = false) :
    Dropped s (s.remove key) := by
  rw [LspRegistry.liveUnder_eq_false_iff] at hdead
  refine ⟨rfl, fun key' h hlookup => ?_, fun key' h hlookup hrunning => ?_⟩
  · exact (Table.lookup_erase_eq_some.mp hlookup).2
  · refine Table.lookup_erase_eq_some.mpr ⟨?_, hlookup⟩
    rintro rfl
    rw [hdead h hlookup] at hrunning
    cases hrunning

theorem Dropped.removeAll {keys : List String} (hdead : keys.any s.liveUnder = false) :
    Dropped s (s.removeAll keys) := by
  refine ⟨LspRegistry.removeAll_handles keys, fun key h hlookup => ?_,
    fun key h hlookup hrunning => ?_⟩
  · rw [LspRegistry.lookup_removeAll] at hlookup
    split at hlookup
    · cases hlookup
    · exact hlookup
  · rw [LspRegistry.lookup_removeAll, if_neg, hlookup]
    intro hmem
    have hkey := List.any_eq_false.mp hdead key hmem
    rw [Bool.not_eq_true, LspRegistry.liveUnder_eq_false_iff] at hkey
    rw [hkey h hlookup] at hrunning
    cases hrunning

theorem Dropped.clear (hregistered : Registered s)
    (hdead : (s.handles.any fun handle => s.liveUnder handle.key) = false) :
    Dropped s s.clear := by
  refine ⟨rfl, fun key h hlookup => ?_, fun key h hlookup hrunning => ?_⟩
  · simp [LspRegistry.clear] at hlookup
  · obtain ⟨handle, hhandle, rfl⟩ := Option.map_eq_some_iff.mp (hregistered key h hlookup)
    have hkey := List.any_eq_false.mp hdead handle (List.mem_of_getElem? hhandle)
    rw [Bool.not_eq_true, LspRegistry.liveUnder_eq_false_iff] at hkey
    rw [hkey h hlookup] at hrunning
    cases hrunning

theorem lspStep_cases {a : LspAction} (hregistered : Registered s) (hok : keepsLive s l a = true)
    (hstep : lspStep a s l = some (s', l')) : LspMove s l s' l' := by
  have hsame {p : Prop} [Decidable p] {l₁ l₂ : LspPhase} (hl : ¬ l.IsSpawned)
      (h₁ : ¬ l₁.IsSpawned) (h₂ : ¬ l₂.IsSpawned) :
      LspMove s l s (if p then l₁ else l₂) := by
    split
    · exact .same hl h₁
    · exact .same hl h₂
  cases a with
  | lookup key =>
    cases l <;> cases hstep
    exact hsame id id id
  | capacity =>
    cases l <;> cases hstep
    exact hsame id id id
  | spawn =>
    cases l <;> cases hstep
    next key =>
      simp only [keepsLive, Bool.and_eq_true, Bool.not_eq_true', List.any_eq_false,
        decide_eq_true_eq] at hok
      refine .spawn (fun handle hmem halive hkey => hok.1 handle hmem ?_) hok.2
      simp [halive, hkey]
  | insert =>
    cases l <;> cases hstep
    exact .insert (by simpa [keepsLive] using hok)
  | cleanUp handle =>
    cases l with
    | idle =>
      obtain ⟨key, -, heq⟩ := Option.map_eq_some_iff.mp hstep
      cases heq
      exact .kill handle (.inr ⟨id, id⟩)
    | _ => cases hstep
  | stop key =>
    cases l with
    | idle =>
      rw [lspStep] at hstep
      split at hstep <;> cases hstep <;> exact .same id id
    | _ => cases hstep
  | stopAll =>
    cases l <;> cases hstep
    exact .same id id
  | kill =>
    cases l with
    | stopping key handle =>
      cases hstep
      exact .kill handle (.inr ⟨id, id⟩)
    | stoppingAll handles =>
      cases handles <;> cases hstep
      exact .kill _ (.inr ⟨id, id⟩)
    | _ => cases hstep
  | removeKey =>
    cases l <;> cases hstep
    exact .drop id (.remove (by simpa [keepsLive] using hok))
  | clear =>
    cases l with
    | stoppingAll handles =>
      cases handles <;> cases hstep
      exact .drop id (.clear hregistered (by simpa [keepsLive] using hok))
    | _ => cases hstep
  | status =>
    cases l <;> cases hstep
    exact .same id id
  | probe =>
    cases l with
    | probing handles dead =>
      cases handles with
      | nil => cases hstep
      | cons handle handles =>
        obtain ⟨key, -, heq⟩ := Option.map_eq_some_iff.mp hstep
        cases heq
        exact .same id id
    | _ => cases hstep
  | prune =>
    cases l with
    | probing handles dead =>
      cases handles <;> cases hstep
      exact .drop id (.removeAll (by simpa [keepsLive] using hok))
    | _ => cases hstep
  | crash handle =>
    have hcrash : s' = s.kill handle ∧ l' = l := by
      cases l <;> cases hstep <;> exact ⟨rfl, rfl⟩
    obtain ⟨rfl, rfl⟩ := hcrash
    exact .kill handle (.inl rfl)

structure RegistryInvariant (s : LspRegistry) : Prop where
  registered : Registered s
  onePerKey : OnePerKey s
  bounded : s.aliveCount ≤ maxServers

/-- A start that is yet to insert has a handle of its key. -/
def LspPhaseHolds (s : LspRegistry) : LspPhase → Prop
  | .spawned key h => s.keyOf h = some key
  | _ => True

theorem LspPhaseHolds.of_not_spawned (h : ¬ m.IsSpawned) : LspPhaseHolds s m := by
  cases m with
  | spawned => exact absurd trivial h
  | _ => trivial

theorem LspMove.keyOf (hmove : LspMove s l s' l') {h : Nat} {key : String}
    (hkey : s.keyOf h = some key) : s'.keyOf h = some key := by
  obtain ⟨handle, hhandle, rfl⟩ := Option.map_eq_some_iff.mp hkey
  cases hmove with
  | same | insert => exact hkey
  | spawn =>
    simp only [LspRegistry.keyOf, LspRegistry.spawn]
    rw [List.getElem?_append_left (List.getElem?_eq_some_iff.mp hhandle).1]
    exact hkey
  | kill k =>
    simp only [LspRegistry.keyOf, LspRegistry.kill, List.getElem?_modify, hhandle]
    change some _ = _
    split <;> rfl
  | drop _ hdrop => rwa [LspRegistry.keyOf, hdrop.handles]

theorem LspMove.invariant (hmove : LspMove s l s' l') (hs : RegistryInvariant s)
    (hl : LspPhaseHolds s l) : RegistryInvariant s' := by
  have hkept {key : String} {h : Nat} (hkey : s.keyOf h = some key) : s'.keyOf h = some key :=
    hmove.keyOf hkey
  cases hmove with
  | same => exact hs
  | @spawn key hfree hroom =>
    refine ⟨fun key h hlookup => hkept (hs.registered key h hlookup), ?_, ?_⟩
    · intro h h' handle handle' hhandle hhandle' halive halive' hkey
      rcases LspRegistry.handles_spawn hhandle with hold | ⟨rfl, rfl⟩ <;>
        rcases LspRegistry.handles_spawn hhandle' with hold' | ⟨rfl, rfl⟩
      · exact hs.onePerKey h h' handle handle' hold hold' halive halive' hkey
      · exact absurd hkey (hfree handle (List.mem_of_getElem? hold) halive)
      · exact absurd hkey.symm (hfree handle' (List.mem_of_getElem? hold') halive')
      · rfl
    · simp only [LspRegistry.aliveCount, LspRegistry.spawn] at hroom ⊢
      simpa [List.countP_append] using hroom
  | @insert key h _ =>
    refine ⟨fun key' h' hlookup => ?_, hs.onePerKey, hs.bounded⟩
    rcases Table.lookup_insert_eq_some.mp hlookup with ⟨rfl, rfl⟩ | ⟨-, hold⟩
    · exact hl
    · exact hs.registered key' h' hold
  | kill k =>
    refine ⟨fun key h hlookup => hkept (hs.registered key h hlookup), ?_,
      LspRegistry.aliveCount_kill_le.trans hs.bounded⟩
    intro h h' handle handle' hhandle hhandle' halive halive' hkey
    obtain ⟨old, hold, hkey₁, hlive⟩ := LspRegistry.handles_kill hhandle
    obtain ⟨old', hold', hkey₂, hlive'⟩ := LspRegistry.handles_kill hhandle'
    exact hs.onePerKey h h' old old' hold hold' (hlive halive).1 (hlive' halive').1
      (hkey₁.trans (hkey.trans hkey₂.symm))
  | drop _ hdrop =>
    refine ⟨fun key h hlookup => hkept (hs.registered key h (hdrop.old key h hlookup)), ?_, ?_⟩
    · intro h h' handle handle' hhandle hhandle'
      rw [hdrop.handles] at hhandle hhandle'
      exact hs.onePerKey h h' handle handle' hhandle hhandle'
    · rw [LspRegistry.aliveCount, hdrop.handles]
      exact hs.bounded

theorem LspMove.phase (hmove : LspMove s l s' l') (hl : LspPhaseHolds s l) :
    LspPhaseHolds s' l' := by
  have hkept {key : String} {h : Nat} (hkey : s.keyOf h = some key) : s'.keyOf h = some key :=
    hmove.keyOf hkey
  cases hmove with
  | same _ hl' => exact .of_not_spawned hl'
  | spawn =>
    simp only [LspPhaseHolds, LspRegistry.keyOf, LspRegistry.spawn]
    simp
  | insert | drop => trivial
  | kill h hphase =>
    rcases hphase with rfl | ⟨-, hl'⟩
    · cases l' with
      | spawned key h => exact hkept hl
      | _ => trivial
    · exact .of_not_spawned hl'

theorem LspMove.other (hmove : LspMove s l s' l') (hm : LspPhaseHolds s m) :
    LspPhaseHolds s' m := by
  cases m with
  | spawned key h => exact hmove.keyOf hm
  | _ => trivial

end Moves

/-- The condition of the runs. -/
abbrev keepsLiveIn (c : Pool LspRegistry LspPhase) (act : Nat × LspAction) : Prop :=
  keepsLive c.shared (c.threads act.1) act.2 = true

theorem lspTasks_holds {c : Pool LspRegistry LspPhase}
    (h : lspTasks.system.ReachVia keepsLiveIn c) :
    Program.Holds RegistryInvariant LspPhaseHolds (fun _ _ => True) c := by
  apply Program.Holds.of_reachVia ?_ ?_ ?_ ?_ h
  · rintro _ rfl
    refine ⟨⟨?_, ?_, Nat.zero_le _⟩, trivial⟩
    · intro key h hlookup
      simp at hlookup
    · intro h h' handle handle' hhandle
      simp at hhandle
  · trivial
  · exact fun _ _ _ => trivial
  · intro c i a s' l' hc hok hstep
    have hmove := lspStep_cases hc.shared.registered hok hstep
    exact ⟨hmove.invariant hc.shared (hc.thread i), hmove.phase (hc.thread i),
      fun m hm _ => ⟨hmove.other hm, trivial⟩⟩

theorem lspTasks_owned {c : Pool LspRegistry LspPhase}
    (h : lspTasks.system.ReachVia keepsLiveIn c) : Owned c := by
  refine h.invariant ?_ ?_
  · rintro _ ⟨s, rfl, rfl⟩ h handle hhandle
    simp [Program.start] at hhandle
  · rintro c ⟨i, a⟩ c' hreach howned hok hstep
    obtain ⟨s', l', hlocal, rfl⟩ := Program.poolStep_cases hstep
    have hholds := lspTasks_holds hreach
    have hmove := lspStep_cases hholds.shared.registered hok hlocal
    have hl := hholds.thread i
    generalize hthread : c.threads i = l at hmove hl
    intro h handle hhandle halive
    dsimp only at hhandle ⊢
    have hflight {key : String} (hl' : l = .spawned key h → l' = .spawned key h)
        (hj : ∃ j, c.threads j = .spawned key h) :
        ∃ j, Function.update c.threads i l' j = .spawned key h := by
      refine Program.exists_thread_update (p := fun l : LspPhase => l = .spawned key h) hj ?_
      rw [hthread]
      exact hl'
    have hnot {l₀ : LspPhase} {key : String} (hl₀ : ¬ l₀.IsSpawned) : l₀ ≠ .spawned key h := by
      rintro rfl
      exact hl₀ trivial
    cases hmove with
    | same hl₀ =>
      exact (howned h handle hhandle halive).imp_right
        (hflight fun heq => absurd heq (hnot hl₀))
    | @spawn key =>
      rcases LspRegistry.handles_spawn hhandle with hold | ⟨rfl, rfl⟩
      · exact (howned h handle hold halive).imp_right (hflight fun heq => by cases heq)
      · exact .inr ⟨i, by simp⟩
    | @insert key k hdead =>
      have hrunning : c.shared.isRunning h = true :=
        LspRegistry.isRunning_of_alive hhandle halive
      rcases howned h handle hhandle halive with hlookup | ⟨j, hj⟩
      · refine .inl (Table.lookup_insert_eq_some.mpr (.inr ⟨?_, hlookup⟩))
        rintro rfl
        rw [LspRegistry.liveUnder_eq_false_iff.mp hdead h hlookup] at hrunning
        cases hrunning
      · by_cases hji : j = i
        · rw [hji, hthread] at hj
          cases hj
          exact .inl (Table.lookup_insert_eq_some.mpr (.inl ⟨rfl, rfl⟩))
        · exact .inr ⟨j, by rw [Function.update_of_ne hji, hj]⟩
    | kill k hphase =>
      obtain ⟨old, hold, hkey, hlive⟩ := LspRegistry.handles_kill hhandle
      have hbefore := howned h old hold (hlive halive).1
      rw [hkey] at hbefore
      refine hbefore.imp_right (hflight fun heq => ?_)
      rcases hphase with rfl | ⟨hl₀, -⟩
      · exact heq
      · exact absurd heq (hnot hl₀)
    | drop hl₀ hdrop =>
      rw [hdrop.handles] at hhandle
      have hrunning := LspRegistry.isRunning_of_alive hhandle halive
      rcases howned h handle hhandle halive with hlookup | hj
      · exact .inl (hdrop.live _ _ hlookup hrunning)
      · exact .inr (hflight (fun heq => absurd heq (hnot hl₀)) hj)

/-- In a run in which a child is spawned only where there is room and none of its key,
and no live server is dropped or replaced, the registry owns the children. -/
theorem registry_owns {c : Pool LspRegistry LspPhase}
    (h : lspTasks.system.ReachVia keepsLiveIn c) :
    OnePerKey c.shared ∧ Owned c ∧ c.shared.aliveCount ≤ maxServers :=
  ⟨(lspTasks_holds h).shared.onePerKey, lspTasks_owned h, (lspTasks_holds h).shared.bounded⟩

def checkStart (i : Nat) (key : String) : List (Nat × LspAction) :=
  [(i, .lookup key), (i, .capacity)]

def finishStart (i : Nat) : List (Nat × LspAction) := [(i, .spawn), (i, .insert)]

abbrev noServers : Pool LspRegistry LspPhase := lspTasks.start ⟨∅, []⟩

theorem noServers_init : lspTasks.system.init noServers := Program.system_init _ rfl

def restart : List (Nat × LspAction) :=
  checkStart 0 "rust:/r" ++ finishStart 0 ++ [(1, .crash 0), (1, .cleanUp 0), (1, .removeKey)] ++
    checkStart 2 "rust:/r" ++ finishStart 2

theorem registry_owns_restart :
    ∃ c, lspTasks.system.ReachVia keepsLiveIn c ∧
      (OnePerKey c.shared ∧ Owned c ∧ c.shared.aliveCount ≤ maxServers) ∧
        c.shared.servers.lookup "rust:/r" = some 1 := by
  have hrun : (lspTasks.system.runVia keepsLiveIn noServers restart).isSome := by
    decide +kernel
  have hreach := System.reachVia_get noServers_init hrun
  refine ⟨_, hreach, registry_owns hreach, ?_⟩
  clear hreach
  decide +kernel +revert

theorem not_owned {c : Pool LspRegistry LspPhase} (h : Nat) (handle : LspServerHandle)
    (hhandle : c.shared.handles[h]? = some handle) (halive : handle.alive = true)
    (hlookup : c.shared.servers.lookup handle.key ≠ some h)
    (hthreads : ∀ i, ¬ (c.threads i).IsSpawned) : ¬ Owned c := by
  intro howned
  rcases howned h handle hhandle halive with hregistered | ⟨i, hi⟩
  · exact hlookup hregistered
  · apply hthreads i
    rw [hi]
    trivial

instance (l : LspPhase) : Decidable l.IsSpawned := by
  cases l <;> unfold LspPhase.IsSpawned <;> infer_instance

/-- Two starts of one key spawn before either inserts. -/
def twoStarts : List (Nat × LspAction) :=
  checkStart 0 "rust:/r" ++ checkStart 1 "rust:/r" ++ finishStart 0 ++ finishStart 1

theorem two_children_of_key :
    ∃ c, lspTasks.system.Reachable c ∧ ¬ OnePerKey c.shared ∧ ¬ Owned c := by
  have hrun : (lspTasks.system.run noServers twoStarts).isSome := by decide +kernel
  have hend : ((lspTasks.system.run noServers twoStarts).get hrun).shared.handles =
      [⟨"rust:/r", true⟩, ⟨"rust:/r", true⟩] ∧
      ((lspTasks.system.run noServers twoStarts).get hrun).shared.servers.lookup "rust:/r" =
        some 1 := by
    decide +kernel +revert
  have hthreads : ∀ act ∈ twoStarts,
      ¬ (((lspTasks.system.run noServers twoStarts).get hrun).threads act.1).IsSpawned := by
    clear hend
    decide +kernel +revert
  refine ⟨_, System.reachable_get noServers_init hrun, fun hone => ?_, ?_⟩
  · have hsame := hone 0 1 ⟨"rust:/r", true⟩ ⟨"rust:/r", true⟩ (by rw [hend.1]; rfl)
      (by rw [hend.1]; rfl) rfl rfl rfl
    cases hsame
  · refine not_owned 0 ⟨"rust:/r", true⟩ (by rw [hend.1]; rfl) rfl ?_
      (Program.forall_threads_of_runVia (p := fun l : LspPhase => ¬ l.IsSpawned)
        (Option.some_get hrun).symm id hthreads)
    rw [hend.2]
    decide

/-- The cleanup of a crashed child comes after the next start. -/
def lateCleanup : List (Nat × LspAction) :=
  checkStart 0 "rust:/r" ++ finishStart 0 ++ [(1, .crash 0)] ++ checkStart 2 "rust:/r" ++
    finishStart 2 ++ [(1, .cleanUp 0), (1, .removeKey)]

theorem newer_server_unregistered : ∃ c, lspTasks.system.Reachable c ∧ ¬ Owned c := by
  have hrun : (lspTasks.system.run noServers lateCleanup).isSome := by decide +kernel
  have hend : ((lspTasks.system.run noServers lateCleanup).get hrun).shared.handles[1]? =
      some ⟨"rust:/r", true⟩ ∧
      ((lspTasks.system.run noServers lateCleanup).get hrun).shared.servers.lookup "rust:/r" =
        none := by
    decide +kernel +revert
  have hthreads : ∀ act ∈ lateCleanup,
      ¬ (((lspTasks.system.run noServers lateCleanup).get hrun).threads act.1).IsSpawned := by
    clear hend
    decide +kernel +revert
  refine ⟨_, System.reachable_get noServers_init hrun, ?_⟩
  refine not_owned 1 ⟨"rust:/r", true⟩ hend.1 rfl ?_
    (Program.forall_threads_of_runVia (p := fun l : LspPhase => ¬ l.IsSpawned)
      (Option.some_get hrun).symm id hthreads)
  rw [hend.2]
  simp

/-- Thirteen starts of different keys count the servers before any spawns. -/
def manyStarts : List (Nat × LspAction) :=
  let ids := List.range (maxServers + 1)
  (ids.flatMap fun i => checkStart i (String.ofList (List.replicate i 'k'))) ++
    ids.map fun i => (i, .spawn)

theorem too_many_children :
    ∃ c, lspTasks.system.Reachable c ∧ maxServers < c.shared.aliveCount := by
  have hrun : (lspTasks.system.run noServers manyStarts).isSome := by decide +kernel
  have hend : maxServers <
      ((lspTasks.system.run noServers manyStarts).get hrun).shared.aliveCount := by
    decide +kernel +revert
  exact ⟨_, System.reachable_get noServers_init hrun, hend⟩

/-- All three parts fail, and a late cleanup drops a newer live server. -/
theorem registry_disowns :
    (∃ c, lspTasks.system.Reachable c ∧ ¬ OnePerKey c.shared ∧ ¬ Owned c) ∧
      (∃ c, lspTasks.system.Reachable c ∧ ¬ Owned c) ∧
      ∃ c, lspTasks.system.Reachable c ∧ maxServers < c.shared.aliveCount :=
  ⟨two_children_of_key, newer_server_unregistered, too_many_children⟩

end HerdrWebui.Lsp
