import Mathlib.Tactic

/-!
What the lifecycle of one built-in session works on: the closed marker, the
registry of handles, the start lock, the socket files and the backends. A backend
that is stopped is not gone at once: its listener threads leave when they are
woken, and with the last reference the socket files are removed, by name.
-/

namespace HerdrWebui.Session

/-- A `BuiltinBackendInner`. -/
structure Backend where
  running : Bool
  apiListening : Bool
  clientListening : Bool
  /-- The handle was not dropped. -/
  handled : Bool
  /-- The last reference is gone, and the socket files were removed with it. -/
  dropped : Bool
  deriving DecidableEq

def Backend.absent : Backend := ⟨false, false, false, false, true⟩

def Backend.new : Backend := ⟨true, true, true, true, false⟩

structure SessionState where
  /-- The name is in `closed_builtin_sessions`. -/
  closed : Bool
  /-- The handle registered under the name in `builtin_sessions`. -/
  registered : Option Nat
  startLock : Bool
  /-- The backend the socket files were bound by, if the files exist. -/
  sockets : Option Nat
  backends : Nat → Backend
  /-- How many backends were started, and the number of the next one. -/
  started : Nat
  /-- A close completed, and since then no launch began and no cleanup removed
  the session. No code reads it. -/
  restsClosed : Bool

namespace SessionState

/-- An earlier process may have left its socket files. -/
def boot (leftover : Bool) : SessionState where
  closed := false
  registered := none
  startLock := false
  sockets := if leftover then some 0 else none
  backends _ := .absent
  started := if leftover then 1 else 0
  restsClosed := false

variable (s : SessionState)

/-- `connect_local_stream` on the api socket. -/
def connects : Bool := s.sockets.any fun b => (s.backends b).apiListening

def isRunning : Bool := s.registered.any fun b => (s.backends b).running

def onBackend (b : Nat) (f : Backend → Backend) : SessionState :=
  { s with backends := Function.update s.backends b (f (s.backends b)) }

/-- The request reaches whoever listens on the socket. -/
def serverStop : SessionState :=
  match s.sockets with
  | some b =>
    if (s.backends b).apiListening then
      s.onBackend b fun backend => { backend with running := false }
    else s
  | none => s

def dropHandle : SessionState :=
  match s.registered with
  | some b =>
    { s.onBackend b fun backend =>
        { backend with running := false, handled := false } with
      registered := none }
  | none => s

def evictDead : SessionState := if s.isRunning then s else s.dropHandle

/-- `BuiltinBackendHandle::start`, which refuses a socket somebody listens on. -/
def startBackend : Option SessionState :=
  if s.connects then none
  else
    some { s with
      sockets := some s.started
      backends := Function.update s.backends s.started .new
      started := s.started + 1 }

def exitApiListener (b : Nat) : Option SessionState :=
  if (s.backends b).running then none
  else some (s.onBackend b fun backend => { backend with apiListening := false })

def exitClientListener (b : Nat) : Option SessionState :=
  if (s.backends b).running then none
  else some (s.onBackend b fun backend => { backend with clientListening := false })

/-- `Drop for BuiltinBackendInner`, once nobody refers to it. -/
def dropInner (b : Nat) : Option SessionState :=
  let backend := s.backends b
  if backend.handled || backend.apiListening || backend.clientListening ||
      backend.dropped then none
  else
    some { s.onBackend b fun backend => { backend with dropped := true } with
      sockets := none }

end SessionState

namespace SessionState

def Down (s : SessionState) : Prop := ∀ b, (s.backends b).running = false

/-- Backends were stopped or dropped, and none was started. -/
structure Stops (s s' : SessionState) : Prop where
  started : s'.started = s.started
  running : ∀ b, (s'.backends b).running = true → (s.backends b).running = true ∧
    (s'.backends b).apiListening = (s.backends b).apiListening
  dropped : ∀ b, (s.backends b).dropped = true → (s'.backends b).dropped = true

variable {s s' : SessionState}

theorem Stops.of_backends (hstarted : s'.started = s.started)
    (hbackends : s'.backends = s.backends) : Stops s s' where
  started := hstarted
  running b h := by
    rw [hbackends] at h ⊢
    exact ⟨h, rfl⟩
  dropped b h := by rwa [hbackends]

theorem Stops.down (h : Stops s s') (hdown : s.Down) : s'.Down := by
  intro b
  rw [Bool.eq_false_iff]
  intro hrunning
  exact absurd (h.running b hrunning).1 (by rw [hdown b]; exact Bool.false_ne_true)

theorem onBackend_stops {b : Nat} {f : Backend → Backend}
    (hrunning : (f (s.backends b)).running = true → (s.backends b).running = true ∧
      (f (s.backends b)).apiListening = (s.backends b).apiListening)
    (hdropped : (s.backends b).dropped = true → (f (s.backends b)).dropped = true) :
    Stops s (s.onBackend b f) where
  started := rfl
  running other h := by
    rcases eq_or_ne other b with rfl | hne
    · simpa [onBackend] using hrunning (by simpa [onBackend] using h)
    · simpa [onBackend, hne] using h
  dropped other h := by
    rcases eq_or_ne other b with rfl | hne
    · simpa [onBackend] using hdropped h
    · simpa [onBackend, hne] using h

theorem serverStop_stops : Stops s s.serverStop := by
  rw [serverStop]
  split
  · split
    · exact onBackend_stops (fun h => by cases h) id
    · exact .of_backends rfl rfl
  · exact .of_backends rfl rfl

theorem dropHandle_stops : Stops s s.dropHandle := by
  rw [dropHandle]
  split
  · next b _ =>
      have hstops : Stops s (s.onBackend b fun backend =>
          { backend with running := false, handled := false }) :=
        onBackend_stops (fun h => by cases h) id
      exact ⟨hstops.started, hstops.running, hstops.dropped⟩
  · exact .of_backends rfl rfl

theorem evictDead_stops : Stops s s.evictDead := by
  rw [evictDead]
  split
  · exact .of_backends rfl rfl
  · exact dropHandle_stops

theorem exitApiListener_stops {b : Nat} (h : s.exitApiListener b = some s') :
    Stops s s' := by
  rw [exitApiListener] at h
  split at h
  · cases h
  · next hdown =>
      obtain rfl := Option.some.inj h
      exact onBackend_stops (fun hrunning => absurd hrunning hdown) id

theorem exitClientListener_stops {b : Nat} (h : s.exitClientListener b = some s') :
    Stops s s' := by
  rw [exitClientListener] at h
  split at h
  · cases h
  · obtain rfl := Option.some.inj h
    exact onBackend_stops (fun hrunning => ⟨hrunning, rfl⟩) id

theorem started_lt_of_startBackend (h : s.startBackend = some s') :
    s.started < s'.started := by
  rw [startBackend] at h
  split at h
  · cases h
  · obtain rfl := Option.some.inj h
    exact Nat.lt_succ_self _

/-- The socket files, the marker and the history are as before. -/
def SameFiles (s s' : SessionState) : Prop :=
  s'.sockets = s.sockets ∧ s'.closed = s.closed ∧ s'.restsClosed = s.restsClosed

theorem serverStop_sameFiles : SameFiles s s.serverStop := by
  rw [serverStop]
  split
  · split <;> exact ⟨rfl, rfl, rfl⟩
  · exact ⟨rfl, rfl, rfl⟩

theorem dropHandle_sameFiles : SameFiles s s.dropHandle := by
  rw [dropHandle]
  split <;> exact ⟨rfl, rfl, rfl⟩

theorem evictDead_sameFiles : SameFiles s s.evictDead := by
  rw [evictDead]
  split
  · exact ⟨rfl, rfl, rfl⟩
  · exact dropHandle_sameFiles

theorem exitApiListener_sameFiles {b : Nat} (h : s.exitApiListener b = some s') :
    SameFiles s s' := by
  rw [exitApiListener] at h
  split at h
  · cases h
  · obtain rfl := Option.some.inj h
    exact ⟨rfl, rfl, rfl⟩

theorem exitClientListener_sameFiles {b : Nat} (h : s.exitClientListener b = some s') :
    SameFiles s s' := by
  rw [exitClientListener] at h
  split at h
  · cases h
  · obtain rfl := Option.some.inj h
    exact ⟨rfl, rfl, rfl⟩

end SessionState

end HerdrWebui.Session
