import Mathlib.Tactic

/-!
The credentials, the live sessions issued under them and the throttle of failed
logins. Each definition is what the code does under one lock. The clock and the
minted token are arguments, one reading of the clock for a lock hold, and the
Argon2 verification is a parameter.
-/

namespace HerdrWebui.Server

/-- Nanoseconds since the Unix epoch. -/
abbrev SystemTime := Nat

def fromSecs (n : Nat) : Nat := n * 10 ^ 9

def asSecs (n : Nat) : Nat := n / 10 ^ 9

def sessionExpirationNever : Nat := 0

def neverExpiresAt : SystemTime := fromSecs 253402300799

def maxSessions : Nat := 8

inductive IpAddr where
  | v4 (a b c d : UInt8)
  | v6 (bits : BitVec 128)
  deriving DecidableEq

/-- `127.0.0.0/8` and `::1`. -/
def IpAddr.isLoopback : IpAddr → Bool
  | .v4 a _ _ _ => a == 127
  | .v6 bits => bits == 1

def constantTimeEq (a b : List UInt8) : Bool :=
  if a.length ≠ b.length then false
  else (a.zip b).foldl (fun acc xy => acc ||| (xy.1 ^^^ xy.2)) 0 == 0

theorem foldl_difference_eq_zero (pairs : List (UInt8 × UInt8)) (acc : UInt8) :
    pairs.foldl (fun acc xy => acc ||| (xy.1 ^^^ xy.2)) acc = 0 ↔
      acc = 0 ∧ ∀ xy ∈ pairs, xy.1 = xy.2 := by
  induction pairs generalizing acc with
  | nil => simp
  | cons xy pairs ih =>
    rw [List.foldl_cons, ih, List.forall_mem_cons, UInt8.or_eq_zero_iff,
      UInt8.xor_eq_zero_iff, and_assoc]

theorem constantTimeEq_iff {a b : List UInt8} :
    constantTimeEq a b = true ↔ a = b := by
  rw [← List.forall₂_eq_eq_eq, List.forall₂_iff_zip, constantTimeEq]
  split
  · next hlen => simp [hlen]
  · next hlen =>
      rw [not_not] at hlen
      rw [beq_iff_eq, foldl_difference_eq_zero]
      simp [hlen]

structure Credentials where
  user : Option String
  /-- The Argon2id hash. -/
  password : Option String
  deriving DecidableEq

/-- The request a session was issued to: a login with the credentials it was
verified against, a login let in by the localhost bypass, or the save of the
settings that installed the credentials. No code reads it. -/
inductive SessionOrigin where
  | login (username password : String) (credentials : Credentials)
  | bypass
  | save (credentials : Credentials)
  deriving DecidableEq

structure SessionRecord where
  token : String
  expiresAt : SystemTime
  origin : SessionOrigin
  deriving DecidableEq

def SessionRecord.isValid (session : SessionRecord) (now : SystemTime) : Bool :=
  now < session.expiresAt

def SessionRecord.hasToken (session : SessionRecord) (token : String) : Bool :=
  constantTimeEq session.token.toUTF8.toList token.toUTF8.toList

/-- Index 0 is the least recently used session. -/
structure AuthConfig where
  user : Option String
  password : Option String
  localhostNoAuth : Bool
  sessions : List SessionRecord
  sessionsRev : UInt64
  sessionExpirationMinutes : Nat
  deriving DecidableEq

namespace AuthConfig

def fromParts (user password : Option String) (localhostNoAuth : Bool)
    (sessionExpirationMinutes : Nat) : AuthConfig :=
  ⟨user, password, localhostNoAuth, [], 0, sessionExpirationMinutes⟩

def credentials (auth : AuthConfig) : Credentials := ⟨auth.user, auth.password⟩

def expiryFromNow (auth : AuthConfig) (now : SystemTime) : SystemTime :=
  if auth.sessionExpirationMinutes = sessionExpirationNever then neverExpiresAt
  else now + fromSecs (min (auth.sessionExpirationMinutes * 60) (2 ^ 64 - 1))

/-- Drop lapsed sessions. The new revision is returned when there were any. -/
def purgeLapsed (auth : AuthConfig) (now : SystemTime) : Option UInt64 × AuthConfig :=
  let sessions := auth.sessions.filter (·.isValid now)
  if sessions.length ≠ auth.sessions.length then
    (some (auth.sessionsRev + 1),
      { auth with sessions, sessionsRev := auth.sessionsRev + 1 })
  else (none, { auth with sessions })

/-- Drop the least recently used session when there are too many. -/
def evict (sessions : List SessionRecord) : List SessionRecord :=
  if sessions.length > maxSessions then sessions.tail else sessions

def issueSession (auth : AuthConfig) (now : SystemTime) (token : String)
    (origin : SessionOrigin) : SessionRecord × AuthConfig :=
  let auth := (auth.purgeLapsed now).2
  let record := ⟨token, auth.expiryFromNow now, origin⟩
  (record,
    { auth with
      sessions := evict (auth.sessions ++ [record])
      sessionsRev := auth.sessionsRev + 1 })

/-- Whether a session was removed, and what is left. -/
def revokeSession (auth : AuthConfig) (token : String) : Bool × AuthConfig :=
  let sessions := auth.sessions.filter fun session => !session.hasToken token
  if sessions.length ≠ auth.sessions.length then
    (true, { auth with sessions, sessionsRev := auth.sessionsRev + 1 })
  else (false, { auth with sessions })

/-- Drop every session and mint one for the browser making the change. -/
def resetSessions (auth : AuthConfig) (now : SystemTime) (token : String)
    (origin : SessionOrigin) : SessionRecord × AuthConfig :=
  issueSession { auth with sessions := [], sessionsRev := auth.sessionsRev + 1 }
    now token origin

/-- Give every session a full window from now. -/
def reanchorExpiries (auth : AuthConfig) (now : SystemTime) :
    Option SystemTime × AuthConfig :=
  let newExpiry := auth.expiryFromNow now
  if auth.sessions.isEmpty then (none, auth)
  else
    (some newExpiry,
      { auth with
        sessions := auth.sessions.map fun session =>
          { session with expiresAt := newExpiry }
        sessionsRev := auth.sessionsRev + 1 })

/-- A session found by its token moves to the recently used end. -/
def findValidSession (auth : AuthConfig) (now : SystemTime) (token : String) :
    Option SessionRecord × AuthConfig :=
  match auth.sessions.findIdx? (·.hasToken token) with
  | none => (none, auth)
  | some index =>
    match auth.sessions[index]? with
    | none => (none, auth)
    | some session =>
      if session.isValid now then
        (some session,
          { auth with sessions := auth.sessions.eraseIdx index ++ [session] })
      else (none, auth)

def localhostBypass (auth : AuthConfig) (remote : IpAddr) : Bool :=
  remote.isLoopback && auth.localhostNoAuth

end AuthConfig

section Verify

variable (verifyPassword : String → String → Bool)

def Credentials.verify (credentials : Credentials) (username password : String) :
    Bool :=
  match credentials.user, credentials.password with
  | some user, some stored =>
    constantTimeEq username.toUTF8.toList user.toUTF8.toList &&
      verifyPassword stored password
  | _, _ => false

def AuthConfig.verifyCredentials (auth : AuthConfig) (username password : String) :
    Bool :=
  auth.credentials.verify verifyPassword username password

/-- A stand-in for the hash verification, to run schedules with. -/
def plainHash (stored password : String) : Bool :=
  constantTimeEq stored.toUTF8.toList ("#" ++ password).toUTF8.toList

end Verify

namespace AuthConfig

variable {auth : AuthConfig} {now : SystemTime} {token : String}
  {origin : SessionOrigin}

@[simp] theorem purgeLapsed_credentials :
    (auth.purgeLapsed now).2.credentials = auth.credentials := by
  rw [purgeLapsed]
  split <;> rfl

@[simp] theorem issueSession_credentials :
    (auth.issueSession now token origin).2.credentials = auth.credentials :=
  purgeLapsed_credentials

@[simp] theorem revokeSession_credentials :
    (auth.revokeSession token).2.credentials = auth.credentials := by
  rw [revokeSession]
  split <;> rfl

@[simp] theorem resetSessions_credentials :
    (auth.resetSessions now token origin).2.credentials = auth.credentials :=
  issueSession_credentials

@[simp] theorem reanchorExpiries_credentials :
    (auth.reanchorExpiries now).2.credentials = auth.credentials := by
  rw [reanchorExpiries]
  split <;> rfl

@[simp] theorem findValidSession_credentials :
    (auth.findValidSession now token).2.credentials = auth.credentials := by
  rw [findValidSession]
  repeat' split
  all_goals rfl

theorem purgeLapsed_sessions :
    (auth.purgeLapsed now).2.sessions = auth.sessions.filter (·.isValid now) := by
  rw [purgeLapsed]
  split <;> rfl

theorem revokeSession_sessions :
    (auth.revokeSession token).2.sessions =
      auth.sessions.filter fun session => !session.hasToken token := by
  rw [revokeSession]
  split <;> rfl

theorem evict_sublist (sessions : List SessionRecord) :
    (evict sessions).Sublist sessions := by
  rw [evict]
  split
  · exact List.tail_sublist sessions
  · exact List.Sublist.refl sessions

theorem findValidSession_perm :
    (auth.findValidSession now token).2.sessions.Perm auth.sessions := by
  rw [findValidSession]
  split
  · exact List.Perm.refl _
  · next index _ =>
      split
      · exact List.Perm.refl _
      · next session hget =>
          obtain ⟨hlt, rfl⟩ := List.getElem?_eq_some_iff.mp hget
          split
          · exact List.perm_append_comm.trans (List.getElem_cons_eraseIdx_perm hlt)
          · exact List.Perm.refl _

/-- What holds of every origin still does after an issue to one of which it
holds. -/
theorem issueSession_forall {p : SessionOrigin → Prop}
    (h : ∀ session ∈ auth.sessions, p session.origin) (hnew : p origin) :
    ∀ session ∈ (auth.issueSession now token origin).2.sessions,
      p session.origin := by
  intro session hmem
  rcases List.mem_append.mp ((evict_sublist _).subset hmem) with hold | hrecord
  · rw [purgeLapsed_sessions] at hold
    exact h session (List.mem_of_mem_filter hold)
  · obtain rfl := List.mem_singleton.mp hrecord
    exact hnew

theorem resetSessions_forall {p : SessionOrigin → Prop} (hnew : p origin) :
    ∀ session ∈ (auth.resetSessions now token origin).2.sessions,
      p session.origin :=
  issueSession_forall (fun _ hmem => by cases hmem) hnew

theorem reanchorExpiries_forall {p : SessionOrigin → Prop}
    (h : ∀ session ∈ auth.sessions, p session.origin) :
    ∀ session ∈ (auth.reanchorExpiries now).2.sessions, p session.origin := by
  rw [reanchorExpiries]
  split
  · exact h
  · intro session hmem
    obtain ⟨before, hbefore, rfl⟩ := List.mem_map.mp hmem
    exact h before hbefore

end AuthConfig

def maxAttempts : Nat := 5

def window : Nat := fromSecs 300

/-- The times of the failures of each address. -/
structure LoginRateLimiter where
  failures : IpAddr → List SystemTime

namespace LoginRateLimiter

def new : LoginRateLimiter := ⟨fun _ => []⟩

/-- `SystemTime::now().checked_sub(WINDOW)` as the cutoff; a clock within the
first window of the epoch has none to prune by. -/
def isBlocked (limiter : LoginRateLimiter) (ip : IpAddr) (now : SystemTime) :
    Bool × LoginRateLimiter :=
  let entries :=
    if window ≤ now then (limiter.failures ip).filter (· > now - window)
    else limiter.failures ip
  (entries.length ≥ maxAttempts, ⟨Function.update limiter.failures ip entries⟩)

def recordFailure (limiter : LoginRateLimiter) (ip : IpAddr) (now : SystemTime) :
    LoginRateLimiter :=
  ⟨Function.update limiter.failures ip (limiter.failures ip ++ [now])⟩

def reset (limiter : LoginRateLimiter) (ip : IpAddr) : LoginRateLimiter :=
  ⟨Function.update limiter.failures ip []⟩

end LoginRateLimiter

end HerdrWebui.Server
