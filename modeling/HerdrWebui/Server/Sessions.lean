import HerdrWebui.Concurrency.Threads
import HerdrWebui.Server.Auth

/-!
The requests that change the session set (login, logout, the save of the
settings) cut at their lock holds, each with the write task it spawns to bring
the sidecar file up to date. A thread is one request and then its task.
-/

namespace HerdrWebui.Server

open Concurrency

structure PersistedSessionRecord where
  token : String
  /-- Seconds. A session that never expires has none. -/
  expiresAt : Option Nat
  deriving DecidableEq

/-- The records `persist_session_token` collects. -/
def AuthConfig.persistedRecords (auth : AuthConfig) : List PersistedSessionRecord :=
  auth.sessions.map fun session =>
    ⟨session.token,
      if auth.sessionExpirationMinutes = sessionExpirationNever then none
      else some (asSecs session.expiresAt)⟩

/-- The comparison of `update_server_settings` that decides on a reset. -/
def identityChanged (current next : AuthConfig) : Bool :=
  current.user != next.user || current.password != next.password ||
    current.localhostNoAuth != next.localhostNoAuth

def policyChanged (identityChanged : Bool) (current next : AuthConfig) : Bool :=
  !identityChanged &&
    current.sessionExpirationMinutes != next.sessionExpirationMinutes

/-- The last lock hold of `update_server_settings` on the auth cell. The three
branches return whether the session set changed. -/
def installAuth (current next : AuthConfig) (identityChanged policyChanged : Bool)
    (now : SystemTime) (token : String) : Bool × AuthConfig :=
  if identityChanged then
    (true, (next.resetSessions now token (.save next.credentials)).2)
  else
    let preserved :=
      { next with sessions := current.sessions, sessionsRev := current.sessionsRev }
    if policyChanged then
      let reanchored := preserved.reanchorExpiries now
      (reanchored.1.isSome, reanchored.2)
    else
      (false,
        { preserved with
          sessionExpirationMinutes := current.sessionExpirationMinutes })

structure ServerState where
  auth : AuthConfig
  loginLimiter : LoginRateLimiter
  /-- The content of the sidecar file, if there is one. -/
  sidecar : Option (List PersistedSessionRecord)
  /-- How often the session set was changed. No code reads it. -/
  changes : Nat

/-- Where a request, or the write task it spawned, stands. A task remembers how
many changes its snapshot includes. -/
inductive RequestPhase where
  | idle
  | admitted (remote : IpAddr) (username password : String)
  | refused (remote : IpAddr)
  | verified (remote : IpAddr) (origin : SessionOrigin)
  | issuing (origin : SessionOrigin)
  | saving (next : AuthConfig)
  | identityCompared (next : AuthConfig) (identityChanged : Bool)
  | policyCompared (next : AuthConfig) (identityChanged policyChanged : Bool)
  | changed
  | spawned (record : List PersistedSessionRecord) (rev : UInt64) (changes : Nat)
  | writing (record : List PersistedSessionRecord) (changes : Nat)
  deriving DecidableEq

inductive RequestAction where
  | rateCheck (remote : IpAddr) (username password : String) (now : SystemTime)
  | verifyCredentials
  | recordFailure (now : SystemTime)
  | resetLimiter
  | issueSession (now : SystemTime) (token : String)
  | authorize (now : SystemTime) (token : String)
  | revokeSession (token : String)
  | purgeLapsed (now : SystemTime)
  | saved (user password : Option String) (localhostNoAuth : Bool)
      (sessionExpirationMinutes : Nat)
  | compareIdentity
  | comparePolicy
  | install (now : SystemTime) (token : String)
  | persist
  | checkRev
  | writeFile

/-- A lock hold on the auth cell by which the session set changes, or not. -/
def ServerState.change (s : ServerState) (result : Bool × AuthConfig) : ServerState :=
  { s with
    auth := result.2
    changes := if result.1 then s.changes + 1 else s.changes }

section Step

variable (verifyPassword : String → String → Bool)

/-- `purge_lapsed` on its own is a step too, although today the code purges only
within an issue. -/
def requestStep (a : RequestAction) (s : ServerState) (l : RequestPhase) :
    Option (ServerState × RequestPhase) :=
  match a, l with
  | .rateCheck remote username password now, .idle =>
    let (blocked, loginLimiter) := s.loginLimiter.isBlocked remote now
    some ({ s with loginLimiter },
      if blocked then .idle else .admitted remote username password)
  | .verifyCredentials, .admitted remote username password =>
    -- The verdict and its credentials are all that leaves the lock hold.
    if s.auth.localhostBypass remote then some (s, .issuing .bypass)
    else if s.auth.verifyCredentials verifyPassword username password then
      some (s, .verified remote (.login username password s.auth.credentials))
    else some (s, .refused remote)
  | .recordFailure now, .refused remote =>
    some ({ s with loginLimiter := s.loginLimiter.recordFailure remote now }, .idle)
  | .resetLimiter, .verified remote origin =>
    some ({ s with loginLimiter := s.loginLimiter.reset remote }, .issuing origin)
  | .issueSession now token, .issuing origin =>
    some (s.change (true, (s.auth.issueSession now token origin).2), .changed)
  | .authorize now token, .idle =>
    some ({ s with auth := (s.auth.findValidSession now token).2 }, .idle)
  | .revokeSession token, .idle =>
    some (s.change (s.auth.revokeSession token), .changed)
  | .purgeLapsed now, .idle =>
    let purged := s.auth.purgeLapsed now
    some (s.change (purged.1.isSome, purged.2), .changed)
  | .saved user password localhostNoAuth sessionExpirationMinutes, .idle =>
    some (s, .saving
      (.fromParts user password localhostNoAuth sessionExpirationMinutes))
  | .compareIdentity, .saving next =>
    some (s, .identityCompared next (identityChanged s.auth next))
  | .comparePolicy, .identityCompared next identity =>
    some (s, .policyCompared next identity (policyChanged identity s.auth next))
  | .install now token, .policyCompared next identity policy =>
    some (s.change (installAuth s.auth next identity policy now token), .changed)
  | .persist, .changed =>
    some (s, .spawned s.auth.persistedRecords s.auth.sessionsRev s.changes)
  | .checkRev, .spawned record rev changes =>
    some (s, if s.auth.sessionsRev ≠ rev then .idle else .writing record changes)
  | .writeFile, .writing record _ =>
    some ({ s with sidecar := some record }, .idle)
  | _, _ => none

/-- The steps of `requestStep`, one by one. -/
inductive RequestStep (s : ServerState) :
    RequestAction → RequestPhase → ServerState → RequestPhase → Prop
  | rateCheck {remote : IpAddr} {username password : String} {now : SystemTime}
      {l' : RequestPhase}
      (hl' : l' = .idle ∨ l' = .admitted remote username password) :
      RequestStep s (.rateCheck remote username password now) .idle
        { s with loginLimiter := (s.loginLimiter.isBlocked remote now).2 } l'
  | bypass {remote : IpAddr} {username password : String}
      (h : s.auth.localhostBypass remote = true) :
      RequestStep s .verifyCredentials (.admitted remote username password)
        s (.issuing .bypass)
  | verify {remote : IpAddr} {username password : String}
      (h : s.auth.verifyCredentials verifyPassword username password = true) :
      RequestStep s .verifyCredentials (.admitted remote username password)
        s (.verified remote (.login username password s.auth.credentials))
  | refuse {remote : IpAddr} {username password : String} :
      RequestStep s .verifyCredentials (.admitted remote username password)
        s (.refused remote)
  | recordFailure {remote : IpAddr} {now : SystemTime} :
      RequestStep s (.recordFailure now) (.refused remote)
        { s with loginLimiter := s.loginLimiter.recordFailure remote now } .idle
  | resetLimiter {remote : IpAddr} {origin : SessionOrigin} :
      RequestStep s .resetLimiter (.verified remote origin)
        { s with loginLimiter := s.loginLimiter.reset remote } (.issuing origin)
  | issueSession {now : SystemTime} {token : String} {origin : SessionOrigin} :
      RequestStep s (.issueSession now token) (.issuing origin)
        (s.change (true, (s.auth.issueSession now token origin).2)) .changed
  | authorize {now : SystemTime} {token : String} :
      RequestStep s (.authorize now token) .idle
        { s with auth := (s.auth.findValidSession now token).2 } .idle
  | revokeSession {token : String} :
      RequestStep s (.revokeSession token) .idle
        (s.change (s.auth.revokeSession token)) .changed
  | purgeLapsed {now : SystemTime} :
      RequestStep s (.purgeLapsed now) .idle
        (s.change ((s.auth.purgeLapsed now).1.isSome, (s.auth.purgeLapsed now).2))
        .changed
  | saved {user password : Option String} {localhostNoAuth : Bool} {minutes : Nat} :
      RequestStep s (.saved user password localhostNoAuth minutes) .idle
        s (.saving (.fromParts user password localhostNoAuth minutes))
  | compareIdentity {next : AuthConfig} :
      RequestStep s .compareIdentity (.saving next)
        s (.identityCompared next (identityChanged s.auth next))
  | comparePolicy {next : AuthConfig} {identity : Bool} :
      RequestStep s .comparePolicy (.identityCompared next identity)
        s (.policyCompared next identity (policyChanged identity s.auth next))
  | install {now : SystemTime} {token : String} {next : AuthConfig}
      {identity policy : Bool} :
      RequestStep s (.install now token) (.policyCompared next identity policy)
        (s.change (installAuth s.auth next identity policy now token)) .changed
  | persist :
      RequestStep s .persist .changed
        s (.spawned s.auth.persistedRecords s.auth.sessionsRev s.changes)
  | stale {record : List PersistedSessionRecord} {rev : UInt64} {changes : Nat}
      (h : s.auth.sessionsRev ≠ rev) :
      RequestStep s .checkRev (.spawned record rev changes) s .idle
  | fresh {record : List PersistedSessionRecord} {rev : UInt64} {changes : Nat}
      (h : s.auth.sessionsRev = rev) :
      RequestStep s .checkRev (.spawned record rev changes)
        s (.writing record changes)
  | writeFile {record : List PersistedSessionRecord} {changes : Nat} :
      RequestStep s .writeFile (.writing record changes)
        { s with sidecar := some record } .idle

variable {verifyPassword}

theorem requestStep_cases {a : RequestAction} {s s' : ServerState}
    {l l' : RequestPhase} (h : requestStep verifyPassword a s l = some (s', l')) :
    RequestStep verifyPassword s a l s' l' := by
  unfold requestStep at h
  split at h <;> try cases h
  case h_1 => exact .rateCheck (ite_eq_or_eq _ _ _)
  case h_2 =>
    split at h
    · next hbypass =>
        obtain ⟨rfl, rfl⟩ := Prod.mk.inj (Option.some.inj h)
        exact .bypass hbypass
    · split at h
      · next hverify =>
          obtain ⟨rfl, rfl⟩ := Prod.mk.inj (Option.some.inj h)
          exact .verify hverify
      · obtain ⟨rfl, rfl⟩ := Prod.mk.inj (Option.some.inj h)
        exact .refuse
  case h_14 =>
    split
    · next hrev => exact .stale hrev
    · next hrev => exact .fresh (not_not.mp hrev)
  all_goals constructor

variable (verifyPassword)

/-- Whether a session was issued under the credentials: to a login whose name
and password they verify, or to the save that installed them. -/
def SessionOrigin.IssuedUnder (credentials : Credentials) : SessionOrigin → Prop
  | .login username password verified =>
    verified = credentials ∧
      verified.verify verifyPassword username password = true
  | .bypass => False
  | .save installed => installed = credentials

/-- Every live session was issued under the credentials in force. -/
def AuthConfig.SessionsBound (auth : AuthConfig) : Prop :=
  ∀ session ∈ auth.sessions, session.origin.IssuedUnder verifyPassword auth.credentials

instance (credentials : Credentials) (origin : SessionOrigin) :
    Decidable (origin.IssuedUnder verifyPassword credentials) :=
  match origin with
  | .login _ _ _ => inferInstanceAs (Decidable (_ ∧ _))
  | .bypass => .isFalse id
  | .save _ => inferInstanceAs (Decidable (_ = _))

instance (auth : AuthConfig) : Decidable (auth.SessionsBound verifyPassword) :=
  inferInstanceAs (Decidable (∀ session ∈ auth.sessions, _))

/-- The server starts with the sessions it restored, or none. -/
def requests : Program ServerState RequestPhase RequestAction where
  init s := s.auth.SessionsBound verifyPassword ∧ s.changes = 0
  idle := .idle
  step := requestStep verifyPassword

def bootState (auth : AuthConfig) : ServerState := ⟨auth, .new, none, 0⟩

theorem requests_init {user password : Option String} {localhostNoAuth : Bool}
    {minutes : Nat} :
    (requests verifyPassword).init
      (bootState (.fromParts user password localhostNoAuth minutes)) :=
  ⟨fun _ hmem => absurd hmem List.not_mem_nil, rfl⟩

end Step

def remote : IpAddr := .v4 10 0 0 1

end HerdrWebui.Server
