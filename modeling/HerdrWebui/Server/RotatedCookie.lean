import HerdrWebui.Server.Cookies
import HerdrWebui.Server.Sessions

/-!
The cookie on the response to a save of the settings. A save that changes the
identity mints a session for its caller; one that changes only the lifetime hands
out the session that was used last, whoever used it. Other browsers are served
between the lock holds of a save.
-/

namespace HerdrWebui.Server

open Concurrency

namespace AuthConfig

def cookieMaxAge (expiresAt now : SystemTime) : Nat :=
  max 1 (min (asSecs (expiresAt - now)) (365 * 24 * 60 * 60))

end AuthConfig

/-- The last lock hold of `update_server_settings` on the auth cell: the token and
age of the cookie it attaches, if any, and what it leaves in the cell. -/
def rotateCookie (current next : AuthConfig) (identityChanged policyChanged : Bool)
    (now : SystemTime) (token : String) : Option (String × Nat) × AuthConfig :=
  if identityChanged then
    let (record, auth) := next.resetSessions now token (.save next.credentials)
    (some (record.token, AuthConfig.cookieMaxAge record.expiresAt now), auth)
  else
    let preserved :=
      { next with sessions := current.sessions, sessionsRev := current.sessionsRev }
    if policyChanged then
      let (newExpiry, auth) := preserved.reanchorExpiries now
      let cookie := newExpiry.map fun expiry =>
        (((auth.currentSession now).map (·.token)).getD "",
          AuthConfig.cookieMaxAge expiry now)
      (cookie, auth)
    else
      (none,
        { preserved with
          sessionExpirationMinutes := current.sessionExpirationMinutes })

/-- Where a request stands. A save keeps the headers it came with; a response keeps
the token minted for it. -/
inductive SavePhase where
  | idle
  | admitted (headers : HeaderMap)
  | saving (headers : HeaderMap) (next : AuthConfig)
  | identityCompared (headers : HeaderMap) (next : AuthConfig) (identityChanged : Bool)
  | policyCompared (headers : HeaderMap) (next : AuthConfig)
      (identityChanged policyChanged : Bool)
  | responded (headers : HeaderMap) (minted : Option String)
      (cookie : Option (String × Nat))
  deriving DecidableEq

inductive SaveAction where
  | request (headers : HeaderMap) (remote : IpAddr) (now : SystemTime)
  | issueSession (now : SystemTime) (token : String) (origin : SessionOrigin)
  | revokeSession (token : String)
  | requireAuth (headers : HeaderMap) (remote : IpAddr) (now : SystemTime)
  | saved (user password : Option String) (localhostNoAuth : Bool)
      (sessionExpirationMinutes : Nat)
  | compareIdentity
  | comparePolicy
  | rotate (now : SystemTime) (token : String)

/-- `request` is the check of any other request, `requireAuth` that of a save. -/
def saveStep (a : SaveAction) (auth : AuthConfig) (l : SavePhase) :
    Option (AuthConfig × SavePhase) :=
  match a, l with
  | .request headers remote now, .idle =>
    some ((auth.authorized headers remote now).2, .idle)
  | .issueSession now token origin, .idle =>
    some ((auth.issueSession now token origin).2, .idle)
  | .revokeSession token, .idle => some ((auth.revokeSession token).2, .idle)
  | .requireAuth headers remote now, .idle =>
    let checked := auth.authorized headers remote now
    some (checked.2, if checked.1 then .admitted headers else .idle)
  | .saved user password localhostNoAuth sessionExpirationMinutes, .admitted headers =>
    some (auth, .saving headers
      (.fromParts user password localhostNoAuth sessionExpirationMinutes))
  | .compareIdentity, .saving headers next =>
    some (auth, .identityCompared headers next (identityChanged auth next))
  | .comparePolicy, .identityCompared headers next identity =>
    some (auth,
      .policyCompared headers next identity (policyChanged identity auth next))
  | .rotate now token, .policyCompared headers next identity policy =>
    let (cookie, auth) := rotateCookie auth next identity policy now token
    some (auth, .responded headers (if identity then some token else none) cookie)
  | _, _ => none

def saves : Program AuthConfig SavePhase SaveAction where
  init _ := True
  idle := .idle
  step := saveStep

/-- The cookie of a response is a session minted for it or one its caller
presented. -/
def SavePhase.CookieOwn : SavePhase → Prop
  | .responded headers minted (some (token, _)) =>
    minted = some token ∨ token ∈ headers.sessionTokens
  | _ => True

/-- The session used last is one the caller presented. Where a session that never
expires has expired, from the year 10000 on, the empty token stands for it. -/
def ownSessionLast (auth next : AuthConfig) (headers : HeaderMap) (now : SystemTime) :
    Bool :=
  auth.sessions.getLast?.all fun session =>
    headers.sessionTokens.contains
      (if now < next.expiryFromNow now then session.token else "")

/-- A save that changes the lifetime alone takes the auth cell while the session
used last is its caller's. -/
def rotatesOwn (auth : AuthConfig) (l : SavePhase) (a : SaveAction) : Bool :=
  match a, l with
  | .rotate now _, .policyCompared headers next false true =>
    ownSessionLast auth next headers now
  | _, _ => true

section Rotate

variable {auth next : AuthConfig} {headers : HeaderMap} {identity policy : Bool}
  {now : SystemTime} {token : String}

/-- After the lifetimes are re-anchored the sessions are all valid, or none is. -/
theorem currentSession_reanchored {last : SessionRecord}
    (hlast : auth.sessions.getLast? = some last) :
    ((auth.reanchorExpiries now).2.currentSession now).map SessionRecord.token =
      if now < auth.expiryFromNow now then some last.token else none := by
  have hnonempty : ¬ auth.sessions.isEmpty = true := by
    rw [List.isEmpty_iff]
    rintro hnil
    simp [hnil] at hlast
  have hhead : auth.sessions.reverse.head? = some last := by
    rw [List.head?_reverse, hlast]
  simp only [AuthConfig.reanchorExpiries, if_neg hnonempty, AuthConfig.currentSession]
  rw [← List.map_reverse, List.find?_map]
  obtain ⟨rest, hreverse⟩ := List.head?_eq_some_iff.mp hhead
  by_cases hnow : now < auth.expiryFromNow now
  · simp [hnow, hreverse, SessionRecord.isValid]
  · simp [hnow, hreverse, SessionRecord.isValid]

theorem rotateCookie_lifetime {last : SessionRecord}
    (hlast : auth.sessions.getLast? = some last) :
    (rotateCookie auth next false true now token).1 =
      some ((if now < next.expiryFromNow now then last.token else ""),
        AuthConfig.cookieMaxAge (next.expiryFromNow now) now) := by
  let preserved : AuthConfig :=
    { next with sessions := auth.sessions, sessionsRev := auth.sessionsRev }
  have hlast' : preserved.sessions.getLast? = some last := hlast
  have hcurrent : ((preserved.reanchorExpiries now).2.currentSession now).map
      SessionRecord.token = _ := currentSession_reanchored hlast'
  have hexpiry : (preserved.reanchorExpiries now).1 = some (next.expiryFromNow now) := by
    rw [AuthConfig.reanchorExpiries, if_neg]
    · rfl
    · rw [List.isEmpty_iff]
      rintro hnil
      simp [hnil] at hlast'
  have hpreserved : preserved.expiryFromNow now = next.expiryFromNow now := rfl
  rw [hpreserved] at hcurrent
  simp only [rotateCookie, Bool.false_eq_true, if_false, if_true]
  rw [show ({ next with sessions := auth.sessions, sessionsRev := auth.sessionsRev } :
    AuthConfig) = preserved from rfl, hexpiry, hcurrent]
  split <;> rfl

/-- The response is the caller's own exactly when the save does not change the
lifetime alone, or changes it while the caller's session is the last used. -/
theorem rotate_cookieOwn_iff :
    (SavePhase.responded headers (if identity then some token else none)
        (rotateCookie auth next identity policy now token).1).CookieOwn ↔
      (identity = false → policy = true →
        ownSessionLast auth next headers now = true) := by
  cases identity with
  | true => simp [rotateCookie, AuthConfig.resetSessions, AuthConfig.issueSession,
      SavePhase.CookieOwn]
  | false =>
    cases policy with
    | false => simp [rotateCookie, SavePhase.CookieOwn]
    | true =>
      cases hlast : auth.sessions.getLast? with
      | none =>
        have hnil : auth.sessions = [] := List.getLast?_eq_none_iff.mp hlast
        simp [rotateCookie, AuthConfig.reanchorExpiries, SavePhase.CookieOwn,
          ownSessionLast, hnil]
      | some last =>
        have hcookie : (rotateCookie auth next false true now token).1 = _ :=
          rotateCookie_lifetime hlast
        simp [hcookie, SavePhase.CookieOwn, ownSessionLast, hlast]

end Rotate

theorem saveStep_cookieOwn {a : SaveAction} {auth auth' : AuthConfig}
    {l l' : SavePhase} (hok : rotatesOwn auth l a = true)
    (hstep : saveStep a auth l = some (auth', l')) : l'.CookieOwn := by
  unfold saveStep at hstep
  split at hstep
  case h_4 headers remote now =>
    obtain ⟨-, hl'⟩ := Prod.mk.inj (Option.some.inj hstep)
    rw [← hl']
    cases (auth.authorized headers remote now).1 <;> trivial
  case h_8 now token headers next identity policy =>
    cases hstep
    apply rotate_cookieOwn_iff.mpr
    rintro rfl rfl
    exact hok
  all_goals try cases hstep
  all_goals trivial

/-- No response carries the session of another browser, in a run in which a save
changes the lifetime alone only while its caller's session was used last. -/
theorem saves_cookieOwn {c : Pool AuthConfig SavePhase}
    (h : saves.system.ReachVia
      (fun c act => rotatesOwn c.shared (c.threads act.1) act.2 = true) c) (i : Nat) :
    (c.threads i).CookieOwn := by
  have hholds : Program.Holds (fun _ => True) (fun _ l => l.CookieOwn)
      (fun _ _ => True) c := by
    apply Program.Holds.of_reachVia ?_ trivial (fun _ _ _ => trivial) ?_ h
    · exact fun _ _ => ⟨trivial, trivial⟩
    · intro c i a s' l' _ hok hstep
      exact ⟨trivial, saveStep_cookieOwn hok hstep, fun _ hother _ => ⟨hother, trivial⟩⟩
  exact hholds.thread i

def twoBrowsers : AuthConfig :=
  { AuthConfig.fromParts (some "user") (some "#pw") false 30 with
    sessions := [⟨"a", fromSecs 1800, .bypass⟩, ⟨"b", fromSecs 1800, .bypass⟩] }

def cookieA : HeaderMap := .ofText "herdr_web_session=a"

def cookieB : HeaderMap := .ofText "herdr_web_session=b"

/-- Thread 0 saves a new lifetime for the browser of `a`. -/
def saveLifetime : List (Nat × SaveAction) :=
  [(0, .requireAuth cookieA (.v4 10 0 0 1) 0),
    (0, .saved (some "user") (some "#pw") false 60),
    (0, .compareIdentity), (0, .comparePolicy), (0, .rotate 0 "c")]

theorem saves_cookieOwn_alone :
    ∃ c, saves.system.ReachVia
        (fun c act => rotatesOwn c.shared (c.threads act.1) act.2 = true) c ∧
      c.threads 0 = .responded cookieA none (some ("a", 3600)) ∧
        (c.threads 0).CookieOwn := by
  have hrun : (saves.system.runVia
      (fun c act => rotatesOwn c.shared (c.threads act.1) act.2 = true)
      (saves.start twoBrowsers) saveLifetime).isSome := by
    decide +kernel
  have hresponse : ((saves.system.runVia
      (fun c act => rotatesOwn c.shared (c.threads act.1) act.2 = true)
      (saves.start twoBrowsers) saveLifetime).get hrun).threads 0 =
        .responded cookieA none (some ("a", 3600)) := by
    decide +kernel +revert
  have hreach := System.reachVia_get (saves.system_init trivial) hrun
  exact ⟨_, hreach, hresponse, saves_cookieOwn hreach 0⟩

/-- The browser of `b` is served before the last lock hold. -/
def saveLifetimeServing : List (Nat × SaveAction) :=
  saveLifetime.take 4 ++ [(1, .request cookieB (.v4 10 0 0 2) 0), (0, .rotate 0 "c")]

/-- The response to the browser of `a` carries the session of the other. -/
theorem save_hands_out_other_session :
    ∃ c, saves.system.Reachable c ∧
      c.threads 0 = .responded cookieA none (some ("b", 3600)) ∧
        ¬ (c.threads 0).CookieOwn := by
  have hrun : (saves.system.run (saves.start twoBrowsers) saveLifetimeServing).isSome := by
    decide +kernel
  have hresponse : ((saves.system.run (saves.start twoBrowsers)
      saveLifetimeServing).get hrun).threads 0 =
        .responded cookieA none (some ("b", 3600)) := by
    decide +kernel +revert
  refine ⟨_, System.reachable_get (saves.system_init trivial) hrun, hresponse, ?_⟩
  rw [hresponse, SavePhase.CookieOwn]
  decide +kernel

end HerdrWebui.Server
