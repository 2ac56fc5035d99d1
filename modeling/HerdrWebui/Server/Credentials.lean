import HerdrWebui.Server.Sessions

/-!
What binds a session to the credentials in force. A login verifies under one
lock hold and is issued its session under a later one, and a save compares its
credentials under one lock hold and installs them under a later one. In a run in
which no verdict outlives the credentials it was reached on, every live session
was issued under the credentials in force.
-/

namespace HerdrWebui.Server

open Concurrency

/-- The login was verified, against these credentials. -/
def SessionOrigin.verifiedAgainst (credentials : Credentials) : SessionOrigin → Bool
  | .login _ _ verified => verified == credentials
  | .bypass | .save _ => false

/-- A session is issued only to a login verified against the credentials in
force, and a save that keeps the sessions keeps the credentials in force. -/
def verdictStands (s : ServerState) (l : RequestPhase) (a : RequestAction) : Bool :=
  match a, l with
  | .issueSession _ _, .issuing origin => origin.verifiedAgainst s.auth.credentials
  | .install _ _, .policyCompared next false _ =>
    next.credentials == s.auth.credentials
  | _, _ => true

section Bound

variable {verifyPassword : String → String → Bool}

/-- What the lock hold that verified a login leaves known of it. -/
def SessionOrigin.Verified (verifyPassword : String → String → Bool) :
    SessionOrigin → Prop
  | .login username password credentials =>
    credentials.verify verifyPassword username password = true
  | .bypass | .save _ => True

/-- What a request knows until the lock hold that issues its session. -/
def OriginVerified (verifyPassword : String → String → Bool) : RequestPhase → Prop
  | .verified _ origin | .issuing origin => origin.Verified verifyPassword
  | _ => True

theorem SessionOrigin.Verified.issuedUnder {credentials : Credentials}
    {origin : SessionOrigin} (h : origin.Verified verifyPassword)
    (hok : origin.verifiedAgainst credentials = true) :
    origin.IssuedUnder verifyPassword credentials := by
  cases origin with
  | login username password verified => exact ⟨beq_iff_eq.mp hok, h⟩
  | bypass => cases hok
  | save installed => cases hok

namespace AuthConfig.SessionsBound

variable {auth next : AuthConfig} {now : SystemTime} {token : String}

theorem of_sublist {sessions : List SessionRecord}
    (h : auth.SessionsBound verifyPassword) (hsub : sessions ⊆ auth.sessions)
    (hsessions : next.sessions = sessions)
    (hcredentials : next.credentials = auth.credentials) :
    next.SessionsBound verifyPassword := by
  intro session hmem
  rw [hcredentials]
  exact h session (hsub (hsessions ▸ hmem))

theorem purgeLapsed (h : auth.SessionsBound verifyPassword) :
    (auth.purgeLapsed now).2.SessionsBound verifyPassword :=
  h.of_sublist (List.filter_subset_self _) purgeLapsed_sessions purgeLapsed_credentials

theorem revokeSession (h : auth.SessionsBound verifyPassword) :
    (auth.revokeSession token).2.SessionsBound verifyPassword :=
  h.of_sublist (List.filter_subset_self _) revokeSession_sessions
    revokeSession_credentials

theorem findValidSession (h : auth.SessionsBound verifyPassword) :
    (auth.findValidSession now token).2.SessionsBound verifyPassword :=
  h.of_sublist findValidSession_perm.subset rfl findValidSession_credentials

theorem issueSession (h : auth.SessionsBound verifyPassword)
    {origin : SessionOrigin}
    (hnew : origin.IssuedUnder verifyPassword auth.credentials) :
    (auth.issueSession now token origin).2.SessionsBound verifyPassword := by
  rw [SessionsBound, issueSession_credentials]
  exact issueSession_forall h hnew

theorem resetSessions {origin : SessionOrigin}
    (hnew : origin.IssuedUnder verifyPassword auth.credentials) :
    (auth.resetSessions now token origin).2.SessionsBound verifyPassword := by
  rw [SessionsBound, resetSessions_credentials]
  exact resetSessions_forall hnew

theorem reanchorExpiries (h : auth.SessionsBound verifyPassword) :
    (auth.reanchorExpiries now).2.SessionsBound verifyPassword := by
  rw [SessionsBound, reanchorExpiries_credentials]
  exact reanchorExpiries_forall h

/-- A reset needs nothing of the sessions before it, a save that keeps the
sessions needs that it keeps the credentials. -/
theorem installAuth (h : auth.SessionsBound verifyPassword) {identity policy : Bool}
    (hsame : identity = false → next.credentials = auth.credentials) :
    (installAuth auth next identity policy now token).2.SessionsBound
      verifyPassword := by
  rw [Server.installAuth]
  cases identity with
  | true => exact resetSessions rfl
  | false =>
    have hkept : SessionsBound verifyPassword
        { next with sessions := auth.sessions, sessionsRev := auth.sessionsRev } :=
      h.of_sublist (List.Subset.refl _) rfl (hsame rfl)
    cases policy with
    | true => exact hkept.reanchorExpiries
    | false => exact hkept

end AuthConfig.SessionsBound

theorem requestStep_bound {a : RequestAction} {s s' : ServerState}
    {l l' : RequestPhase} (hbound : s.auth.SessionsBound verifyPassword)
    (horigin : OriginVerified verifyPassword l) (hok : verdictStands s l a = true)
    (hstep : requestStep verifyPassword a s l = some (s', l')) :
    s'.auth.SessionsBound verifyPassword ∧ OriginVerified verifyPassword l' := by
  cases requestStep_cases hstep with
  | rateCheck hl' => exact ⟨hbound, by rcases hl' with rfl | rfl <;> trivial⟩
  | verify hverify => exact ⟨hbound, hverify⟩
  | resetLimiter => exact ⟨hbound, horigin⟩
  | issueSession =>
    have hnew := SessionOrigin.Verified.issuedUnder horigin hok
    exact ⟨hbound.issueSession hnew, trivial⟩
  | authorize => exact ⟨hbound.findValidSession, trivial⟩
  | revokeSession => exact ⟨hbound.revokeSession, trivial⟩
  | purgeLapsed => exact ⟨hbound.purgeLapsed, trivial⟩
  | @install _ _ _ identity _ =>
    refine ⟨hbound.installAuth fun hidentity => ?_, trivial⟩
    subst hidentity
    exact beq_iff_eq.mp hok
  | bypass | refuse | recordFailure | saved | compareIdentity | comparePolicy
  | persist | stale | fresh | writeFile => exact ⟨hbound, trivial⟩

end Bound

/-- In a run in which every verdict stands when it is acted on, every live
session was issued to a login whose name and password the credentials in force
verified, or to the save that installed them. -/
theorem credentials_bindSessions {verifyPassword : String → String → Bool}
    {c : Pool ServerState RequestPhase}
    (h : (requests verifyPassword).system.ReachVia
      (fun c act => verdictStands c.shared (c.threads act.1) act.2 = true) c) :
    c.shared.auth.SessionsBound verifyPassword := by
  have hholds : Program.Holds
      (fun s : ServerState => s.auth.SessionsBound verifyPassword)
      (fun _ => OriginVerified verifyPassword) (fun _ _ => True) c := by
    refine Program.Holds.of_reachVia ?_ ?_ ?_ ?_ h
    · exact fun s hinit => ⟨hinit.1, trivial⟩
    · trivial
    · exact fun _ _ _ => trivial
    · intro c i a s' l' hc hok hstep
      obtain ⟨hbound, horigin⟩ :=
        requestStep_bound hc.shared (hc.thread i) hok hstep
      exact ⟨hbound, horigin, fun _ hother _ => ⟨hother, trivial⟩⟩
  exact hholds.shared

/-- The password is changed while a login with the old one is between its two
lock holds. -/
def loginAcrossSave : List (Nat × RequestAction) :=
  [(0, .rateCheck remote "ada" "old" 0), (0, .verifyCredentials),
    (1, .saved (some "ada") (some "#new") false 0), (1, .compareIdentity),
    (1, .comparePolicy), (1, .install 1 "t1"), (0, .resetLimiter),
    (0, .issueSession 2 "t2")]

def oldPassword : ServerState :=
  bootState (.fromParts (some "ada") (some "#old") false 0)

theorem loginAcrossSave_unbound :
    ∃ c, (requests plainHash).system.Reachable c ∧
      c.shared.auth.password = some "#new" ∧
      ¬ c.shared.auth.SessionsBound plainHash ∧
      ∃ session ∈ c.shared.auth.sessions,
        session.origin = .login "ada" "old" ⟨some "ada", some "#old"⟩ := by
  have hrun : ((requests plainHash).system.run ((requests plainHash).start oldPassword)
      loginAcrossSave).isSome := by decide +kernel
  refine ⟨_, System.reachable_get (Program.system_init _ (requests_init _)) hrun, ?_⟩
  decide +kernel +revert

/-- The login is issued its session before the save compares. -/
def loginThenSave : List (Nat × RequestAction) :=
  [(0, .rateCheck remote "ada" "old" 0), (0, .verifyCredentials), (0, .resetLimiter),
    (0, .issueSession 2 "t2"), (1, .saved (some "ada") (some "#new") false 0),
    (1, .compareIdentity), (1, .comparePolicy), (1, .install 3 "t1"),
    (2, .rateCheck remote "ada" "new" 4), (2, .verifyCredentials), (2, .resetLimiter),
    (2, .issueSession 5 "t3")]

theorem loginThenSave_bound :
    ∃ c, (requests plainHash).system.runVia
        (fun c act => verdictStands c.shared (c.threads act.1) act.2 = true)
        ((requests plainHash).start oldPassword) loginThenSave = some c ∧
      c.shared.auth.sessions.map (·.token) = ["t1", "t3"] ∧
      c.shared.auth.SessionsBound plainHash := by
  have hrun : ((requests plainHash).system.runVia
      (fun c act => verdictStands c.shared (c.threads act.1) act.2 = true)
      ((requests plainHash).start oldPassword) loginThenSave).isSome := by
    decide +kernel
  refine ⟨_, (Option.some_get hrun).symm, by decide +kernel +revert, ?_⟩
  exact credentials_bindSessions
    (System.reachVia_get (Program.system_init _ (requests_init _)) hrun)

end HerdrWebui.Server
