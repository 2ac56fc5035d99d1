import HerdrWebui.Concurrency.System
import HerdrWebui.Server.Logout

/-!
The session set over whole runs of its operations. Beside the set a run keeps
what became of each token and when it was last used. The set holds the live
tokens in the order of their last use, the oldest first.
-/

namespace HerdrWebui.Server

open Concurrency

/-- What became of a token: it is live until its deadline, or it was taken out of
the set by the operation named. -/
inductive Fate where
  | unknown
  | live (deadline : SystemTime)
  | lapsed
  | revoked
  | reset
  | evicted
  deriving DecidableEq

namespace Fate

def purge (now : SystemTime) : Fate → Fate
  | live deadline => if now < deadline then live deadline else lapsed
  | fate => fate

def revoke : Fate → Fate
  | live _ => revoked
  | fate => fate

def forget : Fate → Fate
  | live _ => reset
  | fate => fate

def reanchor (deadline : SystemTime) : Fate → Fate
  | live _ => live deadline
  | fate => fate

def evictUnless (kept : Bool) : Fate → Fate
  | live deadline => if kept then live deadline else evicted
  | fate => fate

variable {fate : Fate} {now deadline : SystemTime} {kept : Bool}

@[simp] theorem purge_eq_evicted : fate.purge now = .evicted ↔ fate = .evicted := by
  cases fate with
  | live deadline =>
    rw [purge]
    split <;> simp
  | unknown | lapsed | revoked | reset | evicted => simp [purge]

@[simp] theorem revoke_eq_evicted : fate.revoke = .evicted ↔ fate = .evicted := by
  cases fate <;> simp [revoke]

@[simp] theorem forget_eq_evicted : fate.forget = .evicted ↔ fate = .evicted := by
  cases fate <;> simp [forget]

@[simp] theorem reanchor_eq_evicted :
    fate.reanchor deadline = .evicted ↔ fate = .evicted := by
  cases fate <;> simp [reanchor]

theorem purge_eq_live : fate.purge now = .live deadline ↔
    fate = .live deadline ∧ now < deadline := by
  cases fate with
  | live other =>
    rw [purge]
    split <;> simp only [live.injEq, reduceCtorEq] <;> grind
  | unknown | lapsed | revoked | reset | evicted => simp [purge]

theorem evictUnless_eq_evicted : fate.evictUnless kept = .evicted ↔
    fate = .evicted ∨ (∃ deadline, fate = .live deadline) ∧ kept = false := by
  cases fate <;> simp [evictUnless]

end Fate

def AuthConfig.restoreSessions (auth : AuthConfig) (records : List SessionRecord) :
    AuthConfig :=
  { auth with
    sessions := records.take maxSessions
    sessionsRev := auth.sessionsRev + 1 }

def AuthConfig.tokens (auth : AuthConfig) : List String :=
  auth.sessions.map (·.token)

inductive SessionOp where
  | issueSession (token : String) (origin : SessionOrigin)
  | authorized (headers : HeaderMap) (remote : IpAddr)
  | revokeSession (token : String)
  | purgeLapsed
  | configure (user password : Option String) (localhostNoAuth : Bool)
      (sessionExpirationMinutes : Nat)
  | reanchorExpiries
  | resetSessions (token : String) (origin : SessionOrigin)

/-- The session set with its history. `uses` counts the issues and the successful
lookups, and `lastUse` is the count at the last one of a token. -/
structure SessionRun where
  auth : AuthConfig
  clock : SystemTime
  minted : List String
  fate : String → Fate
  lastUse : String → Nat
  uses : Nat

/-- The token whose session the check moves. -/
def AuthConfig.touched (auth : AuthConfig) (headers : HeaderMap) (remote : IpAddr)
    (now : SystemTime) : Option String :=
  if auth.localhostBypass remote then none
  else auth.firstAccepted now headers.sessionTokens

namespace SessionRun

def use (r : SessionRun) (token : String) : SessionRun :=
  { r with lastUse := Function.update r.lastUse token r.uses, uses := r.uses + 1 }

/-- An issue: the lapsed sessions go, the new one comes, and what unexpired session
the set has lost by then was evicted. -/
def issue (r : SessionRun) (now : SystemTime) (token : String) (origin : SessionOrigin) :
    SessionRun :=
  let auth := (r.auth.issueSession now token origin).2
  let fate := Function.update (fun other => (r.fate other).purge now) token
    (.live (r.auth.expiryFromNow now))
  { r.use token with
    auth
    minted := token :: r.minted
    fate := fun other => (fate other).evictUnless (auth.tokens.contains other) }

/-- One operation. The clock does not go back and no token is minted twice. -/
def step (r : SessionRun) (act : SessionOp × SystemTime) : Option SessionRun :=
  let now := act.2
  if now < r.clock then none
  else
    let r := { r with clock := now }
    match act.1 with
    | .issueSession token origin =>
      if token ∈ r.minted then none else some (r.issue now token origin)
    | .authorized headers remote =>
      let auth := (r.auth.authorized headers remote now).2
      match r.auth.touched headers remote now with
      | none => some { r with auth }
      | some token => some { r.use token with auth }
    | .revokeSession token =>
      some { r with
        auth := (r.auth.revokeSession token).2
        fate := Function.update r.fate token (r.fate token).revoke }
    | .purgeLapsed =>
      some { r with
        auth := (r.auth.purgeLapsed now).2
        fate := fun other => (r.fate other).purge now }
    | .configure user password localhostNoAuth sessionExpirationMinutes =>
      some { r with
        auth := { r.auth with user, password, localhostNoAuth,
                              sessionExpirationMinutes } }
    | .reanchorExpiries =>
      some { r with
        auth := (r.auth.reanchorExpiries now).2
        fate := fun other => (r.fate other).reanchor (r.auth.expiryFromNow now) }
    | .resetSessions token origin =>
      if token ∈ r.minted then none
      else
        some { r.use token with
          auth := (r.auth.resetSessions now token origin).2
          minted := token :: r.minted
          fate := Function.update (fun other => (r.fate other).forget) token
            (.live (r.auth.expiryFromNow now)) }

/-- The server at its start, with the sessions it restored. -/
def boot (auth : AuthConfig) (records : List SessionRecord) (clock : SystemTime) :
    SessionRun :=
  let auth := auth.restoreSessions records
  { auth, clock
    minted := records.map (·.token)
    fate := fun token =>
      match auth.sessions.find? (·.hasToken token) with
      | none => .unknown
      | some session => .live session.expiresAt
    lastUse := fun token => auth.tokens.idxOf token
    uses := auth.sessions.length }

end SessionRun

/-- All runs of the operations from the start of the server. -/
def sessionRuns : System SessionRun (SessionOp × SystemTime) where
  init r := ∃ user password localhostNoAuth minutes records clock,
    (records.map SessionRecord.token).Nodup ∧
      r = .boot (.fromParts user password localhostNoAuth minutes) records clock
  step := SessionRun.step

/-- Each session was used before the next. -/
structure Recency (sessions : List SessionRecord) (lastUse : String → Nat)
    (uses : Nat) : Prop where
  ordered : sessions.Pairwise fun a b => lastUse a.token < lastUse b.token
  used : ∀ session ∈ sessions, lastUse session.token < uses

namespace Recency

variable {sessions kept : List SessionRecord} {lastUse : String → Nat} {uses : Nat}
  {record : SessionRecord} {token : String}

theorem sublist (h : Recency sessions lastUse uses) (hsub : kept.Sublist sessions) :
    Recency kept lastUse uses :=
  ⟨h.ordered.sublist hsub, fun session hmem => h.used session (hsub.subset hmem)⟩

theorem distinct (h : Recency sessions lastUse uses) :
    (sessions.map (·.token)).Nodup := by
  apply List.pairwise_map.mpr
  refine h.ordered.imp fun hlt hsame => ?_
  rw [hsame] at hlt
  exact lt_irrefl _ hlt

theorem append (h : Recency sessions lastUse uses)
    (hnew : record.token ∉ sessions.map (·.token)) :
    Recency (sessions ++ [record]) (Function.update lastUse record.token uses)
      (uses + 1) := by
  have hold (session : SessionRecord) (hmem : session ∈ sessions) :
      Function.update lastUse record.token uses session.token =
        lastUse session.token := by
    apply Function.update_of_ne
    intro hsame
    apply hnew
    rw [← hsame]
    exact List.mem_map_of_mem hmem
  refine ⟨List.pairwise_append.mpr ⟨?_, List.pairwise_singleton _ _, ?_⟩, ?_⟩
  · refine h.ordered.imp_of_mem fun ha hb hlt => ?_
    rw [hold _ ha, hold _ hb]
    exact hlt
  · intro session hmem last hlast
    obtain rfl := List.mem_singleton.mp hlast
    rw [hold _ hmem, Function.update_self]
    exact h.used session hmem
  · intro session hmem
    rcases List.mem_append.mp hmem with hbefore | hlast
    · have hlt := h.used session hbefore
      rw [hold _ hbefore]
      omega
    · obtain rfl := List.mem_singleton.mp hlast
      rw [Function.update_self]
      omega

theorem map (h : Recency sessions lastUse uses) {f : SessionRecord → SessionRecord}
    (hf : ∀ session, (f session).token = session.token) :
    Recency (sessions.map f) lastUse uses := by
  refine ⟨List.pairwise_map.mpr ?_, ?_⟩
  · simpa only [hf] using h.ordered
  · intro session hmem
    obtain ⟨before, hbefore, rfl⟩ := List.mem_map.mp hmem
    rw [hf]
    exact h.used before hbefore

theorem head_lt (h : Recency (record :: sessions) lastUse uses) :
    ∀ session ∈ sessions, lastUse record.token < lastUse session.token :=
  (List.pairwise_cons.mp h.ordered).1

end Recency

/-- The sessions of the set are the live tokens. -/
def Tracks (fate : String → Fate) (sessions : List SessionRecord) : Prop :=
  ∀ token deadline, fate token = .live deadline ↔
    ∃ session ∈ sessions, session.token = token ∧ session.expiresAt = deadline

namespace Tracks

variable {fate : String → Fate} {sessions kept : List SessionRecord} {now : SystemTime}
  {record : SessionRecord} {token : String}

theorem live (h : Tracks fate sessions) {session : SessionRecord}
    (hmem : session ∈ sessions) : fate session.token = .live session.expiresAt :=
  (h _ _).mpr ⟨session, hmem, rfl, rfl⟩

theorem congr (h : Tracks fate sessions) (hsame : ∀ session, session ∈ kept ↔ session ∈ sessions) :
    Tracks fate kept := by
  intro token deadline
  simp only [h token deadline, hsame]

theorem purge (h : Tracks fate sessions) :
    Tracks (fun other => (fate other).purge now) (sessions.filter (·.isValid now)) := by
  intro token deadline
  rw [Fate.purge_eq_live, h token deadline]
  constructor
  · rintro ⟨⟨session, hmem, rfl, rfl⟩, hnow⟩
    refine ⟨session, List.mem_filter.mpr ⟨hmem, ?_⟩, rfl, rfl⟩
    simpa [SessionRecord.isValid] using hnow
  · rintro ⟨session, hmem, rfl, rfl⟩
    obtain ⟨hold, hvalid⟩ := List.mem_filter.mp hmem
    exact ⟨⟨session, hold, rfl, rfl⟩, by simpa [SessionRecord.isValid] using hvalid⟩

theorem revoke (h : Tracks fate sessions) :
    Tracks (Function.update fate token (fate token).revoke)
      (sessions.filter (·.token ≠ token)) := by
  intro other deadline
  by_cases hother : other = token
  · subst hother
    rw [Function.update_self]
    have hdead : (fate other).revoke ≠ .live deadline := by
      cases fate other <;> simp [Fate.revoke]
    simp only [hdead, false_iff]
    rintro ⟨session, hmem, hsame, -⟩
    exact absurd hsame (by simpa using (List.mem_filter.mp hmem).2)
  · rw [Function.update_of_ne hother, h other deadline]
    constructor
    · rintro ⟨session, hmem, rfl, rfl⟩
      exact ⟨session, List.mem_filter.mpr ⟨hmem, by simpa using hother⟩, rfl, rfl⟩
    · rintro ⟨session, hmem, rfl, rfl⟩
      exact ⟨session, List.mem_of_mem_filter hmem, rfl, rfl⟩

theorem reanchor (h : Tracks fate sessions) (expiry : SystemTime) :
    Tracks (fun other => (fate other).reanchor expiry)
      (sessions.map fun session => { session with expiresAt := expiry }) := by
  intro token deadline
  have hreanchor : (fate token).reanchor expiry = .live deadline ↔
      (∃ before, fate token = .live before) ∧ expiry = deadline := by
    cases fate token <;> simp [Fate.reanchor]
  rw [hreanchor]
  constructor
  · rintro ⟨⟨before, hbefore⟩, rfl⟩
    obtain ⟨session, hmem, rfl, rfl⟩ := (h _ _).mp hbefore
    exact ⟨_, List.mem_map_of_mem hmem, rfl, rfl⟩
  · rintro ⟨session, hmem, rfl, rfl⟩
    obtain ⟨before, hbefore, rfl⟩ := List.mem_map.mp hmem
    have hlive := h.live hbefore
    exact ⟨⟨_, hlive⟩, rfl⟩

theorem forget : Tracks (fun other => (fate other).forget) [] := by
  intro token deadline
  cases hfate : fate token <;> simp [hfate, Fate.forget]

theorem append (h : Tracks fate sessions)
    (hnew : record.token ∉ sessions.map (·.token)) :
    Tracks (Function.update fate record.token (.live record.expiresAt))
      (sessions ++ [record]) := by
  intro token deadline
  by_cases htoken : token = record.token
  · subst htoken
    rw [Function.update_self]
    constructor
    · intro hlive
      exact ⟨record, by simp, rfl, Fate.live.inj hlive⟩
    · rintro ⟨session, hmem, hsame, rfl⟩
      rcases List.mem_append.mp hmem with hold | hlast
      · exact absurd (hsame ▸ List.mem_map_of_mem hold) hnew
      · obtain rfl := List.mem_singleton.mp hlast
        rfl
  · rw [Function.update_of_ne htoken, h token deadline]
    constructor
    · rintro ⟨session, hmem, rfl, rfl⟩
      exact ⟨session, List.mem_append_left _ hmem, rfl, rfl⟩
    · rintro ⟨session, hmem, rfl, rfl⟩
      rcases List.mem_append.mp hmem with hold | hlast
      · exact ⟨session, hold, rfl, rfl⟩
      · obtain rfl := List.mem_singleton.mp hlast
        exact absurd rfl htoken

theorem evict (h : Tracks fate sessions) (hsub : kept ⊆ sessions) :
    Tracks (fun other => (fate other).evictUnless ((kept.map (·.token)).contains other))
      kept := by
  intro token deadline
  have hevict : (fate token).evictUnless ((kept.map (·.token)).contains token) =
      .live deadline ↔ fate token = .live deadline ∧ token ∈ kept.map (·.token) := by
    cases fate token with
    | live other =>
      simp only [Fate.evictUnless]
      split <;> simp_all
    | unknown | lapsed | revoked | reset | evicted => simp [Fate.evictUnless]
  rw [hevict]
  constructor
  · rintro ⟨hlive, hmem⟩
    obtain ⟨session, hsession, rfl⟩ := List.mem_map.mp hmem
    rw [h.live (hsub hsession)] at hlive
    exact ⟨session, hsession, rfl, Fate.live.inj hlive⟩
  · rintro ⟨session, hmem, rfl, rfl⟩
    exact ⟨h.live (hsub hmem), List.mem_map_of_mem hmem⟩

end Tracks

/-- The invariant of the runs. -/
structure SessionInv (r : SessionRun) : Prop where
  capacity : r.auth.sessions.length ≤ maxSessions
  recency : Recency r.auth.sessions r.lastUse r.uses
  tracks : Tracks r.fate r.auth.sessions
  minted : ∀ session ∈ r.auth.sessions, session.token ∈ r.minted

theorem evict_append (sessions : List SessionRecord) (record : SessionRecord) :
    AuthConfig.evict (sessions ++ [record]) =
      (if maxSessions ≤ sessions.length then sessions.tail else sessions) ++
        [record] := by
  rw [AuthConfig.evict, List.length_append, List.length_singleton]
  by_cases hfull : maxSessions ≤ sessions.length
  · have hnonempty : sessions ≠ [] := by
      rintro rfl
      simp [maxSessions] at hfull
    rw [if_pos (by omega), if_pos hfull, List.tail_append_of_ne_nil hnonempty]
  · rw [if_neg (by omega), if_neg hfull]

theorem evict_length {sessions : List SessionRecord} {record : SessionRecord}
    (h : sessions.length ≤ maxSessions) :
    (AuthConfig.evict (sessions ++ [record])).length ≤ maxSessions := by
  rw [evict_append]
  split
  · simp only [List.length_append, List.length_tail, List.length_singleton]
    have hpos : 0 < maxSessions := by decide
    omega
  · simp only [List.length_append, List.length_singleton]
    omega

theorem issueSession_sessions (auth : AuthConfig) (now : SystemTime) (token : String)
    (origin : SessionOrigin) :
    (auth.issueSession now token origin).2.sessions =
      AuthConfig.evict (auth.sessions.filter (·.isValid now) ++
        [⟨token, auth.expiryFromNow now, origin⟩]) := by
  have hexpiry : (auth.purgeLapsed now).2.expiryFromNow now = auth.expiryFromNow now := by
    rw [AuthConfig.purgeLapsed]
    split <;> rfl
  simp only [AuthConfig.issueSession, AuthConfig.purgeLapsed_sessions, hexpiry]

theorem reanchorExpiries_sessions (auth : AuthConfig) (now : SystemTime) :
    (auth.reanchorExpiries now).2.sessions =
      auth.sessions.map fun session =>
        { session with expiresAt := auth.expiryFromNow now } := by
  rw [AuthConfig.reanchorExpiries]
  split
  · next hempty =>
      have hnil : auth.sessions = [] := List.isEmpty_iff.mp hempty
      simp [hnil]
  · rfl

namespace SessionInv

variable {r : SessionRun} {now : SystemTime} {token : String} {origin : SessionOrigin}

theorem fresh (h : SessionInv r) (hfresh : token ∉ r.minted) :
    token ∉ r.auth.sessions.map (·.token) := by
  intro hmem
  obtain ⟨session, hsession, rfl⟩ := List.mem_map.mp hmem
  exact hfresh (h.minted session hsession)

theorem issue (h : SessionInv r) (hfresh : token ∉ r.minted) :
    SessionInv (r.issue now token origin) := by
  let record : SessionRecord := ⟨token, r.auth.expiryFromNow now, origin⟩
  let valid := r.auth.sessions.filter (·.isValid now)
  have hsub : valid.Sublist r.auth.sessions := List.filter_sublist
  have hsessions : (r.issue now token origin).auth.sessions =
      AuthConfig.evict (valid ++ [record]) :=
    issueSession_sessions r.auth now token origin
  have hnew : record.token ∉ valid.map (·.token) := by
    intro hmem
    exact h.fresh hfresh ((hsub.map _).subset hmem)
  have hevict : (AuthConfig.evict (valid ++ [record])).Sublist (valid ++ [record]) :=
    AuthConfig.evict_sublist _
  constructor
  · rw [hsessions]
    exact evict_length (hsub.length_le.trans h.capacity)
  · rw [hsessions]
    exact ((h.recency.sublist hsub).append hnew).sublist hevict
  · have htracks := (h.tracks.purge.append hnew).evict hevict.subset
    rw [← hsessions] at htracks
    exact htracks
  · intro session hmem
    rw [hsessions] at hmem
    rcases List.mem_append.mp (hevict.subset hmem) with hold | hlast
    · exact List.mem_cons_of_mem _ (h.minted session (hsub.subset hold))
    · obtain rfl := List.mem_singleton.mp hlast
      exact List.mem_cons_self

theorem of_sublist (h : SessionInv r) {auth : AuthConfig} {fate : String → Fate}
    (hsub : auth.sessions.Sublist r.auth.sessions) (htracks : Tracks fate auth.sessions)
    (clock : SystemTime) : SessionInv { r with auth, clock, fate } :=
  { capacity := hsub.length_le.trans h.capacity
    recency := h.recency.sublist hsub
    tracks := htracks
    minted := fun session hmem => h.minted session (hsub.subset hmem) }

theorem touch (h : SessionInv r) (hhit : r.auth.accepts now token = true) :
    SessionInv { r.use token with auth := (r.auth.findValidSession now token).2 } := by
  obtain ⟨session, hfind, _, heq⟩ := AuthConfig.findValidSession_of_accepts hhit
  have htoken : session.token = token := by simpa using List.find?_some hfind
  have hmem : session ∈ r.auth.sessions := List.mem_of_find?_eq_some hfind
  subst htoken
  let others := r.auth.sessions.filter (·.token ≠ session.token)
  have hsub : others.Sublist r.auth.sessions := List.filter_sublist
  have hsessions : (r.auth.findValidSession now session.token).2.sessions =
      others ++ [session] := by
    rw [heq, AuthConfig.eraseP_hasToken_eq_filter h.recency.distinct]
  have hsame (other : SessionRecord) :
      other ∈ others ++ [session] ↔ other ∈ r.auth.sessions := by
    rw [← hsessions]
    exact AuthConfig.findValidSession_perm.mem_iff
  have hnew : session.token ∉ others.map (·.token) := by
    intro hbefore
    obtain ⟨other, hother, hother'⟩ := List.mem_map.mp hbefore
    have hne := (List.mem_filter.mp hother).2
    simp [hother'] at hne
  have hlength : (others ++ [session]).length = r.auth.sessions.length := by
    rw [← hsessions]
    exact AuthConfig.findValidSession_perm.length_eq
  constructor
  · dsimp only [SessionRun.use]
    rw [hsessions, hlength]
    exact h.capacity
  · dsimp only [SessionRun.use]
    rw [hsessions]
    exact (h.recency.sublist hsub).append hnew
  · dsimp only [SessionRun.use]
    rw [hsessions]
    exact h.tracks.congr hsame
  · intro other hother
    dsimp only [SessionRun.use] at hother
    rw [hsessions, hsame] at hother
    exact h.minted other hother

theorem reset :
    SessionInv { r.use token with
      auth := (r.auth.resetSessions now token origin).2
      minted := token :: r.minted
      fate := Function.update (fun other => (r.fate other).forget) token
        (.live (r.auth.expiryFromNow now)) } := by
  let record : SessionRecord := ⟨token, r.auth.expiryFromNow now, origin⟩
  have hsessions : (r.auth.resetSessions now token origin).2.sessions = [record] := by
    rw [AuthConfig.resetSessions, issueSession_sessions]
    rfl
  have hrecency : Recency [] r.lastUse r.uses := ⟨.nil, by simp⟩
  have hnew : record.token ∉ ([] : List SessionRecord).map (·.token) := by simp
  constructor
  · dsimp only [SessionRun.use]
    rw [hsessions, List.length_singleton]
    decide
  · dsimp only [SessionRun.use]
    rw [hsessions]
    exact hrecency.append hnew
  · dsimp only [SessionRun.use]
    rw [hsessions]
    exact Tracks.forget.append hnew
  · intro session hmem
    dsimp only [SessionRun.use] at hmem
    rw [hsessions] at hmem
    obtain rfl := List.mem_singleton.mp hmem
    exact List.mem_cons_self

end SessionInv

theorem authorized_untouched {auth : AuthConfig} {headers : HeaderMap} {remote : IpAddr}
    {now : SystemTime} (h : auth.touched headers remote now = none) :
    (auth.authorized headers remote now).2 = auth := by
  rw [AuthConfig.touched] at h
  cases hremote : auth.localhostBypass remote with
  | true => simp [AuthConfig.authorized, hremote]
  | false =>
    rw [hremote, if_neg Bool.false_ne_true] at h
    rw [AuthConfig.authorized_eq hremote, h]

theorem authorized_touched {auth : AuthConfig} {headers : HeaderMap} {remote : IpAddr}
    {now : SystemTime} {token : String}
    (h : auth.touched headers remote now = some token) :
    auth.accepts now token = true ∧
      (auth.authorized headers remote now).2 = (auth.findValidSession now token).2 := by
  rw [AuthConfig.touched] at h
  cases hremote : auth.localhostBypass remote with
  | true =>
    rw [hremote, if_pos rfl] at h
    cases h
  | false =>
    rw [hremote, if_neg Bool.false_ne_true] at h
    refine ⟨List.find?_some h, ?_⟩
    rw [AuthConfig.authorized_eq hremote, h]

/-- A step of a run, one case for each outcome of an operation. -/
inductive SessionMove (r : SessionRun) (now : SystemTime) : SessionRun → Prop
  | issue {token : String} {origin : SessionOrigin} (hfresh : token ∉ r.minted) :
      SessionMove r now ({ r with clock := now }.issue now token origin)
  | refuse : SessionMove r now { r with clock := now }
  | touch {token : String} (hhit : r.auth.accepts now token = true) :
      SessionMove r now
        { { r with clock := now }.use token with
          auth := (r.auth.findValidSession now token).2 }
  | revoke {token : String} :
      SessionMove r now
        { r with
          auth := (r.auth.revokeSession token).2
          clock := now
          fate := Function.update r.fate token (r.fate token).revoke }
  | purge :
      SessionMove r now
        { r with
          auth := (r.auth.purgeLapsed now).2
          clock := now
          fate := fun other => (r.fate other).purge now }
  | configure {user password : Option String} {localhostNoAuth : Bool} {minutes : Nat} :
      SessionMove r now
        { r with
          auth := { r.auth with user, password, localhostNoAuth,
                                sessionExpirationMinutes := minutes }
          clock := now }
  | reanchor :
      SessionMove r now
        { r with
          auth := (r.auth.reanchorExpiries now).2
          clock := now
          fate := fun other => (r.fate other).reanchor (r.auth.expiryFromNow now) }
  | reset {token : String} {origin : SessionOrigin} (hfresh : token ∉ r.minted) :
      SessionMove r now
        { { r with clock := now }.use token with
          auth := (r.auth.resetSessions now token origin).2
          minted := token :: r.minted
          fate := Function.update (fun other => (r.fate other).forget) token
            (.live (r.auth.expiryFromNow now)) }

theorem sessionStep_cases {r r' : SessionRun} {act : SessionOp × SystemTime}
    (h : r.step act = some r') : r.clock ≤ act.2 ∧ SessionMove r act.2 r' := by
  obtain ⟨op, now⟩ := act
  simp only [SessionRun.step] at h
  split at h
  · cases h
  · next hclock =>
      refine ⟨not_lt.mp hclock, ?_⟩
      cases op with
      | issueSession token origin =>
        simp only at h
        split at h
        · cases h
        · next hfresh =>
            cases h
            exact .issue hfresh
      | authorized headers remote =>
        simp only at h
        cases htouched : r.auth.touched headers remote now with
        | none =>
          rw [htouched, authorized_untouched htouched] at h
          cases h
          exact .refuse
        | some token =>
          obtain ⟨hhit, hmoved⟩ := authorized_touched htouched
          rw [htouched, hmoved] at h
          cases h
          exact .touch hhit
      | revokeSession token =>
        cases h
        exact .revoke
      | purgeLapsed =>
        cases h
        exact .purge
      | configure user password localhostNoAuth minutes =>
        cases h
        exact .configure
      | reanchorExpiries =>
        cases h
        exact .reanchor
      | resetSessions token origin =>
        simp only at h
        split at h
        · cases h
        · next hfresh =>
            cases h
            exact .reset hfresh

theorem SessionMove.inv {r r' : SessionRun} {now : SystemTime} (h : SessionInv r)
    (hmove : SessionMove r now r') : SessionInv r' := by
  have hclock : SessionInv { r with clock := now } :=
    ⟨h.capacity, h.recency, h.tracks, h.minted⟩
  cases hmove with
  | issue hfresh => exact hclock.issue hfresh
  | refuse => exact hclock
  | touch hhit => exact hclock.touch hhit
  | revoke =>
    have hsessions (token : String) : (r.auth.revokeSession token).2.sessions =
        r.auth.sessions.filter (·.token ≠ token) := by
      rw [AuthConfig.revokeSession_sessions]
      simp
    apply h.of_sublist
    · rw [hsessions]
      exact List.filter_sublist
    · rw [hsessions]
      exact h.tracks.revoke
  | purge =>
    apply h.of_sublist
    · rw [AuthConfig.purgeLapsed_sessions]
      exact List.filter_sublist
    · rw [AuthConfig.purgeLapsed_sessions]
      exact h.tracks.purge
  | configure => exact ⟨h.capacity, h.recency, h.tracks, h.minted⟩
  | reanchor =>
    have hsessions := reanchorExpiries_sessions r.auth now
    constructor
    · dsimp only
      rw [hsessions, List.length_map]
      exact h.capacity
    · dsimp only
      rw [hsessions]
      exact h.recency.map fun _ => rfl
    · dsimp only
      rw [hsessions]
      exact h.tracks.reanchor _
    · intro session hmem
      dsimp only at hmem
      rw [hsessions] at hmem
      obtain ⟨before, hbefore, rfl⟩ := List.mem_map.mp hmem
      exact h.minted before hbefore
  | reset => exact SessionInv.reset (r := { r with clock := now })

theorem boot_inv {auth : AuthConfig} {records : List SessionRecord} {clock : SystemTime}
    (hdistinct : (records.map (·.token)).Nodup) :
    SessionInv (.boot auth records clock) := by
  let kept := records.take maxSessions
  have hsub : kept.Sublist records := List.take_sublist _ _
  have hkept : (kept.map (·.token)).Nodup := hdistinct.sublist (hsub.map _)
  constructor
  · exact List.length_take_le _ _
  · constructor
    · apply List.pairwise_iff_getElem.mpr
      intro i j hi hj hlt
      have hidx (k : Nat) (hk : k < kept.length) :
          (kept.map (·.token)).idxOf kept[k].token = k := by
        have hget := hkept.idxOf_getElem k (by simpa using hk)
        simpa using hget
      exact (hidx i hi).trans_lt (hlt.trans_eq (hidx j hj).symm)
    · intro session hmem
      have hmem' : session.token ∈ kept.map (·.token) := List.mem_map_of_mem hmem
      have hlt := List.idxOf_lt_length_of_mem hmem'
      rw [List.length_map] at hlt
      exact hlt
  · intro token deadline
    have hfate : (SessionRun.boot auth records clock).fate token =
        match kept.find? (·.hasToken token) with
        | none => .unknown
        | some session => .live session.expiresAt := rfl
    rw [hfate]
    constructor
    · intro hlive
      cases hfind : kept.find? (·.hasToken token) with
      | none =>
        rw [hfind] at hlive
        cases hlive
      | some session =>
        obtain ⟨hmem, htoken⟩ := (AuthConfig.find?_hasToken_iff hkept).mp hfind
        rw [hfind] at hlive
        exact ⟨session, hmem, htoken, Fate.live.inj hlive⟩
    · rintro ⟨session, hmem, htoken, rfl⟩
      rw [(AuthConfig.find?_hasToken_iff hkept).mpr ⟨hmem, htoken⟩]
  · intro session hmem
    exact List.mem_map_of_mem (hsub.subset hmem)

theorem sessionRuns_inv {r : SessionRun} (h : sessionRuns.Reachable r) : SessionInv r := by
  refine h.invariant ?_ ?_
  · rintro _ ⟨user, password, localhostNoAuth, minutes, records, clock, hdistinct, rfl⟩
    exact boot_inv hdistinct
  · intro r act r' _ hinv _ hstep
    exact (sessionStep_cases hstep).2.inv hinv

/-- What holds of the session set at every point of a run. -/
structure SessionDiscipline (r : SessionRun) : Prop where
  capacity : r.auth.sessions.length ≤ maxSessions
  ordered : r.auth.sessions.Pairwise fun a b => r.lastUse a.token < r.lastUse b.token
  accepted : ∀ headers remote now, r.auth.localhostBypass remote = false →
    ((r.auth.authorized headers remote now).1 = true ↔
      ∃ token ∈ headers.sessionTokens, ∃ deadline,
        r.fate token = .live deadline ∧ now < deadline)
  evicted : ∀ op now r', r.step (op, now) = some r' → ∀ token,
    r.fate token ≠ .evicted → r'.fate token = .evicted →
      (∃ deadline, r.fate token = .live deadline ∧ now < deadline) ∧
        ∀ other deadline, other ≠ token → r.fate other = .live deadline →
          now < deadline → r.lastUse token < r.lastUse other

/-- A token is accepted exactly while it is live and its deadline has not passed. -/
theorem SessionInv.accepts_iff {r : SessionRun} (h : SessionInv r) {now : SystemTime}
    {token : String} :
    r.auth.accepts now token = true ↔
      ∃ deadline, r.fate token = .live deadline ∧ now < deadline := by
  rw [AuthConfig.accepts_iff]
  constructor
  · rintro ⟨session, hfind, hvalid⟩
    obtain ⟨hmem, rfl⟩ := (AuthConfig.find?_hasToken_iff h.recency.distinct).mp hfind
    exact ⟨_, h.tracks.live hmem, by simpa [SessionRecord.isValid] using hvalid⟩
  · rintro ⟨deadline, hlive, hnow⟩
    obtain ⟨session, hmem, rfl, rfl⟩ := (h.tracks _ _).mp hlive
    refine ⟨session, (AuthConfig.find?_hasToken_iff h.recency.distinct).mpr ⟨hmem, rfl⟩, ?_⟩
    simpa [SessionRecord.isValid] using hnow

/-- What an issue evicts was the least recently used of the unexpired sessions. -/
theorem SessionInv.issue_evicts {r : SessionRun} (h : SessionInv r) {now : SystemTime}
    {token evicted : String} {origin : SessionOrigin} (hfresh : token ∉ r.minted)
    (hbefore : r.fate evicted ≠ .evicted)
    (hafter : (r.issue now token origin).fate evicted = .evicted) :
    (∃ deadline, r.fate evicted = .live deadline ∧ now < deadline) ∧
      ∀ other deadline, other ≠ evicted → r.fate other = .live deadline →
        now < deadline → r.lastUse evicted < r.lastUse other := by
  let record : SessionRecord := ⟨token, r.auth.expiryFromNow now, origin⟩
  let valid := r.auth.sessions.filter (·.isValid now)
  have hvalid : Recency valid r.lastUse r.uses := h.recency.sublist List.filter_sublist
  have hkept : (r.issue now token origin).auth.sessions =
      (if maxSessions ≤ valid.length then valid.tail else valid) ++ [record] := by
    rw [← evict_append]
    exact issueSession_sessions r.auth now token origin
  have hmem_valid {other : String} {deadline : SystemTime}
      (hlive : r.fate other = .live deadline) (hnow : now < deadline) :
      ∃ session ∈ valid, session.token = other := by
    obtain ⟨session, hmem, rfl, rfl⟩ := (h.tracks _ _).mp hlive
    refine ⟨session, List.mem_filter.mpr ⟨hmem, ?_⟩, rfl⟩
    simpa [SessionRecord.isValid] using hnow
  have hnew : token ∈ (r.issue now token origin).auth.tokens := by
    rw [AuthConfig.tokens, hkept]
    simp [record]
  obtain ⟨deadline, hlive, hnow, hout⟩ : ∃ deadline, r.fate evicted = .live deadline ∧
      now < deadline ∧ evicted ∉ (r.issue now token origin).auth.tokens := by
    rcases Fate.evictUnless_eq_evicted.mp hafter with hgone | ⟨⟨deadline, hlive⟩, hout⟩
    · by_cases hsame : evicted = token
      · rw [hsame, Function.update_self] at hgone
        cases hgone
      · rw [Function.update_of_ne hsame] at hgone
        exact absurd (Fate.purge_eq_evicted.mp hgone) hbefore
    · have hleft : evicted ∉ (r.issue now token origin).auth.tokens := by
        intro hmem
        have hcontains := List.contains_iff_mem.mpr hmem
        exact absurd (hout.symm.trans hcontains) Bool.false_ne_true
      have hother : evicted ≠ token := by
        rintro rfl
        exact hleft hnew
      rw [Function.update_of_ne hother] at hlive
      obtain ⟨hlive, hnow⟩ := Fate.purge_eq_live.mp hlive
      exact ⟨deadline, hlive, hnow, hleft⟩
  obtain ⟨session, hsession, hsame⟩ := hmem_valid hlive hnow
  refine ⟨⟨deadline, hlive, hnow⟩, fun other otherDeadline hne hother hotherNow => ?_⟩
  obtain ⟨survivor, hsurvivor, rfl⟩ := hmem_valid hother hotherNow
  -- The evicted session is the head of the valid ones, the others come behind it.
  have hleft : session ∉ (if maxSessions ≤ valid.length then valid.tail else valid) := by
    intro hmem
    apply hout
    rw [AuthConfig.tokens, hkept, ← hsame]
    exact List.mem_map_of_mem (List.mem_append_left _ hmem)
  by_cases hfull : maxSessions ≤ valid.length
  · rw [if_pos hfull] at hleft
    cases hlist : valid with
    | nil =>
      rw [hlist] at hsession
      cases hsession
    | cons oldest rest =>
      rw [hlist] at hvalid hsession hsurvivor hleft
      obtain rfl : session = oldest := by
        rcases List.mem_cons.mp hsession with heq | hrest
        · exact heq
        · exact absurd hrest hleft
      rcases List.mem_cons.mp hsurvivor with rfl | hrest
      · exact absurd hsame hne
      · rw [← hsame]
        exact hvalid.head_lt survivor hrest
  · rw [if_neg hfull] at hleft
    exact absurd hsession hleft

theorem sessions_disciplined {r : SessionRun} (h : sessionRuns.Reachable r) :
    SessionDiscipline r := by
  have hinv := sessionRuns_inv h
  refine ⟨hinv.capacity, hinv.recency.ordered, ?_, ?_⟩
  · intro headers remote now hremote
    rw [AuthConfig.authorized_iff hremote]
    simp only [hinv.accepts_iff]
  · intro op now r' hstep token hbefore hafter
    cases (sessionStep_cases hstep).2 with
    | issue hfresh =>
      have hclock : SessionInv { r with clock := now } :=
        ⟨hinv.capacity, hinv.recency, hinv.tracks, hinv.minted⟩
      exact hclock.issue_evicts hfresh hbefore hafter
    | refuse | touch | configure => exact absurd hafter hbefore
    | purge => exact absurd (Fate.purge_eq_evicted.mp hafter) hbefore
    | reanchor => exact absurd (Fate.reanchor_eq_evicted.mp hafter) hbefore
    | @revoke revoked =>
      dsimp only at hafter
      by_cases hsame : token = revoked
      · rw [hsame, Function.update_self, Fate.revoke_eq_evicted, ← hsame] at hafter
        exact absurd hafter hbefore
      · rw [Function.update_of_ne hsame] at hafter
        exact absurd hafter hbefore
    | @reset minted _ hfresh =>
      dsimp only at hafter
      by_cases hsame : token = minted
      · rw [hsame, Function.update_self] at hafter
        cases hafter
      · rw [Function.update_of_ne hsame, Fate.forget_eq_evicted] at hafter
        exact absurd hafter hbefore

/-- Eight sessions are issued, the first is used again and the second makes room for
the ninth. -/
def nineLogins : List (SessionOp × SystemTime) :=
  (["a", "b", "c", "d", "e", "f", "g", "h"].map fun token =>
    (.issueSession token .bypass, 0)) ++
  [(.authorized (.ofText "herdr_web_session=a") (.v4 10 0 0 1), 1),
    (.issueSession "i" .bypass, 2)]

theorem sessions_disciplined_nine :
    ∃ r, sessionRuns.Reachable r ∧
      r.auth.tokens = ["c", "d", "e", "f", "g", "h", "a", "i"] ∧
        r.fate "b" = .evicted ∧ SessionDiscipline r := by
  let start : SessionRun := .boot (.fromParts none none false 10) [] 0
  have hinit : sessionRuns.init start := ⟨none, none, false, 10, [], 0, .nil, rfl⟩
  have hrun : (sessionRuns.run start nineLogins).isSome := by decide +kernel
  have htokens : ((sessionRuns.run start nineLogins).get hrun).auth.tokens =
      ["c", "d", "e", "f", "g", "h", "a", "i"] := by
    clear hinit
    decide +kernel +revert
  have hfate : ((sessionRuns.run start nineLogins).get hrun).fate "b" = .evicted := by
    clear hinit htokens
    decide +kernel +revert
  have hreach := System.reachable_get hinit hrun
  exact ⟨_, hreach, htokens, hfate, sessions_disciplined hreach⟩

end HerdrWebui.Server
