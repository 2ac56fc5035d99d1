import HerdrWebui.Server.Cookies

/-!
The logout against the check that let the caller in. The check takes any session
cookie of the header, the logout revokes the session of the first one. The
header is refused from then on if none of its other cookies finds a session.
-/

namespace HerdrWebui.Server

/-- What a logout promises to the caller, and to the other browsers. -/
structure LoggedOut (auth after : AuthConfig) (headers : HeaderMap) (remote : IpAddr)
    (now : SystemTime) : Prop where
  caller : ∀ later, now ≤ later → (after.authorized headers remote later).1 = false
  others : ∀ token, token ∉ headers.sessionTokens → ∀ later,
    auth.accepts later token = true → after.accepts later token = true

namespace AuthConfig

variable {auth : AuthConfig} {now later : SystemTime} {token other : String}
  {headers : HeaderMap} {remote : IpAddr}

@[simp] theorem revokeSession_localhostBypass :
    (auth.revokeSession token).2.localhostBypass remote = auth.localhostBypass remote := by
  rw [revokeSession]
  split <;> rfl

@[simp] theorem findValidSession_localhostBypass :
    (auth.findValidSession now token).2.localhostBypass remote =
      auth.localhostBypass remote := by
  rw [findValidSession_eq]
  repeat' split
  all_goals rfl

theorem accepts_anti (hle : now ≤ later) (h : auth.accepts later token = true) :
    auth.accepts now token = true := by
  obtain ⟨session, hfind, hvalid⟩ := accepts_iff.mp h
  have hlater : later < session.expiresAt := by simpa [SessionRecord.isValid] using hvalid
  refine accepts_iff.mpr ⟨session, hfind, ?_⟩
  simpa [SessionRecord.isValid] using lt_of_le_of_lt hle hlater

theorem accepts_congr {auth' : AuthConfig}
    (h : auth'.sessions.find? (·.hasToken token) = auth.sessions.find? (·.hasToken token)) :
    auth'.accepts now token = auth.accepts now token := by
  rw [Bool.eq_iff_iff, accepts_iff, accepts_iff, h]

theorem revokeSession_not_accepts :
    (auth.revokeSession token).2.accepts now token = false := by
  rw [← Bool.not_eq_true, accepts_iff, revokeSession_sessions, List.find?_filter]
  rintro ⟨session, hfind, -⟩
  have hboth := List.find?_some hfind
  simp at hboth

theorem revokeSession_accepts (h : other ≠ token) :
    (auth.revokeSession token).2.accepts now other = auth.accepts now other := by
  apply accepts_congr
  rw [revokeSession_sessions, List.find?_filter]
  congr 1
  funext session
  by_cases hother : session.token = other
  · simp [hother, h]
  · simp [hother]

theorem find?_eraseP_of_ne (h : other ≠ token) (sessions : List SessionRecord) :
    (sessions.eraseP (·.hasToken token)).find? (·.hasToken other) =
      sessions.find? (·.hasToken other) := by
  induction sessions with
  | nil => rfl
  | cons session sessions ih =>
    by_cases htoken : session.token = token
    · have hother : ¬ session.token = other := by
        rw [htoken]
        exact h.symm
      simp [htoken, h.symm]
    · simp only [SessionRecord.hasToken_eq] at ih ⊢
      simp [htoken, List.find?_cons, ih]

theorem findValidSession_accepts (h : other ≠ token) :
    (auth.findValidSession now token).2.accepts later other =
      auth.accepts later other := by
  cases hhit : auth.accepts now token with
  | false => rw [findValidSession_of_not_accepts hhit]
  | true =>
    obtain ⟨session, hfind, _, heq⟩ := findValidSession_of_accepts hhit
    have htoken : session.token = token := by simpa using List.find?_some hfind
    have hother : ¬ session.token = other := by
      rw [htoken]
      exact h.symm
    apply accepts_congr
    rw [heq]
    simp only [List.find?_append, find?_eraseP_of_ne h]
    simp [hother]

theorem findValidSession_accepts_self (hdistinct : (auth.sessions.map (·.token)).Nodup)
    (h : auth.accepts now token = true) :
    (auth.findValidSession now token).2.accepts now token = true := by
  obtain ⟨session, hfind, hvalid, heq⟩ := findValidSession_of_accepts h
  have htoken : session.token = token := by simpa using List.find?_some hfind
  rw [heq, accepts_iff]
  refine ⟨session, ?_, hvalid⟩
  have hnone : (auth.sessions.eraseP (·.hasToken token)).find? (·.hasToken token) = none := by
    rw [eraseP_hasToken_eq_filter hdistinct, List.find?_eq_none]
    intro other hother
    simpa using (List.mem_filter.mp hother).2
  rw [List.find?_append, hnone]
  simp [htoken]

theorem authorized_localhostBypass :
    (auth.authorized headers remote now).2.localhostBypass remote =
      auth.localhostBypass remote := by
  cases hremote : auth.localhostBypass remote with
  | true => simp [authorized, hremote]
  | false =>
    rw [authorized_eq hremote]
    split <;> simp [hremote]

/-- A caller let in had its first accepted cookie touched and its first cookie
revoked. -/
theorem logout_eq (hremote : auth.localhostBypass remote = false)
    (hadmitted : (auth.authorized headers remote now).1 = true) :
    ∃ matched ∈ headers.sessionTokens, auth.accepts now matched = true ∧
      ∃ first, headers.cookieValue = some first ∧
        (auth.logout headers remote now).2 =
          ((auth.findValidSession now matched).2.revokeSession first).2 := by
  have heq : auth.authorized headers remote now = _ := authorized_eq hremote
  cases hfirst : auth.firstAccepted now headers.sessionTokens with
  | none =>
    rw [hfirst] at heq
    rw [heq] at hadmitted
    simp at hadmitted
  | some matched =>
    rw [hfirst] at heq
    have hmem : matched ∈ headers.sessionTokens := List.mem_of_find?_eq_some hfirst
    obtain ⟨first, hhead⟩ : ∃ first, headers.sessionTokens.head? = some first :=
      Option.isSome_iff_exists.mp (List.isSome_head?.mpr (List.ne_nil_of_mem hmem))
    refine ⟨matched, hmem, List.find?_some hfirst, first, ?_, ?_⟩
    · rw [HeaderMap.cookieValue_eq, hhead]
    · simp [logout, heq, HeaderMap.cookieValue_eq, hhead]

@[simp] theorem logout_localhostBypass :
    (auth.logout headers remote now).2.localhostBypass remote =
      auth.localhostBypass remote := by
  rw [logout]
  dsimp only
  split <;> simp [authorized_localhostBypass]

/-- In a session set without duplicate tokens the condition is also needed: a
later cookie that finds a session still does after the logout. -/
theorem logout_accepts (hremote : auth.localhostBypass remote = false)
    (hadmitted : (auth.authorized headers remote now).1 = true)
    (hother : headers.cookieValue ≠ some other)
    (hdistinct : (auth.sessions.map (·.token)).Nodup)
    (h : auth.accepts now other = true) :
    (auth.logout headers remote now).2.accepts now other = true := by
  obtain ⟨matched, _, hmatched, first, hfirst, heq⟩ := logout_eq hremote hadmitted
  have hne : other ≠ first := by
    rintro rfl
    exact hother hfirst
  rw [heq, revokeSession_accepts hne]
  by_cases hsame : other = matched
  · rw [hsame]
    exact findValidSession_accepts_self hdistinct hmatched
  · rw [findValidSession_accepts hsame]
    exact h

end AuthConfig

/-- No session cookie of the header but the first, and copies of it, finds a
session. -/
def OneSessionNamed (auth : AuthConfig) (headers : HeaderMap) (now : SystemTime) : Prop :=
  ∀ token ∈ headers.sessionTokens, headers.cookieValue ≠ some token →
    auth.accepts now token = false

theorem logged_out_of_one_session {auth : AuthConfig} {headers : HeaderMap}
    {remote : IpAddr} {now : SystemTime} (hremote : auth.localhostBypass remote = false)
    (hadmitted : (auth.authorized headers remote now).1 = true)
    (hone : OneSessionNamed auth headers now) :
    LoggedOut auth (auth.logout headers remote now).2 headers remote now := by
  obtain ⟨matched, hmem, hmatched, first, hfirst, heq⟩ :=
    AuthConfig.logout_eq hremote hadmitted
  have hfirstMatched : first = matched := by
    by_contra hne
    have hother : headers.cookieValue ≠ some matched := by
      rw [hfirst]
      simpa using hne
    rw [hone matched hmem hother] at hmatched
    cases hmatched
  subst hfirstMatched
  rw [heq]
  refine ⟨fun later hlater => ?_, fun token htoken later haccepts => ?_⟩
  · rw [← Bool.not_eq_true, AuthConfig.authorized_iff (by simpa using hremote)]
    rintro ⟨token, htoken, haccepts⟩
    by_cases hsame : token = first
    · rw [hsame, AuthConfig.revokeSession_not_accepts] at haccepts
      cases haccepts
    · rw [AuthConfig.revokeSession_accepts hsame,
        AuthConfig.findValidSession_accepts hsame] at haccepts
      have hother : headers.cookieValue ≠ some token := by
        rw [hfirst]
        simpa using fun h => hsame h.symm
      have hnow := AuthConfig.accepts_anti hlater haccepts
      rw [hone token htoken hother] at hnow
      cases hnow
  · have hne : token ≠ first := by
      rintro rfl
      exact htoken hmem
    rw [AuthConfig.revokeSession_accepts hne, AuthConfig.findValidSession_accepts hne]
    exact haccepts

/-- The logout logs the caller out when the header names one session, and, in a
set without duplicate tokens, only then. -/
theorem logout_logs_out {auth : AuthConfig} {headers : HeaderMap} {remote : IpAddr}
    {now : SystemTime} (hremote : auth.localhostBypass remote = false)
    (hadmitted : (auth.authorized headers remote now).1 = true) :
    (OneSessionNamed auth headers now →
      LoggedOut auth (auth.logout headers remote now).2 headers remote now) ∧
    ((auth.sessions.map (·.token)).Nodup →
      LoggedOut auth (auth.logout headers remote now).2 headers remote now →
        OneSessionNamed auth headers now) := by
  refine ⟨logged_out_of_one_session hremote hadmitted, fun hdistinct hout => ?_⟩
  intro token htoken hother
  by_contra haccepts
  rw [Bool.not_eq_false] at haccepts
  have hstill := AuthConfig.logout_accepts hremote hadmitted hother hdistinct haccepts
  have hremote' :
      (auth.logout headers remote now).2.localhostBypass remote = false := by
    simpa using hremote
  have hadmittedStill :=
    (AuthConfig.authorized_iff hremote').mpr ⟨token, htoken, hstill⟩
  rw [hout.caller now le_rfl] at hadmittedStill
  cases hadmittedStill

def browserSession : SessionRecord := ⟨"good", fromSecs 600, .bypass⟩

def oneBrowser : AuthConfig :=
  { AuthConfig.fromParts none none false 10 with sessions := [browserSession] }

def staleThenLive : HeaderMap :=
  .ofText "herdr_web_session=stale; herdr_web_session=good"

/-- The logout revokes the session of the cookie `stale`, which is none. -/
theorem logout_leaves_admitted :
    oneBrowser.localhostBypass (.v4 10 0 0 1) = false ∧
      (oneBrowser.authorized staleThenLive (.v4 10 0 0 1) 0).1 = true ∧
      ¬ LoggedOut oneBrowser (oneBrowser.logout staleThenLive (.v4 10 0 0 1) 0).2
        staleThenLive (.v4 10 0 0 1) 0 := by
  refine ⟨by decide, by decide +kernel, fun h => ?_⟩
  have hrefused := h.caller 0 le_rfl
  revert hrefused
  decide +kernel

theorem logout_logs_out_live :
    LoggedOut oneBrowser
      (oneBrowser.logout (.ofText "a=1; herdr_web_session=good") (.v4 10 0 0 1) 0).2
      (.ofText "a=1; herdr_web_session=good") (.v4 10 0 0 1) 0 := by
  apply (logout_logs_out (by decide) (by decide +kernel)).1
  have hall : ∀ token ∈ (HeaderMap.ofText "a=1; herdr_web_session=good").sessionTokens,
      (HeaderMap.ofText "a=1; herdr_web_session=good").cookieValue = some token := by
    decide +kernel
  intro token htoken hother
  exact absurd (hall token htoken) hother

end HerdrWebui.Server
