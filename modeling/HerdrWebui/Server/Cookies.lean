import HerdrWebui.Data.Text
import HerdrWebui.Server.Auth

/-!
The session cookies of a request: the scan of `authorized`, which lets a request
in by any of them, and `cookie_value`, which reads the first for the logout.
-/

namespace HerdrWebui.Server

def cookieName : String := "herdr_web_session"

def cookiePrefix : String := "herdr_web_session="

/-- The values of the `Cookie` headers of a request, as bytes. -/
structure HeaderMap where
  cookie : List (List UInt8)
  deriving DecidableEq

/-- `HeaderValue::to_str`. Visible ASCII, blanks and tabs are text. -/
def headerText (value : List UInt8) : Option String :=
  if value.all fun b => b == 9 || (32 ≤ b && b < 127) then
    some (String.ofList (value.map fun b => Char.ofNat b.toNat))
  else none

/-- `cookie.split(';')`. -/
def cookieParts (text : String) : List String :=
  (text.toList.splitOn ';').map String.ofList

/-- `part.trim().strip_prefix(COOKIE_PREFIX)`. -/
def sessionCookie (part : String) : Option String :=
  (cookiePrefix.toList.isPrefixOf? (trim part).toList).map String.ofList

/-- `headers.get(COOKIE)` is the first of several. -/
def HeaderMap.cookieText (headers : HeaderMap) : Option String :=
  headers.cookie.head?.bind headerText

def HeaderMap.cookieValue (headers : HeaderMap) : Option String := do
  let text ← headers.cookieText
  ((cookieParts text).filterMap sessionCookie).head?

/-- Every session cookie the request presents, in order. -/
def HeaderMap.sessionTokens (headers : HeaderMap) : List String :=
  match headers.cookieText with
  | none => []
  | some text => (cookieParts text).filterMap sessionCookie

/-- The headers of a request with one cookie header. -/
def HeaderMap.ofText (text : String) : HeaderMap := ⟨[text.toUTF8.toList]⟩

namespace AuthConfig

def tokenIsValid (auth : AuthConfig) (now : SystemTime) : Bool :=
  auth.sessions.any (·.isValid now)

/-- The unexpired session that was used last. -/
def currentSession (auth : AuthConfig) (now : SystemTime) : Option SessionRecord :=
  auth.sessions.reverse.find? (·.isValid now)

/-- The loop of `authorized`. It ends with the first part that finds a session. -/
def matchCookie (now : SystemTime) : List String → AuthConfig → Bool × AuthConfig
  | [], auth => (false, auth)
  | part :: parts, auth =>
    match sessionCookie part with
    | none => matchCookie now parts auth
    | some value =>
      match auth.findValidSession now value with
      | (some _, auth) => (true, auth)
      | (none, auth) => matchCookie now parts auth

def authorized (auth : AuthConfig) (headers : HeaderMap) (remote : IpAddr)
    (now : SystemTime) : Bool × AuthConfig :=
  if auth.localhostBypass remote then (true, auth)
  else
    match headers.cookieText with
    | none => (false, auth)
    | some text =>
      let (matched, auth) := matchCookie now (cookieParts text) auth
      (matched && auth.tokenIsValid now, auth)

/-- The two lock holds of the logout, and whether the caller got past the first. -/
def logout (auth : AuthConfig) (headers : HeaderMap) (remote : IpAddr)
    (now : SystemTime) : Bool × AuthConfig :=
  let (admitted, auth) := auth.authorized headers remote now
  if admitted then
    (true, (auth.revokeSession (headers.cookieValue.getD "")).2)
  else (false, auth)

def accepts (auth : AuthConfig) (now : SystemTime) (token : String) : Bool :=
  (auth.findValidSession now token).1.isSome

end AuthConfig

@[simp] theorem SessionRecord.hasToken_eq (session : SessionRecord) (token : String) :
    session.hasToken token = decide (session.token = token) := by
  rw [Bool.eq_iff_iff, SessionRecord.hasToken, constantTimeEq_iff, toUTF8_toList_inj,
    decide_eq_true_iff]

namespace AuthConfig

variable {auth : AuthConfig} {now : SystemTime} {token : String}

theorem find?_hasToken_iff {sessions : List SessionRecord} {token : String}
    {session : SessionRecord} (hdistinct : (sessions.map (·.token)).Nodup) :
    sessions.find? (·.hasToken token) = some session ↔
      session ∈ sessions ∧ session.token = token := by
  constructor
  · intro hfind
    exact ⟨List.mem_of_find?_eq_some hfind, by simpa using List.find?_some hfind⟩
  · rintro ⟨hmem, htoken⟩
    obtain ⟨found, hfind⟩ : ∃ found, sessions.find? (·.hasToken token) = some found := by
      apply Option.isSome_iff_exists.mp
      rw [List.find?_isSome]
      exact ⟨session, hmem, by simpa using htoken⟩
    have hfound : found.token = token := by simpa using List.find?_some hfind
    have hsame : found = session :=
      List.inj_on_of_nodup_map hdistinct (List.mem_of_find?_eq_some hfind) hmem
        (hfound.trans htoken.symm)
    rw [hfind, hsame]

theorem eraseP_hasToken_eq_filter {sessions : List SessionRecord}
    (hdistinct : (sessions.map (·.token)).Nodup) :
    sessions.eraseP (·.hasToken token) = sessions.filter (·.token ≠ token) := by
  induction sessions with
  | nil => rfl
  | cons session sessions ih =>
    rw [List.map_cons, List.nodup_cons] at hdistinct
    by_cases htoken : session.token = token
    · have hrest : ∀ other ∈ sessions, other.token ≠ token := by
        intro other hother hsame
        apply hdistinct.1
        rw [htoken, ← hsame]
        exact List.mem_map_of_mem hother
      have hkeep : sessions.filter (·.token ≠ token) = sessions := by
        rw [List.filter_eq_self]
        simpa using hrest
      simp only [List.eraseP_cons, List.filter_cons, hkeep]
      simp [htoken]
    · simpa [htoken] using ih hdistinct.2

theorem findValidSession_eq :
    auth.findValidSession now token =
      match auth.sessions.find? (·.hasToken token) with
      | none => (none, auth)
      | some session =>
        if session.isValid now then
          (some session,
            { auth with
              sessions := auth.sessions.eraseP (·.hasToken token) ++ [session] })
        else (none, auth) := by
  rw [findValidSession, List.find?_eq_bind_findIdx?_getElem?, List.eraseP_eq_eraseIdx]
  cases auth.sessions.findIdx? (·.hasToken token) with
  | none => rfl
  | some index =>
    cases hget : auth.sessions[index]? <;> simp [hget]

theorem accepts_iff :
    auth.accepts now token = true ↔
      ∃ session, auth.sessions.find? (·.hasToken token) = some session ∧
        session.isValid now = true := by
  rw [accepts, findValidSession_eq]
  cases auth.sessions.find? (·.hasToken token) with
  | none => simp
  | some session => cases hvalid : session.isValid now <;> simp [hvalid]

theorem findValidSession_of_not_accepts (h : auth.accepts now token = false) :
    auth.findValidSession now token = (none, auth) := by
  rw [accepts] at h
  rw [findValidSession_eq] at h ⊢
  cases hfind : auth.sessions.find? (·.hasToken token) with
  | none => rfl
  | some session =>
    rw [hfind] at h
    cases hvalid : session.isValid now with
    | false => simp [hvalid]
    | true => simp [hvalid] at h

theorem findValidSession_of_accepts (h : auth.accepts now token = true) :
    ∃ session, auth.sessions.find? (·.hasToken token) = some session ∧
      session.isValid now = true ∧
      auth.findValidSession now token =
        (some session,
          { auth with
            sessions := auth.sessions.eraseP (·.hasToken token) ++ [session] }) := by
  obtain ⟨session, hfind, hvalid⟩ := accepts_iff.mp h
  refine ⟨session, hfind, hvalid, ?_⟩
  rw [findValidSession_eq, hfind]
  simp [hvalid]

/-- The first token of the list that finds a session. -/
def firstAccepted (auth : AuthConfig) (now : SystemTime) (tokens : List String) :
    Option String :=
  tokens.find? (auth.accepts now)

theorem matchCookie_eq (parts : List String) :
    matchCookie now parts auth =
      match auth.firstAccepted now (parts.filterMap sessionCookie) with
      | none => (false, auth)
      | some token => (true, (auth.findValidSession now token).2) := by
  induction parts with
  | nil => rfl
  | cons part parts ih =>
    rw [matchCookie]
    cases hcookie : sessionCookie part with
    | none => simpa [hcookie] using ih
    | some value =>
      cases hvalue : auth.accepts now value with
      | false =>
        simp only [findValidSession_of_not_accepts hvalue]
        simpa [hcookie, firstAccepted, hvalue] using ih
      | true =>
        obtain ⟨session, _, _, heq⟩ := findValidSession_of_accepts hvalue
        simp [hcookie, firstAccepted, hvalue, heq]

theorem tokenIsValid_of_accepts (h : auth.accepts now token = true) :
    (auth.findValidSession now token).2.tokenIsValid now = true := by
  obtain ⟨session, _, hvalid, heq⟩ := findValidSession_of_accepts h
  simp [heq, tokenIsValid, hvalid]

variable {headers : HeaderMap} {remote : IpAddr}

/-- The caller is let in by the first of its session cookies that finds a
session, and that session moves to the end. -/
theorem authorized_eq (hremote : auth.localhostBypass remote = false) :
    auth.authorized headers remote now =
      match auth.firstAccepted now headers.sessionTokens with
      | none => (false, auth)
      | some token => (true, (auth.findValidSession now token).2) := by
  rw [authorized, if_neg (by simp [hremote]), HeaderMap.sessionTokens]
  cases headers.cookieText with
  | none => rfl
  | some text =>
    simp only [matchCookie_eq]
    cases hfirst : auth.firstAccepted now ((cookieParts text).filterMap sessionCookie) with
    | none => rfl
    | some token =>
      have haccepts : auth.accepts now token = true := List.find?_some hfirst
      simp [tokenIsValid_of_accepts haccepts]

theorem authorized_iff (hremote : auth.localhostBypass remote = false) :
    (auth.authorized headers remote now).1 = true ↔
      ∃ token ∈ headers.sessionTokens, auth.accepts now token = true := by
  rw [authorized_eq hremote]
  cases hfirst : auth.firstAccepted now headers.sessionTokens with
  | none =>
    rw [firstAccepted, List.find?_eq_none] at hfirst
    simpa using hfirst
  | some token =>
    have haccepts : auth.accepts now token = true := List.find?_some hfirst
    simp only [true_iff]
    exact ⟨token, List.mem_of_find?_eq_some hfirst, haccepts⟩

end AuthConfig

theorem HeaderMap.cookieValue_eq (headers : HeaderMap) :
    headers.cookieValue = headers.sessionTokens.head? := by
  rw [cookieValue, sessionTokens]
  cases headers.cookieText <;> rfl

end HerdrWebui.Server
