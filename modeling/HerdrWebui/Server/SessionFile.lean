import HerdrWebui.Data.Text
import HerdrWebui.Notes.Store
import HerdrWebui.Server.Sessions

/-!
The format of the session sidecar. It is written as one JSON object with the records,
and read as that, as an older object with a single record, or as a bare token. The
JSON decoder is a parameter.
-/

namespace HerdrWebui.Server

open Notes

structure PersistedSessionToken where
  sessions : List PersistedSessionRecord
  token : Option String
  expiresAt : Option Nat
  deriving DecidableEq

/-- `now` in seconds. -/
def PersistedSessionRecord.isLive (record : PersistedSessionRecord) (now : Nat) : Bool :=
  record.expiresAt.all (now < ·)

def PersistedSessionRecord.toJson (record : PersistedSessionRecord) : String :=
  jsonObject (("token", jsonString record.token) ::
    (record.expiresAt.map fun secs => ("expires_at", toString secs)).toList)

/-- `serde_json::to_string`, which skips what is empty. -/
def PersistedSessionToken.toJson (record : PersistedSessionToken) : String :=
  jsonObject
    ((if record.sessions.isEmpty then []
      else [("sessions", "[" ++ ",".intercalate (record.sessions.map (·.toJson)) ++ "]")]) ++
    (record.token.map fun token => ("token", jsonString token)).toList ++
    (record.expiresAt.map fun secs => ("expires_at", toString secs)).toList)

/-- The content that `save_persisted_session_token` writes. -/
def savePersistedSessionToken (record : PersistedSessionToken) : ByteArray :=
  record.toJson.toUTF8

section Load

variable (decode : String → Option PersistedSessionToken)

/-- The records in a file, before the lapsed ones are dropped. -/
def PersistedSessionToken.records (record : PersistedSessionToken) :
    List PersistedSessionRecord :=
  if record.sessions.isEmpty then
    ((record.token.bind trimNonempty).map fun token => ⟨token, record.expiresAt⟩).toList
  else record.sessions

/-- `decode` is `serde_json::from_str`. -/
def loadPersistedSessionToken (now : Nat) (content : ByteArray) :
    Option PersistedSessionToken :=
  match String.fromUTF8? content with
  | none => none
  | some raw =>
    match decode raw with
    | some record =>
      let live := record.records.filter (·.isLive now)
      if live.isEmpty then none else some ⟨live, none, none⟩
    | none => (trimNonempty raw).map fun token => ⟨[⟨token, none⟩], none, none⟩

def isHexDigit (c : Char) : Bool :=
  c.isDigit || ('a' ≤ c && c ≤ 'f') || ('A' ≤ c && c ≤ 'F')

/-- A text in one of the formats: a document that decodes, with its sessions or its
single record, or a bare hex token. -/
def SidecarFormat (raw : String) : Prop :=
  (∃ record, decode raw = some record ∧ record.records ≠ []) ∨
    (decode raw = none ∧ ∃ token, trimNonempty raw = some token ∧
      token.toList.all isHexDigit = true)

/-- What the format promises of records that are saved and of a content that is loaded. -/
structure SidecarSound (now : Nat) (records : List PersistedSessionRecord)
    (content : ByteArray) : Prop where
  saved : loadPersistedSessionToken decode now
      (savePersistedSessionToken ⟨records, none, none⟩) =
    if (records.filter (·.isLive now)).isEmpty then none
    else some ⟨records.filter (·.isLive now), none, none⟩
  loaded : ∀ record, loadPersistedSessionToken decode now content = some record →
    ∃ raw, String.fromUTF8? content = some raw ∧ SidecarFormat decode raw

variable {decode} {now : Nat} {records : List PersistedSessionRecord} {content : ByteArray}

theorem load_saved
    (hdecode : decode (PersistedSessionToken.mk records none none).toJson =
      some ⟨records, none, none⟩) :
    loadPersistedSessionToken decode now (savePersistedSessionToken ⟨records, none, none⟩) =
      if (records.filter (·.isLive now)).isEmpty then none
      else some ⟨records.filter (·.isLive now), none, none⟩ := by
  have hrecords : (PersistedSessionToken.mk records none none).records = records := by
    rw [PersistedSessionToken.records]
    split
    · next hempty =>
        obtain rfl : records = [] := List.isEmpty_iff.mp hempty
        rfl
    · rfl
  rw [loadPersistedSessionToken, savePersistedSessionToken, fromUTF8?_toUTF8]
  dsimp only
  rw [hdecode]
  dsimp only
  rw [hrecords]

/-- A content is refused, or taken in one of the formats, exactly when it is no text, it
decodes, it is blank or it is a hex token. -/
theorem loaded_iff :
    (∀ record, loadPersistedSessionToken decode now content = some record →
        ∃ raw, String.fromUTF8? content = some raw ∧ SidecarFormat decode raw) ↔
      ∀ raw, String.fromUTF8? content = some raw → decode raw = none →
        ∀ token, trimNonempty raw = some token → token.toList.all isHexDigit = true := by
  constructor
  · intro h raw hraw hnone token htoken
    obtain ⟨raw', hraw', hformat⟩ := h ⟨[⟨token, none⟩], none, none⟩ (by
      rw [loadPersistedSessionToken, hraw]
      dsimp only
      rw [hnone]
      dsimp only
      rw [htoken, Option.map_some])
    obtain rfl := Option.some.inj (hraw.symm.trans hraw')
    rcases hformat with ⟨record, hrecord, -⟩ | ⟨-, token', htoken', hhex⟩
    · rw [hnone] at hrecord
      cases hrecord
    · obtain rfl := Option.some.inj (htoken.symm.trans htoken')
      exact hhex
  · intro h record hload
    unfold loadPersistedSessionToken at hload
    split at hload
    · cases hload
    · next raw hraw =>
        refine ⟨raw, hraw, ?_⟩
        split at hload
        · next document hdocument =>
            left
            refine ⟨document, hdocument, ?_⟩
            intro hempty
            simp [hempty] at hload
        · next hnone =>
            right
            obtain ⟨token, htoken, -⟩ := Option.map_eq_some_iff.mp hload
            exact ⟨hnone, token, htoken, h raw hraw hnone token htoken⟩

theorem sidecarSound_iff
    (hdecode : decode (PersistedSessionToken.mk records none none).toJson =
      some ⟨records, none, none⟩) :
    SidecarSound decode now records content ↔
      ∀ raw, String.fromUTF8? content = some raw → decode raw = none →
        ∀ token, trimNonempty raw = some token → token.toList.all isHexDigit = true := by
  rw [← loaded_iff]
  constructor
  · exact fun h => h.loaded
  · exact fun h => ⟨load_saved hdecode, h⟩

end Load

def savedRecords : List PersistedSessionRecord := [⟨"0a1b", some 100⟩, ⟨"2c3d", some 300⟩]

def savedText : String :=
  "\x7b\"sessions\":[\x7b\"token\":\"0a1b\",\"expires_at\":100\x7d,\x7b\"token\":\"2c3d\",\"expires_at\":300\x7d]\x7d"

/-- The decoder as it is on that text and on the texts that are no JSON. -/
def savedDecode (raw : String) : Option PersistedSessionToken :=
  if raw = savedText then some ⟨savedRecords, none, none⟩ else none

theorem savedRecords_toJson :
    savedDecode (PersistedSessionToken.mk savedRecords none none).toJson =
      some ⟨savedRecords, none, none⟩ := by
  decide +kernel

theorem sidecarSound_iff_bare_token :
    SidecarSound savedDecode 200 savedRecords "0a1b\n".toUTF8 := by
  apply (sidecarSound_iff savedRecords_toJson).mpr
  intro raw hraw _ token htoken
  obtain rfl := Option.some.inj ((fromUTF8?_toUTF8 _).symm.trans hraw)
  have htrimmed : trimNonempty "0a1b\n" = some "0a1b" := by decide +kernel
  obtain rfl := Option.some.inj (htrimmed.symm.trans htoken)
  decide +kernel

def truncatedText : String :=
  "\x7b\"sessions\":[\x7b\"token\":\"0a1b\",\"expires_at\":100\x7d,\x7b\"token\":\"2c"

/-- The text as far as the second token restores a session that never expires. -/
theorem truncated_sidecar_restores :
    loadPersistedSessionToken savedDecode 200 truncatedText.toUTF8 =
        some ⟨[⟨truncatedText, none⟩], none, none⟩ ∧
      truncatedText.toList <+: savedText.toList ∧
      ¬ SidecarSound savedDecode 200 savedRecords truncatedText.toUTF8 := by
  have hnone : savedDecode truncatedText = none := by decide +kernel
  have htrimmed : trimNonempty truncatedText = some truncatedText := by decide +kernel
  refine ⟨?_, by decide +kernel, ?_⟩
  · rw [loadPersistedSessionToken, fromUTF8?_toUTF8]
    dsimp only
    rw [hnone]
    dsimp only
    rw [htrimmed, Option.map_some]
  · rw [sidecarSound_iff savedRecords_toJson]
    intro h
    exact absurd (h _ (fromUTF8?_toUTF8 _) hnone _ htrimmed) (by decide +kernel)

end HerdrWebui.Server
