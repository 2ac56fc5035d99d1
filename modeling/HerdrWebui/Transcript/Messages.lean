import HerdrWebui.Data.Json
import HerdrWebui.Data.Text

/-!
The messages of a session as they are read from its snapshot and its journal, and what
is looked up in one message. Messages with an id that was seen before are left out. The
JSON parser is a parameter.
-/

namespace HerdrWebui.Transcript

/-- `valid_tool_ref`: `[A-Za-z0-9_:.-]`, from 1 to 128 of them. -/
def validToolRef (reference : String) : Bool :=
  let chars := reference.toList
  1 ≤ chars.length && chars.length ≤ 128 &&
    chars.all fun c => c.isAlphanum || c == '_' || c == ':' || c == '.' || c == '-'

def isBookkeepingMessage (message : Json) : Bool :=
  match message.getStr "display_role" with
  | some role => role == "system" || role == "background_task"
  | none => false

def messageTs (message : Json) : Option String := message.getStr "timestamp"

/-- The id of a message as the file has it. -/
def rawId (message : Json) : Option String := message.getStr "id"

def messageId (message : Json) : Option String := (rawId message).filter validToolRef

def isSupportedImageType (mediaType : String) : Bool :=
  ["image/png", "image/jpeg", "image/gif", "image/webp"].contains mediaType

def contentBlocks (message : Json) : Option (List Json) :=
  (message.get "content").bind Json.asArray

/-- The media type and the data of an image block a chat shows. -/
def imageBlock (block : JsonMap) : Option (String × String) :=
  if block.getStr "type" = some "image" then
    match block.getStr "media_type", block.getStr "data" with
    | some mediaType, some data =>
      if !isSupportedImageType mediaType || data.isEmpty then none
      else some (mediaType, data)
    | _, _ => none
  else none

def userImageRefs (message : Json) : List (String × String) :=
  match contentBlocks message with
  | none => []
  | some blocks => (blocks.filterMap Json.asObject).filterMap imageBlock

/-- The texts of the two files, where they can be read as text, and whether the bytes of
the journal can be read. -/
structure SessionFiles where
  snapshot : Option String
  journal : Option String
  journalReadable : Bool

/-- The messages whose id, if they have one, is none of `seen` or of an earlier one. -/
def dedupMessages (seen : List String) : List Json → List Json
  | [] => []
  | message :: messages =>
    match rawId message with
    | some id =>
      if id ∈ seen then dedupMessages seen messages
      else message :: dedupMessages (id :: seen) messages
    | none => message :: dedupMessages seen messages

section Load

variable (fromStr : String → Option Json)

def snapshotMessages (files : SessionFiles) : List Json :=
  ((files.snapshot.bind fromStr).bind fun parsed =>
    (parsed.get "messages").bind Json.asArray).getD []

/-- The messages that the lines of the journal append; a line that does not parse is
skipped. -/
def journalMessages (files : SessionFiles) : List Json :=
  match files.journal with
  | none => []
  | some text =>
    ((lines text).filterMap fun line =>
      (trimNonempty line).bind fun line =>
        (fromStr line).bind fun parsed =>
          (parsed.get "append_messages").bind Json.asArray).flatten

def loadSessionMessages (files : SessionFiles) : List Json :=
  dedupMessages [] (snapshotMessages fromStr files ++ journalMessages fromStr files)

/-- `Value::pointer` along three keys. -/
def compactionSummary (v : Json) : Option String :=
  (v.get "compaction").bind (·.getStr "summary_text")

/-- The newest summary of the journal, or the one of the snapshot. -/
def loadCompaction (files : SessionFiles) : Option String :=
  let journal := files.journal.bind fun text =>
    (lines text).reverse.findSome? fun line =>
      (fromStr line).bind fun parsed => (parsed.get "meta").bind compactionSummary
  journal.or ((files.snapshot.bind fromStr).bind compactionSummary)

end Load

/-- Messages with an id have different ones. -/
def DistinctIds (messages : List Json) : Prop :=
  (messages.filterMap rawId).Nodup

theorem dedupMessages_ids (seen : List String) (messages : List Json) :
    DistinctIds (dedupMessages seen messages) ∧
      ∀ id ∈ (dedupMessages seen messages).filterMap rawId, id ∉ seen := by
  induction messages generalizing seen with
  | nil => exact ⟨List.nodup_nil, by simp [dedupMessages]⟩
  | cons message messages ih =>
    unfold dedupMessages
    split
    · next id hid =>
        split
        · exact ih seen
        · next hnew =>
            obtain ⟨hdistinct, hout⟩ := ih (id :: seen)
            rw [DistinctIds, List.filterMap_cons_some hid]
            refine ⟨List.nodup_cons.mpr ⟨fun hmem => ?_, hdistinct⟩, ?_⟩
            · exact hout id hmem List.mem_cons_self
            · intro other hother
              rcases List.mem_cons.mp hother with rfl | hlater
              · exact hnew
              · exact fun hseen => hout other hlater (List.mem_cons_of_mem _ hseen)
    · next hnone =>
        rw [DistinctIds, List.filterMap_cons_none hnone]
        exact ih seen

theorem loadSessionMessages_distinctIds (fromStr : String → Option Json)
    (files : SessionFiles) : DistinctIds (loadSessionMessages fromStr files) :=
  (dedupMessages_ids [] _).1

theorem messageId_eq_some {message : Json} {id : String} (h : messageId message = some id) :
    rawId message = some id ∧ validToolRef id = true := by
  rw [messageId, Option.filter_eq_some_iff] at h
  exact h

end HerdrWebui.Transcript
